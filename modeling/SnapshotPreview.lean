import SnapshotPreview.Artifacts
import SnapshotPreview.Assoc
import SnapshotPreview.Bracket
import SnapshotPreview.Call
import SnapshotPreview.Caret
import SnapshotPreview.CommandLine.Arguments
import SnapshotPreview.CommandLine.Program
import SnapshotPreview.CommandLine.Requests
import SnapshotPreview.CommandLine.Shell
import SnapshotPreview.CommandLine.SystemShell
import SnapshotPreview.Config
import SnapshotPreview.Debouncer
import SnapshotPreview.Decimal.Binary64
import SnapshotPreview.Decimal.Shortest
import SnapshotPreview.Environment
import SnapshotPreview.Except
import SnapshotPreview.FileTree
import SnapshotPreview.Fragment
import SnapshotPreview.Html
import SnapshotPreview.Json.Basic
import SnapshotPreview.Json.Parser
import SnapshotPreview.Json.Printer
import SnapshotPreview.Json.Skip
import SnapshotPreview.Lens
import SnapshotPreview.LiveMessage
import SnapshotPreview.Location
import SnapshotPreview.Locator
import SnapshotPreview.Main
import SnapshotPreview.Markup.Assets
import SnapshotPreview.Markup.Attributes
import SnapshotPreview.Markup.StyleObject
import SnapshotPreview.OsPath
import SnapshotPreview.Page
import SnapshotPreview.Path
import SnapshotPreview.Preview.Burst
import SnapshotPreview.Preview.Live
import SnapshotPreview.Preview.Message
import SnapshotPreview.Preview.Stored
import SnapshotPreview.Preview.Story
import SnapshotPreview.Preview.WholeFile
import SnapshotPreview.Proofs.BackwardSearch
import SnapshotPreview.Proofs.BalancePoints
import SnapshotPreview.Proofs.BracketPairs
import SnapshotPreview.Proofs.CallNames
import SnapshotPreview.Proofs.CallSite
import SnapshotPreview.Proofs.CallSuffix
import SnapshotPreview.Proofs.CaretBlock
import SnapshotPreview.Proofs.CaretInTest
import SnapshotPreview.Proofs.Debouncing
import SnapshotPreview.Proofs.Decorations
import SnapshotPreview.Proofs.ExtendedVocabulary
import SnapshotPreview.Proofs.Json.Acceptance
import SnapshotPreview.Proofs.Json.Compact
import SnapshotPreview.Proofs.Json.Grammar
import SnapshotPreview.Proofs.Json.Literals
import SnapshotPreview.Proofs.Json.Meaning
import SnapshotPreview.Proofs.Json.Quotes
import SnapshotPreview.Proofs.Json.Reading
import SnapshotPreview.Proofs.Json.Thinning
import SnapshotPreview.Proofs.LaterText
import SnapshotPreview.Proofs.LensOpenings
import SnapshotPreview.Proofs.LensToTest
import SnapshotPreview.Proofs.LinesAndColumns
import SnapshotPreview.Proofs.Live.Bursts
import SnapshotPreview.Proofs.Live.Fields
import SnapshotPreview.Proofs.Live.Listing
import SnapshotPreview.Proofs.Live.Log
import SnapshotPreview.Proofs.Markup.Components
import SnapshotPreview.Proofs.Markup.References
import SnapshotPreview.Proofs.Markup.Rules
import SnapshotPreview.Proofs.Markup.StyleAttributes
import SnapshotPreview.Proofs.Markup.StyleObjects
import SnapshotPreview.Proofs.Markup.Unchanged
import SnapshotPreview.Proofs.Markup.Urls
import SnapshotPreview.Proofs.Markup.Verbatim
import SnapshotPreview.Proofs.Nesting
import SnapshotPreview.Proofs.PassingCount
import SnapshotPreview.Proofs.QuotedLiterals
import SnapshotPreview.Proofs.RecordHistory
import SnapshotPreview.Proofs.Records
import SnapshotPreview.Proofs.Reserialization
import SnapshotPreview.Proofs.Run
import SnapshotPreview.Proofs.SavedConfig
import SnapshotPreview.Proofs.SessionHistory
import SnapshotPreview.Proofs.SnapFile.Acceptance
import SnapshotPreview.Proofs.SnapFile.Boundaries
import SnapshotPreview.Proofs.SnapFile.ByteReading
import SnapshotPreview.Proofs.SnapFile.Characters
import SnapshotPreview.Proofs.SnapFile.Failure
import SnapshotPreview.Proofs.SnapFile.Grammar
import SnapshotPreview.Proofs.SnapFile.Joining
import SnapshotPreview.Proofs.SnapFile.Printing
import SnapshotPreview.Proofs.SnapFile.Reading
import SnapshotPreview.Proofs.Stored.Cache
import SnapshotPreview.Proofs.Stored.Caching
import SnapshotPreview.Proofs.Stored.Files
import SnapshotPreview.Proofs.Stored.Paths
import SnapshotPreview.Proofs.Stored.Variants
import SnapshotPreview.Proofs.Stored.WholeFile
import SnapshotPreview.Proofs.SuitePath
import SnapshotPreview.Proofs.Templates
import SnapshotPreview.Proofs.Text
import SnapshotPreview.Proofs.Toml.Documents
import SnapshotPreview.Proofs.Toml.Layout
import SnapshotPreview.Proofs.Toml.Library
import SnapshotPreview.Proofs.Toml.Strings
import SnapshotPreview.Proofs.UpdateRequests
import SnapshotPreview.Quoted
import SnapshotPreview.Record
import SnapshotPreview.Session
import SnapshotPreview.SnapFile.Cursor
import SnapshotPreview.SnapFile.Error
import SnapshotPreview.SnapFile.Parser
import SnapshotPreview.Storage
import SnapshotPreview.Structured
import SnapshotPreview.Text.Affix
import SnapshotPreview.Text.Alphanumeric
import SnapshotPreview.Text.Lowercase
import SnapshotPreview.Text.Printable
import SnapshotPreview.Text.Ranges
import SnapshotPreview.Text.Rule
import SnapshotPreview.Text.Utf8
import SnapshotPreview.Text.Word
import SnapshotPreview.Toml.Layout
import SnapshotPreview.Toml.Library
import SnapshotPreview.Toml.Parser
import SnapshotPreview.Toml.Printer
import SnapshotPreview.Toml.Scalar
import SnapshotPreview.Toml.Strings
import SnapshotPreview.Toml.Value
import SnapshotPreview.Update
import SnapshotPreview.Vocabulary
