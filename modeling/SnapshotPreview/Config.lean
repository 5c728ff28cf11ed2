import SnapshotPreview.Environment
import SnapshotPreview.OsPath
import SnapshotPreview.Page
import SnapshotPreview.Preview.Story
import SnapshotPreview.Storage
import SnapshotPreview.Toml.Library
import SnapshotPreview.Update
import SnapshotPreview.Vocabulary

/-!
# The configuration

What a user may set, read from and written to a TOML file. A setting that is missing has its usual
value, and unknown settings are passed over. The documents themselves are read and written by a
library (`Toml.Library`).
-/

namespace SnapshotPreview

/-- All settings. -/
structure Config where
  updateTestCommand : Option String := none
  updateFileCommand : Option String := none
  /-- Whether every preview is also stored beside its snapshots. -/
  saveHtml : Bool := false
  /-- How many snapshots are shown at most; zero stands for all. -/
  previewCount : Nat := 0
  /-- Styles put into every preview. -/
  css : String := ""
  /-- The directory of assets, when it is not the usual one of the project. -/
  publicPath : Option OsPath := none
  storyServerUrl : String := StoryPreview.defaultServer
  reserializeStructured : Bool := false
  /-- Identifiers of calls besides those that are always known. -/
  calls : Vocabulary := { tests := [], suites := [], assertions := [] }
deriving DecidableEq, Repr

/-- Why a configuration cannot be used. -/
inductive ConfigError where
  | unreadable (path : String) (cause : FileError)
  | invalid (path : String)
deriving DecidableEq, Repr

/-- Why a configuration cannot be stored. -/
inductive SaveError where
  | unwritable (cause : FileError)
  /-- The configuration has no document, or the library refuses it. -/
  | unencodable
deriving DecidableEq, Repr

/-- The message of an error. -/
def ConfigError.message : ConfigError → String
  | unreadable path cause => "Failed to read config file at " ++ path ++ ": " ++ cause.message
  | invalid path => "Failed to parse config file at " ++ path

namespace Config

/-! ## Settings in a document -/

/-- A string. -/
def text? : Toml.Value → Option String
  | .string s => some s
  | _ => none

/-- A boolean. -/
def flag? : Toml.Value → Option Bool
  | .boolean b => some b
  | _ => none

/-- A count, which fits 64 bits. -/
def count? : Toml.Value → Option Nat
  | .integer n => if 0 ≤ n ∧ n < Int.ofNat (Nat.pow 2 64) then some n.toNat else none
  | _ => none

/-- A list of strings. -/
def texts? : Toml.Value → Option (List String)
  | .array items => items.mapM text?
  | _ => none

/-- A setting, with its usual value if it is missing. A value of the wrong kind is refused. -/
def setting {α : Type} (entries : Toml.Entries) (key : String) (usual : α)
    (read : Toml.Value → Option α) : Option α :=
  match Assoc.get? key entries with
  | some value => read value
  | none => some usual

/-- A list of strings at a place of an array. -/
def textsAt (items : List Toml.Value) (place : Nat) : Option (List String) :=
  match items[place]? with
  | some value => texts? value
  | none => some []

/-- Identifiers of calls: a table with a list for each kind, or the lists one after the other, of
which those after the third are passed over. A date or time counts as a table without entries. -/
def calls? : Toml.Value → Option Vocabulary
  | .table _ entries => do
    guard (Toml.entriesSound entries)
    let tests ← setting entries "tests" [] texts?
    let suites ← setting entries "suites" [] texts?
    let assertions ← setting entries "assertions" [] texts?
    return { tests, suites, assertions }
  | .array items => do
    let tests ← textsAt items 0
    let suites ← textsAt items 1
    let assertions ← textsAt items 2
    return { tests, suites, assertions }
  | .moment _ => some { tests := [], suites := [], assertions := [] }
  | _ => none

/-- The configuration in a document. Unknown settings are passed over, but their numbers must be
ones. -/
def ofEntries? (entries : Toml.Entries) : Option Config := do
  guard (Toml.entriesSound (entries.filter (·.1 != "calls")))
  let usual : Config := {}
  let optional (key : String) := setting entries key none fun v => (text? v).map some
  let updateTestCommand ← optional "update_test_command"
  let updateFileCommand ← optional "update_file_command"
  let saveHtml ← setting entries "save_html" usual.saveHtml flag?
  let previewCount ← setting entries "preview_count" usual.previewCount count?
  let css ← setting entries "css" usual.css text?
  let publicPath ← optional "public_path"
  let storyServerUrl ← setting entries "story_server_url" usual.storyServerUrl text?
  let reserializeStructured ←
    setting entries "reserialize_structured" usual.reserializeStructured flag?
  let calls ← setting entries "calls" usual.calls calls?
  return { updateTestCommand, updateFileCommand, saveHtml, previewCount, css,
           publicPath := publicPath.map .ofText, storyServerUrl, reserializeStructured, calls }

/-- An entry for a setting that may be missing. -/
def optionalEntry (key : String) (value : Option String) : List (String × Toml.Item) :=
  value.toList.map fun s => (key, .text s)

/-- The document of a configuration whose directory of assets has a text. -/
def toSheet (c : Config) (publicPath : Option String) : Toml.Sheet where
  entries :=
    optionalEntry "update_test_command" c.updateTestCommand ++
      optionalEntry "update_file_command" c.updateFileCommand ++
      [("save_html", .flag c.saveHtml), ("preview_count", .number c.previewCount),
        ("css", .text c.css)] ++
      optionalEntry "public_path" publicPath ++
      [("story_server_url", .text c.storyServerUrl),
        ("reserialize_structured", .flag c.reserializeStructured)]
  tables :=
    [("calls",
      [("tests", .texts c.calls.tests), ("suites", .texts c.calls.suites),
        ("assertions", .texts c.calls.assertions)])]

/-- The document of a configuration. There is none if the directory of assets is no text. -/
def toSheet? (c : Config) : Option Toml.Sheet :=
  (c.publicPath.mapM OsPath.text?).map c.toSheet

/-! ## Files -/

/-- The configuration as it is used: with its variables, if all of them are set. -/
def expandPaths (c : Config) (e : Environment) : Config :=
  { c with publicPath := c.publicPath.map fun path =>
      ((e.expand path.display).map OsPath.ofText).getD path }

/-- What has come of storing a configuration. -/
structure Saved where
  files : FileTree
  failure : Option SaveError := none
deriving DecidableEq, Repr

section
variable [Toml.Library]

/-- Reads the text of a configuration file. -/
def parse? (text : String) : Option Config := (Toml.Library.read text).bind ofEntries?

/-- The configuration in a file, if the file is there. -/
def load (files : FileTree) (e : Environment) (path : String) :
    Except ConfigError (Option Config) :=
  if files.contains path then
    match files.readText path with
    | .error cause => .error (.unreadable path cause)
    | .ok text =>
      match parse? text with
      | some c => .ok (some (c.expandPaths e))
      | none => .error (.invalid path)
  else .ok none

/-- The text of a configuration file, unless the configuration cannot be written. -/
def encode? (c : Config) : Option String := c.toSheet?.bind Toml.Library.write

/-- Stores the configuration in a file. Nothing is expanded. The directories above the file are made
before the configuration is written down. -/
def save (c : Config) (files : FileTree) (path : String) : Saved :=
  match files.makeDirectories ((Path.parent? path).getD "") with
  | { files, failure := some cause } => { files, failure := some (.unwritable cause) }
  | { files, failure := none } =>
    match c.encode? with
    | none => { files, failure := some .unencodable }
    | some text =>
      match files.writeText path text with
      | .ok files => { files }
      | .error cause => { files, failure := some (.unwritable cause) }

end

/-- Where the configuration of a user is stored. -/
def userPath (e : Environment) : String :=
  Path.join (String.ofList (e.expandHome "~/.config/snapview".toList)) "config.toml"

/-! ## What the settings mean -/

/-- All calls that are known. -/
def vocabulary (c : Config) : Vocabulary :=
  ((Vocabulary.builtIn.extend .test c.calls.tests).extend .suite c.calls.suites).extend .assertion
    c.calls.assertions

/-- The directory of assets of a project. -/
def publicDirectory (c : Config) (root : String) : String :=
  (c.publicPath.map OsPath.display).getD (Path.join root "public")

/-- The settings of all previews of a project. -/
def pageOptions (c : Config) (root : String) : PageOptions :=
  { (PageOptions.ofAssetBase (c.publicDirectory root)).addCss c.css with
    structured := if c.reserializeStructured then .reserialize else .verbatim
    maxEntries := c.previewCount }

/-- The template of the command that records snapshots anew. -/
def updateTemplate (c : Config) : UpdateScope → Option String
  | .test => c.updateTestCommand
  | .file => c.updateFileCommand

end Config

end SnapshotPreview
