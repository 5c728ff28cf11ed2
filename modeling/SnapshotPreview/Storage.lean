import SnapshotPreview.FileTree
import SnapshotPreview.Markup.Assets
import SnapshotPreview.SnapFile.Parser

/-!
# Stored snapshots and styles

Reading the artifacts of test files from a tree of files.
-/

namespace SnapshotPreview

/-- Why something stored cannot be used. -/
inductive LoadError where
  | notFound (path : String)
  | unreadable (cause : FileError)
  | invalid (path : String) (cause : SnapFile.Error)
deriving DecidableEq, Repr

/-- The message of an error. -/
def LoadError.message : LoadError → String
  | notFound path => "File not found: " ++ path
  | unreadable cause => "IO error: " ++ cause.message
  | invalid path cause => "Invalid snapshot file " ++ path ++ ": " ++ cause.message

namespace Storage

/-- The text of a file that may be missing. -/
def readText (files : FileTree) (path : String) : Except LoadError String :=
  if files.contains path then
    match files.readText path with
    | .ok text => .ok text
    | .error cause => .error (.unreadable cause)
  else .error (.notFound path)

/-- The snapshots in a file. -/
def loadRecord (files : FileTree) (path : String) : Except LoadError Record := do
  match SnapFile.parse (← readText files path) with
  | .ok record => return record
  | .error cause => throw (.invalid path cause)

/-- The styles in a file, with addresses below the asset base. There are none without the file. -/
def loadStyles (files : FileTree) (path base : String) : Except LoadError (Option String) :=
  match readText files path with
  | .ok css => .ok (some (Markup.relocateUrls css base))
  | .error (.notFound _) => .ok none
  | .error e => .error e

end Storage

end SnapshotPreview
