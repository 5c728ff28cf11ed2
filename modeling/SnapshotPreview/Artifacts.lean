import SnapshotPreview.Path

/-!
# The files that belong to a test file

Snapshots and styles stand in a directory beside the test file. Variants of a test file, which
carry a tag in their name, share them.
-/

namespace SnapshotPreview

/-- Where the artifacts of a test file are stored. -/
structure Artifacts where
  directory : String
  /-- The stored snapshots. -/
  snapshotFile : String
  /-- The styles shown with them. -/
  styleFile : String
deriving DecidableEq, Repr

namespace Artifacts

/-- The directory beside a test file that holds its artifacts. -/
def directoryName : String := "__snapshots__"

/-- The extension of a file of snapshots. -/
def snapshotExtension : String := "snap"

/-- The name of the rendered page. -/
def pageName : String := "output.html"

/-- A character that cannot belong to a variant tag. -/
def endsTag (c : Char) : Bool := c == '_' || c == '.' || c == '-'

/-- Removes every variant tag: an at sign with all that follows it up to an underscore, a dot or a
dash. An at sign right before one of these is no tag. -/
def stripTags : List Char → List Char
  | [] => []
  | c :: rest =>
    let tail := rest.dropWhile fun c => !endsTag c
    if c = '@' && tail.length < rest.length then stripTags tail else c :: stripTags rest
termination_by cs => cs.length
decreasing_by
  · have := (List.dropWhile_sublist (l := rest) fun c => !endsTag c).length_le
    simp only [List.length_cons]
    omega
  · simp

/-- A file name without its variant tags. -/
def stripVariantTags (name : String) : String := String.ofList (stripTags name.toList)

/-- The artifacts of a test file. -/
def ofSource (source : String) : Artifacts :=
  let directory := Path.join ((Path.parent? source).getD "") directoryName
  let name := stripVariantTags ((Path.fileName? source).getD "")
  { directory
    snapshotFile := Path.join directory (name ++ "." ++ snapshotExtension)
    styleFile := Path.join directory ((Path.fileStem? name).getD "" ++ ".css") }

/-- The page that shows the snapshots. -/
def page (a : Artifacts) : String := Path.join a.directory pageName

end Artifacts

/-- A file of snapshots, by its extension. -/
def isSnapshotFile (path : String) : Bool :=
  Path.extension? path == some Artifacts.snapshotExtension

/-- A test file has `.test.` in its name. -/
def isTestFile (path : String) : Bool :=
  (Path.fileName? path).any fun name => Text.occursIn ['.', 't', 'e', 's', 't', '.'] name.toList

/-- The name under which live snapshots of a test file are kept: its name without extension. -/
def testFileKey (path : String) : String := (Path.fileStem? path).getD ""

end SnapshotPreview
