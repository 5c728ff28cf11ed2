import SnapshotPreview.Text.Lowercase

/-!
# The place of a test

A test with the suites around it and the names of its snapshots.
-/

namespace SnapshotPreview

/-- A test, the suites or stories around it from the outside in, and the names under which its
snapshots may be stored. -/
structure Location where
  testName : Option String := none
  folders : List String := []
  snapshotNames : List String := []
deriving DecidableEq, Repr

namespace Location

/-- The place of no test. -/
def nowhere : Location := {}

/-- A test and at least one suite around it are known. -/
def isComplete (l : Location) : Bool := l.testName.isSome && !l.folders.isEmpty

/-- A name in lower case with a dash for each white space character. -/
def slug (name : String) : String :=
  Text.lowercase (String.ofList (name.toList.map fun c => if Text.isBlank c then '-' else c))

/-- The identifier of the story in a component explorer: the slugs of all folders. -/
def storyId (l : Location) : String := String.intercalate "-" (l.folders.map slug)

/-- The slug of the test name. -/
def testSlug (l : Location) : Option String := l.testName.map slug

end Location

end SnapshotPreview
