/-!
# The calls a test file is made of

Which identifiers open a test, a suite or story, and a named comparison with a snapshot.
-/

namespace SnapshotPreview

/-- The role that a call plays in a test file. -/
inductive CallKind where
  /-- A single test. -/
  | test
  /-- A group of tests, or a story. -/
  | suite
  /-- A comparison with a stored snapshot that has a name of its own. -/
  | assertion
deriving DecidableEq, Repr

/-- The identifiers known for each kind of call, in the order in which they are tried. -/
structure Vocabulary where
  tests : List String
  suites : List String
  assertions : List String
deriving DecidableEq, Repr

namespace Vocabulary

/-- The identifiers that are always known. -/
def builtIn : Vocabulary where
  tests := ["it", "itMountsAnd", "itMountsContainerAnd"]
  suites := ["describe", "storyOf"]
  assertions := ["matchSnapshot"]

/-- The identifiers of one kind. -/
def identifiers (v : Vocabulary) : CallKind → List String
  | .test => v.tests
  | .suite => v.suites
  | .assertion => v.assertions

/-- Appends the identifiers that are not yet in the list, each at most once. -/
def addNew (known extra : List String) : List String :=
  extra.foldl (fun list ident => if ident ∈ list then list else list ++ [ident]) known

/-- Adds identifiers of one kind and keeps all known ones in their places. -/
def extend (v : Vocabulary) (kind : CallKind) (extra : List String) : Vocabulary :=
  match kind with
  | .test => { v with tests := addNew v.tests extra }
  | .suite => { v with suites := addNew v.suites extra }
  | .assertion => { v with assertions := addNew v.assertions extra }

end Vocabulary

end SnapshotPreview
