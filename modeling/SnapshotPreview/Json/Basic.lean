import SnapshotPreview.Assoc
import SnapshotPreview.Decimal.Binary64

/-!
# JSON values
-/

namespace SnapshotPreview

/-- A JSON number: a whole number of at most 64 bits with its sign, or any other one. -/
inductive JsonNumber where
  | whole (n : Int)
  | float (x : Binary64)
deriving DecidableEq, Repr

/-- A JSON value. The members of an object keep their order. -/
inductive Json where
  | null
  | bool (b : Bool)
  | number (n : JsonNumber)
  | string (s : String)
  | array (items : List Json)
  | object (members : List (String × Json))
deriving Repr

namespace Json

/-- The members of an object as they are left when the pairs are read in order: a repeated name
keeps its first place and takes its last value. -/
def membersOf (pairs : List (String × Json)) : List (String × Json) :=
  pairs.foldl (fun members (name, value) => Assoc.set name value members) []

/-- What is wrong with a text that was to be read. -/
inductive Problem where
  /-- The text breaks the rules of JSON. -/
  | malformed
  /-- The text ends within a value. -/
  | truncated
  /-- The text is JSON so far, but does not say what was asked for. -/
  | mismatched
deriving DecidableEq, Repr

end Json

end SnapshotPreview
