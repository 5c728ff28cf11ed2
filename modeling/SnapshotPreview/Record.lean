import SnapshotPreview.Assoc

/-!
# Stored snapshots

The snapshots of one test file by name, in the order in which the names first came. Two names
are set apart: they hold the CSS class and the decorator put around every snapshot.
-/

namespace SnapshotPreview

/-- Stored snapshots by name, and the two settings that travel with them. -/
structure Record where
  entries : List (String × String) := []
  cssClassName : Option String := none
  decorator : Option String := none
deriving DecidableEq, Repr

namespace Record

/-- The name that holds the CSS class. -/
def cssClassKey : String := "cssClassName"

/-- The name that holds the decorator. -/
def decoratorKey : String := "decorator"

/-- A name that is not the name of a snapshot. -/
def isSidecarKey (key : String) : Bool := key == cssClassKey || key == decoratorKey

/-- The record without snapshots. -/
def empty : Record := {}

/-- Stores a value under a name. -/
def insert (r : Record) (key value : String) : Record :=
  if key = cssClassKey then { r with cssClassName := some value }
  else if key = decoratorKey then { r with decorator := some value }
  else { r with entries := Assoc.set key value r.entries }

/-- Stores all pairs in order. -/
def insertAll (r : Record) (pairs : List (String × String)) : Record :=
  pairs.foldl (fun r (key, value) => r.insert key value) r

/-- The record of a list of pairs. -/
def ofPairs (pairs : List (String × String)) : Record := empty.insertAll pairs

/-- The snapshot stored under a name. -/
def get? (r : Record) (key : String) : Option String := Assoc.get? key r.entries

/-- The number of snapshots. -/
def size (r : Record) : Nat := r.entries.length

/-- No snapshot is stored. -/
def isEmpty (r : Record) : Bool := r.entries.isEmpty

end Record

/-- What can be shown: one snapshot without a name, or a record. -/
inductive Content where
  | text (snapshot : String)
  | record (snapshots : Record)
deriving DecidableEq, Repr

end SnapshotPreview
