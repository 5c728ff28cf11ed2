import SnapshotPreview.Assoc
import SnapshotPreview.Decimal.Binary64

/-!
# Values and tables

What a document says: a table of values, built up from its entries and the headers above them. A
table remembers how it came about, since that decides what may still be added to it.
-/

namespace SnapshotPreview.Toml

/-- A number with a fraction or an exponent. -/
inductive Real where
  | finite (value : Binary64)
  | infinite (negative : Bool)
  | notANumber
deriving DecidableEq, Repr

/-- How a table came about. -/
inductive Origin where
  /-- It is the document, or has a header. -/
  | header
  /-- It lies on the way to a header. -/
  | way
  /-- It lies on the way to a dotted key. -/
  | dotted
  /-- It stands between braces. Nothing can be added to it. -/
  | inline
deriving DecidableEq, Repr

/-- A value of a document. -/
inductive Value where
  | string (text : String)
  | integer (value : Int)
  | real (value : Real)
  /-- A number that no value stands for: it is too large, or not all of it is digits. -/
  | unrepresentable
  | boolean (value : Bool)
  /-- A date, a time, or both, as written. -/
  | moment (text : String)
  | array (items : List Value)
  | table (origin : Origin) (entries : List (String × Value))
  /-- The tables that share a header in double brackets. -/
  | tables (elements : List (List (String × Value)))
deriving Repr

/-- The entries of a table, by key. -/
abbrev Entries := List (String × Value)

mutual

/-- Every number within a value is one. -/
def Value.isSound : Value → Bool
  | .unrepresentable => false
  | .array items => allSound items
  | .table _ entries => entriesSound entries
  | .tables elements => elementsSound elements
  | _ => true

/-- Every number within values is one. -/
def allSound : List Value → Bool
  | [] => true
  | v :: rest => v.isSound && allSound rest

/-- Every number within the entries of a table is one. -/
def entriesSound : List (String × Value) → Bool
  | [] => true
  | (_, v) :: rest => v.isSound && entriesSound rest

/-- Every number within tables is one. -/
def elementsSound : List (List (String × Value)) → Bool
  | [] => true
  | entries :: rest => entriesSound entries && elementsSound rest

end

/-- A character of a key without quotes. -/
def isBareKeyChar (c : Char) : Bool := c.isAlphanum || c == '_' || c == '-'

/-- The key of an entry or of a header, with the keys of the tables on the way to it. -/
structure KeyPath where
  way : List String
  key : String
deriving DecidableEq, Repr

namespace Entries

/-- Changes the table to which keys lead, and makes the tables on the way that are missing. The
last of several tables stands for all of them. -/
def descend (dotted : Bool) (change : Origin → Entries → Option Entries) :
    List String → Origin → Entries → Option Entries
  | [], origin, entries => change origin entries
  | key :: way, _, entries =>
    match Assoc.get? key entries with
    | none =>
      let origin : Origin := if dotted then .dotted else .way
      (descend dotted change way origin []).map fun inner =>
        Assoc.set key (.table origin inner) entries
    | some (.table origin inner) =>
      if origin = .inline ∨ (dotted ∧ origin = .header) then none
      else
        (descend dotted change way origin inner).map fun inner =>
          Assoc.set key (.table origin inner) entries
    | some (.tables elements) =>
      match elements.getLast? with
      | none => none
      | some last =>
        (descend dotted change way .header last).map fun last =>
          Assoc.set key (.tables (elements.dropLast ++ [last])) entries
    | some _ => none

/-- Adds a value under a new key. A dotted key leads to a table of dotted keys only. -/
def add (entries : Entries) (path : KeyPath) (value : Value) : Option Entries :=
  descend true
    (fun origin entries =>
      if (path.way ≠ [] ∧ origin ≠ .dotted) ∨ (Assoc.get? path.key entries).isSome then none
      else some (Assoc.set path.key value entries))
    path.way .header entries

/-- Adds values one after the other. -/
def addAll (entries : Entries) (more : List (KeyPath × Value)) : Option Entries :=
  more.foldlM (fun entries (path, value) => entries.add path value) entries

/-- Adds the table below a header. A table that so far lies on the way to others may get its
header late. -/
def addTable (entries : Entries) (path : KeyPath) (body : List (KeyPath × Value)) :
    Option Entries :=
  descend false
    (fun _ entries =>
      let start :=
        match Assoc.get? path.key entries with
        | none => some []
        | some (.table .way inner) => some inner
        | some _ => none
      (start.bind fun start => addAll start body).map fun inner =>
        Assoc.set path.key (.table .header inner) entries)
    path.way .header entries

/-- Adds the table below a header in double brackets after those with the same header. -/
def addElement (entries : Entries) (path : KeyPath) (body : List (KeyPath × Value)) :
    Option Entries :=
  descend false
    (fun _ entries =>
      let before :=
        match Assoc.get? path.key entries with
        | none => some []
        | some (.tables elements) => some elements
        | some _ => none
      before.bind fun before =>
        (addAll [] body).map fun element =>
          Assoc.set path.key (.tables (before ++ [element])) entries)
    path.way .header entries

end Entries

end SnapshotPreview.Toml
