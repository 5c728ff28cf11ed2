import Mathlib.Algebra.Group.Nat.Defs
import SnapshotPreview.Proofs.Records
import SnapshotPreview.Toml.Library

/-!
# What the library of documents is relied on for

A document without large numbers is written, and its text says what the document says. A number
that a signed one of 64 bits cannot hold is refused (`Library.IsLawful`).
-/

namespace SnapshotPreview.Toml

open Assoc (keys keys_map_value get? get?_map_value)

/-! ## What a document says -/

/-- What a document says where a value has been written. -/
def Item.value : Item → Value
  | .text s => .string s
  | .number n => .integer n
  | .flag b => .boolean b
  | .texts l => .array (l.map .string)

/-- The entries of a table that was written. -/
def bodyOf (entries : List (String × Item)) : Entries :=
  entries.map fun (key, i) => (key, i.value)

/-- What the tables of a document add to its entries. -/
def tablesOf (tables : List (String × List (String × Item))) : Entries :=
  tables.map fun (name, body) => (name, .table .header (bodyOf body))

/-- What a document says that was written. -/
def Sheet.table (s : Sheet) : Entries := bodyOf s.entries ++ tablesOf s.tables

theorem keys_bodyOf (entries : List (String × Item)) : keys (bodyOf entries) = keys entries :=
  keys_map_value Item.value entries

theorem get?_bodyOf (key : String) (entries : List (String × Item)) :
    get? key (bodyOf entries) = (get? key entries).map Item.value :=
  get?_map_value Item.value key entries

theorem isSound_value (i : Item) : i.value.isSound = true := by
  cases i with
  | text s => rfl
  | number n => rfl
  | flag b => rfl
  | texts l =>
    rw [Item.value, Value.isSound]
    induction l with
    | nil => rfl
    | cons s l ih => rw [List.map_cons, allSound, ih]; rfl

theorem entriesSound_iff {entries : Entries} :
    entriesSound entries = true ↔ ∀ entry ∈ entries, entry.2.isSound = true := by
  induction entries with
  | nil => simp [entriesSound]
  | cons entry entries ih => rw [entriesSound, Bool.and_eq_true, ih, List.forall_mem_cons]

theorem entriesSound_bodyOf (entries : List (String × Item)) :
    entriesSound (bodyOf entries) = true := by
  refine entriesSound_iff.mpr fun entry isIn => ?_
  obtain ⟨source, -, rfl⟩ := List.mem_map.mp isIn
  exact isSound_value source.2

/-! ## Documents that can be written -/

/-- A key that needs no quotes. -/
def IsBareKey (key : String) : Prop :=
  key.toList ≠ [] ∧ ∀ c ∈ key.toList, isBareKeyChar c = true

instance (key : String) : Decidable (IsBareKey key) :=
  decidable_of_iff (key.toList ≠ [] ∧ key.toList.all isBareKeyChar = true) (by simp [IsBareKey])

/-- A document whose keys need no quotes and are distinct, as are those within each of its
tables. -/
structure Sheet.IsProper (s : Sheet) : Prop where
  bare : ∀ entry ∈ s.entries, IsBareKey entry.1
  headers : ∀ table ∈ s.tables, IsBareKey table.1
  bareBodies : ∀ table ∈ s.tables, ∀ entry ∈ table.2, IsBareKey entry.1
  distinct : (keys s.table).Nodup
  distinctBodies : ∀ table ∈ s.tables, (keys (bodyOf table.2)).Nodup

/-- The numbers of a value. -/
def Item.numbers : Item → List Nat
  | .number n => [n]
  | _ => []

/-- All numbers of a document. -/
def Sheet.numbers (s : Sheet) : List Nat :=
  (s.entries ++ s.tables.flatMap (·.2)).flatMap (·.2.numbers)

/-! ## The library -/

/-- The library reads what it has written, and refuses numbers above `2 ^ 63 - 1`. -/
structure Library.IsLawful [Library] : Prop where
  read_of_written : ∀ s : Sheet, s.IsProper → (∀ n ∈ s.numbers, n < 2 ^ 63) →
    ∃ text, write s = some text ∧ read text = some s.table
  write_of_large : ∀ s : Sheet, ∀ n ∈ s.numbers, 2 ^ 63 ≤ n → write s = none

end SnapshotPreview.Toml
