import SnapshotPreview.Toml.Value

/-!
# The library of documents

What the program asks of the library that writes and reads its documents. How documents are written
is left to the library, which may also refuse one.
-/

namespace SnapshotPreview.Toml

/-- A value that can be written. -/
inductive Item where
  | text (s : String)
  | number (n : Nat)
  | flag (b : Bool)
  | texts (l : List String)
deriving DecidableEq, Repr

/-- A document to be written: entries, and after them tables with a header each. -/
structure Sheet where
  entries : List (String × Item)
  tables : List (String × List (String × Item))
deriving DecidableEq, Repr

/-- A library that writes and reads documents. -/
class Library where
  /-- The text of a document, unless the library refuses it. -/
  write : Sheet → Option String
  /-- What a text says, if it is a document. -/
  read : String → Option Entries

end SnapshotPreview.Toml
