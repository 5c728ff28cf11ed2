import SnapshotPreview.Text.Utf8

/-!
# Paths of the system

A path is a run of bytes that need not be a text. One that is given as text has its UTF-8 form.
-/

namespace SnapshotPreview

/-- A path of the system. -/
structure OsPath where
  bytes : List UInt8
deriving DecidableEq, Repr

namespace OsPath

/-- The path that is given as text. -/
def ofText (s : String) : OsPath := { bytes := (Text.bytesOf s).toList }

/-- The path as text, if it is one. -/
def text? (p : OsPath) : Option String := String.fromUTF8? ⟨p.bytes.toArray⟩

/-- The path as it is shown, with replacement characters for what is no text. -/
def display (p : OsPath) : String := String.ofList (Text.decodeLossy p.bytes)

instance : Coe (Option String) (Option OsPath) := ⟨Option.map ofText⟩

instance : Coe (Option OsPath) (Option String) := ⟨Option.map display⟩

end OsPath

end SnapshotPreview
