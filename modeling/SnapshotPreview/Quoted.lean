import SnapshotPreview.Text.Utf8

/-!
# Quoted literals in source text

Reading a quoted literal byte by byte. A backslash keeps the byte after it, whatever it is, and
is dropped itself.
-/

namespace SnapshotPreview

/-- A literal read out of source text. -/
structure Quoted where
  /-- What stands between the quotes, with escapes undone. -/
  value : String
  /-- The position of the closing quote, or the length of the text without one. -/
  stop : Nat
deriving DecidableEq, Repr

namespace Quoted

/-- The byte that ends a literal, from the byte that begins it: anything but a double quote
stands for a single quote. -/
def quoteOf (first : Option UInt8) : UInt8 :=
  if first = some (Text.byte '"') then Text.byte '"' else Text.byte '\x27'

/-- The bytes of a literal with escapes undone, and the number of bytes before its closing quote.
A backslash at the very end of the text escapes nothing and is dropped. -/
def scan (quote : UInt8) : List UInt8 → List UInt8 × Nat
  | [] => ([], 0)
  | b :: rest =>
    if b = quote then ([], 0)
    else if b = Text.byte '\\' then
      match rest with
      | [] => ([], 1)
      | escaped :: rest =>
        let (bytes, used) := scan quote rest
        (escaped :: bytes, used + 2)
    else
      let (bytes, used) := scan quote rest
      (b :: bytes, used + 1)

/-- Reads the literal whose opening quote stands at `start`. -/
def read (text : Array UInt8) (start : Nat) : Quoted :=
  let (bytes, used) := scan (quoteOf text[start]?) (text.toList.drop (start + 1))
  { value := String.ofList (Text.decodeLossy bytes)
    stop := min (start + 1 + used) text.size }

end Quoted

end SnapshotPreview
