/-!
# Text as bytes

Positions in a text are counted in bytes of its UTF-8 form. Here are the bytes of a text, the
byte classes that scanners ask for, and the reading of bytes that need not be a text.
-/

namespace SnapshotPreview.Text

/-- The UTF-8 form of a text. -/
def bytesOf (s : String) : Array UInt8 := s.toUTF8.data

/-- The number of bytes that a run of characters takes. -/
def byteLength : List Char → Nat
  | [] => 0
  | c :: rest => c.utf8Size + byteLength rest

/-- The byte of an ASCII character. -/
def byte (c : Char) : UInt8 := c.toNat.toUInt8

/-- Space, tab, line feed, form feed and carriage return. -/
def isSpaceByte (b : UInt8) : Bool := b == 0x20 || b == 0x09 || b == 0x0a || b == 0x0c || b == 0x0d

/-- The same five characters, as characters. -/
def isSpace (c : Char) : Bool := c == ' ' || c == '\t' || c == '\n' || c == '\x0c' || c == '\r'

/-- A byte that continues a character. -/
def isContinuation (b : UInt8) : Bool := 0x80 ≤ b && b ≤ 0xbf

/-- A position at the start of a character, or at the end of the bytes. -/
def isBoundary (bytes : Array UInt8) (pos : Nat) : Bool :=
  match bytes[pos]? with
  | some b => !isContinuation b
  | none => pos == bytes.size

/-! ## Reading bytes as text -/

/-- What a first byte above ASCII announces: the bounds of the second byte, the number of bytes
after that one, and the bits of the first byte that count. -/
def sequenceOf (lead : UInt8) : Option (UInt8 × UInt8 × Nat × Nat) :=
  if lead < 0xc2 then none
  else if lead < 0xe0 then some (0x80, 0xbf, 0, lead.toNat % 0x20)
  else if lead == 0xe0 then some (0xa0, 0xbf, 1, 0)
  else if lead == 0xed then some (0x80, 0x9f, 1, 0xd)
  else if lead < 0xf0 then some (0x80, 0xbf, 1, lead.toNat % 0x10)
  else if lead == 0xf0 then some (0x90, 0xbf, 2, 0)
  else if lead < 0xf4 then some (0x80, 0xbf, 2, lead.toNat % 8)
  else if lead == 0xf4 then some (0x80, 0x8f, 2, 4)
  else none

/-- Reads `n` continuation bytes onto the bits so far. Gives the code point, if all are there,
and how many bytes belong to the sequence. -/
def readContinuations : Nat → Nat → List UInt8 → Option Nat × Nat
  | 0, bits, _ => (some bits, 0)
  | _ + 1, _, [] => (none, 0)
  | n + 1, bits, b :: rest =>
    if isContinuation b then
      let (code, used) := readContinuations n (bits * 64 + b.toNat % 64) rest
      (code, used + 1)
    else (none, 0)

/-- Reads what follows a first byte: the code point, or none for an ill-formed sequence, and
the number of bytes after the first that belong to it. -/
def readSequence (lead : UInt8) (rest : List UInt8) : Option Nat × Nat :=
  if lead < 0x80 then (some lead.toNat, 0)
  else
    match sequenceOf lead, rest with
    | some (lo, hi, more, bits), second :: rest =>
      if lo ≤ second && second ≤ hi then
        let (code, used) := readContinuations more (bits * 64 + second.toNat % 64) rest
        (code, used + 1)
      else (none, 0)
    | _, _ => (none, 0)

/-- Reads bytes as text, with one replacement character for each ill-formed sequence, taken as
long as it could still have become a character. -/
def decodeLossy : List UInt8 → List Char
  | [] => []
  | lead :: rest =>
    let (code, used) := readSequence lead rest
    (code.map Char.ofNat).getD '\ufffd' :: decodeLossy (rest.drop used)
termination_by bytes => bytes.length
decreasing_by simp only [List.length_cons, List.length_drop]; omega

/-- Reads bytes that must be a text. -/
def decode? : List UInt8 → Option (List Char)
  | [] => some []
  | lead :: rest =>
    match readSequence lead rest with
    | (some code, used) => (decode? (rest.drop used)).map (Char.ofNat code :: ·)
    | (none, _) => none
termination_by bytes => bytes.length
decreasing_by simp only [List.length_cons, List.length_drop]; omega

/-- The first character of well-formed bytes, unless they start inside a character. -/
def firstChar? : List UInt8 → Option Char
  | [] => none
  | lead :: rest => (readSequence lead rest).1.map Char.ofNat

end SnapshotPreview.Text
