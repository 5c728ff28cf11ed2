import SnapshotPreview.Json.Basic
import SnapshotPreview.Text.Utf8

/-!
# Reading JSON

Strict JSON, read from left to right: the first problem met decides. Every reader gives what it
read and the text after it. Values nest in at most 127 arrays and objects.
-/

namespace SnapshotPreview

namespace Json

/-- A reader gives what it read and the text after it, or what stopped it. -/
abbrev Reader (α : Type) := List Char → Except Problem (α × List Char)

/-- The four characters of JSON white space. -/
def isSpace (c : Char) : Bool := c == ' ' || c == '\n' || c == '\t' || c == '\r'

/-- The text without the white space before it. -/
def skipSpace (cs : List Char) : List Char := cs.dropWhile isSpace

/-! ## Strings -/

/-- The value of a hexadecimal digit. -/
def hexValue? (c : Char) : Option Nat :=
  if '0' ≤ c && c ≤ '9' then some (c.toNat - '0'.toNat)
  else if 'a' ≤ c && c ≤ 'f' then some (c.toNat - 'a'.toNat + 10)
  else if 'A' ≤ c && c ≤ 'F' then some (c.toNat - 'A'.toNat + 10)
  else none

/-- Four hexadecimal digits. A text of fewer than four bytes ends too early. -/
def readHex (cs : List Char) : Except Problem (Nat × List Char) :=
  if Text.byteLength cs < 4 then .error .truncated
  else
    match cs with
    | a :: b :: c :: d :: rest =>
      match hexValue? a, hexValue? b, hexValue? c, hexValue? d with
      | some a, some b, some c, some d => .ok (((a * 16 + b) * 16 + c) * 16 + d, rest)
      | _, _, _, _ => .error .malformed
    | _ => .error .malformed

/-- One given character, where the text must go on. -/
def readExactly (expected : Char) : List Char → Except Problem (List Char)
  | [] => .error .truncated
  | c :: rest => if c = expected then .ok rest else .error .malformed

/-- The character written by the hexadecimal digits after `\u`. The first half of a pair must be
followed by the second half. -/
def readUnicodeEscape (cs : List Char) : Except Problem (Char × List Char) := do
  let (high, rest) ← readHex cs
  if 0xdc00 ≤ high && high ≤ 0xdfff then .error .malformed
  else if high < 0xd800 || 0xdbff < high then .ok (Char.ofNat high, rest)
  else
    let rest ← readExactly '\\' rest
    let rest ← readExactly 'u' rest
    let (low, rest) ← readHex rest
    if low < 0xdc00 || 0xdfff < low then .error .malformed
    else .ok (Char.ofNat (0x10000 + (high - 0xd800) * 0x400 + (low - 0xdc00)), rest)

/-- The character that a letter after a backslash stands for. -/
def shortEscape? (c : Char) : Option Char :=
  if c == '"' || c == '\\' || c == '/' then some c
  else if c == 'b' then some '\x08'
  else if c == 'f' then some '\x0c'
  else if c == 'n' then some '\n'
  else if c == 'r' then some '\r'
  else if c == 't' then some '\t'
  else none

/-- What follows a backslash. -/
def readEscape : Reader Char
  | [] => .error .truncated
  | c :: rest =>
    if c == 'u' then readUnicodeEscape rest
    else
      match shortEscape? c with
      | some c => .ok (c, rest)
      | none => .error .malformed

/-- The characters of a string up to its closing quote, read in at most `fuel` steps. Every step
takes a character, so the length of the text is fuel enough. -/
def readChars (fuel : Nat) (cs : List Char) : Except Problem (List Char × List Char) :=
  match fuel, cs with
  | 0, _ | _, [] => .error .truncated
  | fuel + 1, c :: rest =>
    if c == '"' then .ok ([], rest)
    else if c == '\\' then do
      let (c, rest) ← readEscape rest
      let (cs, rest) ← readChars fuel rest
      return (c :: cs, rest)
    else if c.toNat < 0x20 then .error .malformed
    else do
      let (cs, rest) ← readChars fuel rest
      return (c :: cs, rest)

/-- A string whose opening quote has been read. -/
def readString (cs : List Char) : Except Problem (String × List Char) := do
  let (chars, rest) ← readChars cs.length cs
  return (String.ofList chars, rest)

/-! ## Numbers -/

/-- An ASCII digit. -/
def isDigit (c : Char) : Bool := '0' ≤ c && c ≤ '9'

/-- The digits at the start of the text and what follows them. -/
def readDigits (cs : List Char) : List Nat × List Char :=
  ((cs.takeWhile isDigit).map fun c => c.toNat - '0'.toNat, cs.dropWhile isDigit)

/-- Appends digits to a significand while it stays below `2 ^ 64`. Gives the number of digits that
are left over from the first that did not fit. -/
def absorb : Nat → List Nat → Nat × Nat
  | significand, [] => (significand, 0)
  | significand, d :: ds =>
    if significand * 10 + d < Nat.pow 2 64 then absorb (significand * 10 + d) ds
    else (significand, ds.length + 1)

/-- A float, which must not be too large. -/
def floatOf (negative : Bool) (significand : Nat) (exponent : Int) : Except Problem JsonNumber :=
  match Binary64.ofParts? negative significand exponent with
  | some x => .ok (.float x)
  | none => .error .malformed

/-- A number without fraction and exponent. It stays whole if it fits 64 bits, and negative zero
is a float. -/
def wholeOf (negative : Bool) (significand leftOver : Nat) : Except Problem JsonNumber :=
  if leftOver != 0 then floatOf negative significand leftOver
  else if !negative then .ok (.whole significand)
  else if 0 < significand && significand ≤ Nat.pow 2 63 then .ok (.whole (-(significand : Int)))
  else floatOf negative significand 0

/-- The exponent after its letter. -/
def readExponent (cs : List Char) : Except Problem (Int × List Char) := do
  let (negative, cs) :=
    match cs with
    | '+' :: rest => (false, rest)
    | '-' :: rest => (true, rest)
    | cs => (false, cs)
  if cs.isEmpty then .error .truncated
  else
    let (digits, rest) := readDigits cs
    if digits.isEmpty then .error .malformed
    else
      let value : Nat := digits.foldl (fun n d => n * 10 + d) 0
      return (if negative then -(value : Int) else value, rest)

/-- Whether an exponent comes next. -/
def exponentLetter : List Char → Bool
  | c :: _ => c == 'e' || c == 'E'
  | [] => false

/-- What follows the whole part: a fraction, an exponent, both or nothing. Digits that do not fit
the significand only count by their place. -/
def readAfterWhole (negative : Bool) (significand leftOver : Nat) (cs : List Char) :
    Except Problem (JsonNumber × List Char) := do
  match cs with
  | '.' :: cs =>
    let (digits, rest) := readDigits cs
    if digits.isEmpty then .error (if rest.isEmpty then .truncated else .malformed)
    else
      let (significand, unused) := absorb significand digits
      let places : Int := (leftOver : Int) - ((digits.length - unused : Nat) : Int)
      if exponentLetter rest then
        let (exponent, rest) ← readExponent rest.tail
        return (← floatOf negative significand (places + exponent), rest)
      else return (← floatOf negative significand places, rest)
  | cs =>
    if exponentLetter cs then
      let (exponent, rest) ← readExponent cs.tail
      return (← floatOf negative significand (leftOver + exponent), rest)
    else return (← wholeOf negative significand leftOver, cs)

/-- A number after its sign. A zero is not followed by digits. -/
def readUnsigned (negative : Bool) : Reader JsonNumber
  | [] => .error .truncated
  | c :: rest =>
    if c == '0' then
      if (rest.head?.any isDigit) then .error .malformed else readAfterWhole negative 0 0 rest
    else if isDigit c then
      let (digits, rest) := readDigits (c :: rest)
      let (significand, leftOver) := absorb 0 digits
      readAfterWhole negative significand leftOver rest
    else .error .malformed

/-! ## Values -/

/-- The rest of a word whose first letter has been read. -/
def readWord : List Char → List Char → Except Problem (List Char)
  | [], cs => .ok cs
  | expected :: more, cs => do readWord more (← readExactly expected cs)

/-- A value that holds no other values and begins with the given character. -/
def readScalar (c : Char) (rest : List Char) : Except Problem (Json × List Char) :=
  if c == 'n' then do return (.null, ← readWord ['u', 'l', 'l'] rest)
  else if c == 't' then do return (.bool true, ← readWord ['r', 'u', 'e'] rest)
  else if c == 'f' then do return (.bool false, ← readWord ['a', 'l', 's', 'e'] rest)
  else if c == '-' then do
    let (n, rest) ← readUnsigned true rest
    return (.number n, rest)
  else if isDigit c then do
    let (n, rest) ← readUnsigned false (c :: rest)
    return (.number n, rest)
  else if c == '"' then do
    let (s, rest) ← readString rest
    return (.string s, rest)
  else .error .malformed

/-- The items after the first one, up to the closing bracket, at most `fuel` of them. -/
def readItems (value : Reader Json) : Nat → Reader (List Json)
  | 0, _ => .error .truncated
  | fuel + 1, cs =>
    match skipSpace cs with
    | [] => .error .truncated
    | ']' :: rest => .ok ([], rest)
    | ',' :: rest =>
      match skipSpace rest with
      | [] => .error .truncated
      | ']' :: _ => .error .malformed
      | rest => do
        let (v, rest) ← value rest
        let (vs, rest) ← readItems value fuel rest
        return (v :: vs, rest)
    | _ => .error .malformed

/-- The items of an array whose opening bracket has been read. -/
def readArray (value : Reader Json) : Reader (List Json) := fun cs =>
  match skipSpace cs with
  | [] => .error .truncated
  | ']' :: rest => .ok ([], rest)
  | rest => do
    let (v, rest) ← value rest
    let (vs, rest) ← readItems value (rest.length + 1) rest
    return (v :: vs, rest)

/-- The colon after a name. -/
def readColon (cs : List Char) : Except Problem (List Char) :=
  match skipSpace cs with
  | [] => .error .truncated
  | ':' :: rest => .ok rest
  | _ => .error .malformed

/-- A member whose opening quote has been read. -/
def readMember (value : Reader Json) : Reader (String × Json) := fun cs => do
  let (name, rest) ← readString cs
  let rest ← readColon rest
  let (v, rest) ← value rest
  return ((name, v), rest)

/-- The start of a member after a comma: its opening quote. -/
def readNextName (cs : List Char) : Except Problem (List Char) :=
  match skipSpace cs with
  | [] => .error .truncated
  | '"' :: rest => .ok rest
  | _ => .error .malformed

/-- The members after the first one, up to the closing brace, at most `fuel` of them. -/
def readMembers (value : Reader Json) : Nat → Reader (List (String × Json))
  | 0, _ => .error .truncated
  | fuel + 1, cs =>
    match skipSpace cs with
    | [] => .error .truncated
    | '\x7d' :: rest => .ok ([], rest)
    | ',' :: rest => do
      let (member, rest) ← readMember value (← readNextName rest)
      let (members, rest) ← readMembers value fuel rest
      return (member :: members, rest)
    | _ => .error .malformed

/-- The members of an object whose opening brace has been read. -/
def readObject (value : Reader Json) : Reader (List (String × Json)) := fun cs =>
  match skipSpace cs with
  | [] => .error .truncated
  | '\x7d' :: rest => .ok ([], rest)
  | '"' :: rest => do
    let (member, rest) ← readMember value rest
    let (members, rest) ← readMembers value (rest.length + 1) rest
    return (member :: members, rest)
  | _ => .error .malformed

/-- How deeply arrays and objects may be nested. -/
def maxDepth : Nat := 127

/-- A value within which at most `depth` levels of arrays and objects may be open. -/
def readValue (depth : Nat) : Reader Json := fun cs =>
  match skipSpace cs with
  | [] => .error .truncated
  | c :: rest =>
    if c == '[' then
      match depth with
      | 0 => .error .malformed
      | depth + 1 => do
        let (items, rest) ← readArray (readValue depth) rest
        return (.array items, rest)
    else if c == '\x7b' then
      match depth with
      | 0 => .error .malformed
      | depth + 1 => do
        let (members, rest) ← readObject (readValue depth) rest
        return (.object (membersOf members), rest)
    else readScalar c rest

/-- Nothing but white space may follow. -/
def readEnd (cs : List Char) : Except Problem Unit :=
  if (skipSpace cs).isEmpty then .ok () else .error .malformed

/-- Reads a text that is one value. -/
def parse (s : String) : Except Problem Json := do
  let (v, rest) ← readValue maxDepth s.toList
  readEnd rest
  return v

end Json

end SnapshotPreview
