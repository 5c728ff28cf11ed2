import SnapshotPreview.Decimal.Shortest
import SnapshotPreview.Json.Basic

/-!
# JSON values as text

The compact form without white space, and the indented form with one member or item a line.
-/

namespace SnapshotPreview

/-- When a decimal is written with a point only: the number of its digits before the point is
above the first bound and at most the second. -/
structure PointStyle where
  above : Int
  upTo : Int

/-- Numbers from `1e-5` on and below `1e16` are written without an exponent. -/
def JsonNumber.pointStyle : PointStyle := ⟨-5, 16⟩

/-- The digits of a whole number. -/
def decimalDigits (n : Nat) : List Char := Nat.toDigits 10 n

/-- The text of a positive decimal: with a point and at least one digit after it, or with an
exponent that carries its sign. -/
def Binary64.Decimal.text (style : PointStyle) (d : Binary64.Decimal) : List Char :=
  let digits := decimalDigits d.digits
  let before : Int := digits.length + d.exponent
  if style.above < before && before ≤ style.upTo then
    if 0 ≤ d.exponent then digits ++ List.replicate d.exponent.toNat '0' ++ ['.', '0']
    else if 0 < before then digits.take before.toNat ++ '.' :: digits.drop before.toNat
    else '0' :: '.' :: List.replicate (-before).toNat '0' ++ digits
  else
    let exponent := before - 1
    let sign := if exponent < 0 then '-' else '+'
    let mantissa :=
      match digits with
      | first :: second :: rest => first :: '.' :: second :: rest
      | digits => digits
    mantissa ++ 'e' :: sign :: decimalDigits exponent.natAbs

namespace JsonNumber

/-- The text of a number. -/
def text : JsonNumber → String
  | whole n => toString n
  | float x =>
    let digits := if x.mantissa = 0 then ['0', '.', '0'] else x.shortest.text pointStyle
    String.ofList (if x.negative then '-' :: digits else digits)

end JsonNumber

namespace Json

/-- A hexadecimal digit in lower case. -/
def hexDigit (n : Nat) : Char := Nat.digitChar n

/-- A character as it stands within a JSON string. -/
def escapeChar (c : Char) : List Char :=
  if c == '"' then ['\\', '"']
  else if c == '\\' then ['\\', '\\']
  else if c == '\x08' then ['\\', 'b']
  else if c == '\x0c' then ['\\', 'f']
  else if c == '\n' then ['\\', 'n']
  else if c == '\r' then ['\\', 'r']
  else if c == '\t' then ['\\', 't']
  else if c.toNat < 0x20 then
    ['\\', 'u', '0', '0', hexDigit (c.toNat / 16), hexDigit (c.toNat % 16)]
  else [c]

/-- A string with its quotes. -/
def quote (s : String) : String :=
  "\"" ++ String.ofList (s.toList.flatMap escapeChar) ++ "\""

mutual

/-- The text of a value without any white space. -/
def compact : Json → String
  | null => "null"
  | bool b => if b then "true" else "false"
  | number n => n.text
  | string s => quote s
  | array items => "[" ++ String.intercalate "," (compactItems items) ++ "]"
  | object members => "\x7b" ++ String.intercalate "," (compactMembers members) ++ "\x7d"

/-- The texts of the items of an array. -/
def compactItems : List Json → List String
  | [] => []
  | v :: rest => compact v :: compactItems rest

/-- The texts of the members of an object. -/
def compactMembers : List (String × Json) → List String
  | [] => []
  | (name, v) :: rest => (quote name ++ ":" ++ compact v) :: compactMembers rest

end

/-- A value as plain text: strings as they are, anything else in the compact form. -/
def plainText : Json → String
  | string s => s
  | v => v.compact

/-- The start of a line at a depth of nesting. -/
def newLine (depth : Nat) : String := "\n" ++ String.ofList (List.replicate (2 * depth) ' ')

/-- Parts between brackets, each on a line of its own, one level below the brackets. -/
def block (opening closing : String) (depth : Nat) (parts : List String) : String :=
  if parts.isEmpty then opening ++ closing
  else
    opening ++ newLine (depth + 1) ++ String.intercalate ("," ++ newLine (depth + 1)) parts ++
      newLine depth ++ closing

mutual

/-- The text of a value at a depth of nesting, indented by two spaces a level. -/
def prettyAt (depth : Nat) : Json → String
  | null => "null"
  | bool b => if b then "true" else "false"
  | number n => n.text
  | string s => quote s
  | array items => block "[" "]" depth (prettyItems (depth + 1) items)
  | object members => block "\x7b" "\x7d" depth (prettyMembers (depth + 1) members)

/-- The texts of the items of an array. -/
def prettyItems (depth : Nat) : List Json → List String
  | [] => []
  | v :: rest => prettyAt depth v :: prettyItems depth rest

/-- The texts of the members of an object. -/
def prettyMembers (depth : Nat) : List (String × Json) → List String
  | [] => []
  | (name, v) :: rest => (quote name ++ ": " ++ prettyAt depth v) :: prettyMembers depth rest

end

/-- The text of a value over several lines. -/
def pretty (v : Json) : String := prettyAt 0 v

end Json

end SnapshotPreview
