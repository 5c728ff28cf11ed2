import SnapshotPreview.Json.Parser

/-!
# Skipping a JSON value

Passing over a value that nobody asked for. Less is checked than when reading it: numbers have no
range, halves of surrogate pairs may stand alone, and there is no limit to nesting.
-/

namespace SnapshotPreview

namespace Json

/-- What follows a backslash. -/
def skipEscape : List Char → Except Problem (List Char)
  | [] => .error .truncated
  | c :: rest =>
    if c == 'u' then do
      let (_, rest) ← readHex rest
      return rest
    else if (shortEscape? c).isSome then .ok rest
    else .error .malformed

/-- A string whose opening quote has been passed, in at most `fuel` steps. -/
def skipChars (fuel : Nat) (cs : List Char) : Except Problem (List Char) :=
  match fuel, cs with
  | 0, _ | _, [] => .error .truncated
  | fuel + 1, c :: rest =>
    if c == '"' then .ok rest
    else if c == '\\' then do skipChars fuel (← skipEscape rest)
    else if c.toNat < 0x20 then .error .malformed
    else skipChars fuel rest

/-- A string whose opening quote has been passed. -/
def skipString (cs : List Char) : Except Problem (List Char) := skipChars cs.length cs

/-- At least one digit. -/
def skipDigits (cs : List Char) : Except Problem (List Char) :=
  if cs.head?.any isDigit then .ok (cs.dropWhile isDigit) else .error .malformed

/-- The exponent, if there is one. -/
def skipExponent (cs : List Char) : Except Problem (List Char) :=
  if exponentLetter cs then
    match cs.tail with
    | '+' :: rest | '-' :: rest => skipDigits rest
    | rest => skipDigits rest
  else .ok cs

/-- A number after its sign. Where digits are missing it is malformed, even at the end. -/
def skipUnsigned (cs : List Char) : Except Problem (List Char) := do
  let rest ←
    match cs with
    | '0' :: rest => if rest.head?.any isDigit then .error .malformed else .ok rest
    | cs => skipDigits cs
  let rest ←
    match rest with
    | '.' :: rest => skipDigits rest
    | rest => .ok rest
  skipExponent rest

/-- A value that holds no other values and begins with the given character. -/
def skipScalar (c : Char) (rest : List Char) : Except Problem (List Char) :=
  if c == 'n' then readWord ['u', 'l', 'l'] rest
  else if c == 't' then readWord ['r', 'u', 'e'] rest
  else if c == 'f' then readWord ['a', 'l', 's', 'e'] rest
  else if c == '-' then skipUnsigned rest
  else if isDigit c then skipUnsigned (c :: rest)
  else if c == '"' then skipString rest
  else .error .malformed

/-- The name of a member and its colon. -/
def skipName (cs : List Char) : Except Problem (List Char) := do
  readColon (← skipString (← readNextName cs))

/-- The parts of an array or object after the first, up to its closing bracket. `item` passes over
one part. After a comma a part must follow. -/
def skipMore (closing : Char) (item : List Char → Except Problem (List Char)) :
    Nat → List Char → Except Problem (List Char)
  | 0, _ => .error .truncated
  | fuel + 1, cs =>
    match skipSpace cs with
    | [] => .error .truncated
    | c :: rest =>
      if c = closing then .ok rest
      else if c = ',' then do skipMore closing item fuel (← item rest)
      else .error .malformed

/-- The parts of an array or object whose opening bracket has been passed. -/
def skipParts (closing : Char) (item : List Char → Except Problem (List Char)) (cs : List Char) :
    Except Problem (List Char) :=
  match skipSpace cs with
  | [] => .error .truncated
  | c :: rest =>
    if c = closing then .ok rest
    else do
      let rest ← item (c :: rest)
      skipMore closing item (rest.length + 1) rest

/-- A value within which at most `depth` levels of arrays and objects may be open. -/
def skipWithin (depth : Nat) (cs : List Char) : Except Problem (List Char) :=
  match depth, skipSpace cs with
  | 0, _ | _, [] => .error .truncated
  | depth + 1, c :: rest =>
    if c == '[' then skipParts ']' (skipWithin depth) rest
    else if c == '\x7b' then
      skipParts '\x7d' (fun cs => do skipWithin depth (← skipName cs)) rest
    else skipScalar c rest

/-- A value. A text has no more levels than characters. -/
def skipValue (cs : List Char) : Except Problem (List Char) := skipWithin (cs.length + 1) cs

end Json

end SnapshotPreview
