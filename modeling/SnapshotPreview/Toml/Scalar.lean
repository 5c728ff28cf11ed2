import SnapshotPreview.Toml.Strings
import SnapshotPreview.Toml.Value

/-!
# Reading numbers, dates and times

What stands for itself without quotes is made of words: a boolean, a number, a date or a time.
-/

namespace SnapshotPreview.Toml

/-- An ASCII digit. -/
def isDigit (c : Char) : Bool := '0' ≤ c && c ≤ '9'

/-- A digit of any base. -/
def isBasedDigit (c : Char) : Bool :=
  isDigit c || ('a' ≤ c && c ≤ 'f') || ('A' ≤ c && c ≤ 'F')

/-- Every underscore stands between two digits. The flag says whether the character before the text
is a digit. -/
def barsBetween (digit : Char → Bool) : Bool → List Char → Bool
  | _, [] => true
  | afterDigit, c :: rest =>
    if c = '_' then afterDigit && rest.head?.any digit && barsBetween digit false rest
    else barsBetween digit (digit c) rest

/-- The characters of a number without its underscores. -/
def withoutBars (cs : List Char) : List Char := cs.filter (· != '_')

/-- The sign of a number and what follows it. -/
def splitSign : List Char → Bool × List Char
  | '-' :: rest => (true, rest)
  | '+' :: rest => (false, rest)
  | rest => (false, rest)

/-! ## Whole numbers -/

/-- Digits of another base, of which there may be none. -/
def isBased (base : Nat) (digits : List Char) : Bool :=
  barsBetween isBasedDigit false digits &&
    (withoutBars digits).all fun c => (digitValue? base c).isSome

/-- Decimal digits without a needless zero at the start. What follows an underscore is part of the
number, be it digits or not, as long as there is no space. -/
def isDecimal (digits : List Char) : Bool :=
  let rest := digits.dropWhile isDigit
  digits.head?.any isDigit && (digits.head? != some '0' || digits.length == 1) &&
    (rest.isEmpty || rest.head? == some '_') && !rest.any (". eE".contains ·) &&
    barsBetween isBasedDigit false digits

/-- The number that digits write, if there are any. -/
def wholeOf? (base : Nat) (negative : Bool) (digits : List Char) : Option Int :=
  if digits.isEmpty then none
  else (numberOf? base (withoutBars digits)).map fun n => if negative then -Int.ofNat n else n

/-- A number that fits 128 bits, with or without a sign. -/
def fits (n : Int) : Bool := -Int.ofNat (Nat.pow 2 127) ≤ n && n < Int.ofNat (Nat.pow 2 128)

/-- The value of a whole number. -/
def wholeValue (base : Nat) (negative : Bool) (digits : List Char) : Value :=
  match (wholeOf? base negative digits).filter fits with
  | some n => .integer n
  | none => .unrepresentable

/-- A whole number. Only a decimal one can have a sign. -/
def integerOf? (word : List Char) : Option Value :=
  let based (base : Nat) (digits : List Char) : Option Value :=
    if isBased base digits then some (wholeValue base false digits) else none
  match word with
  | '0' :: 'x' :: digits => based 16 digits
  | '0' :: 'o' :: digits => based 8 digits
  | '0' :: 'b' :: digits => based 2 digits
  | word =>
    let (negative, digits) := splitSign word
    if isDecimal digits then some (wholeValue 10 negative digits) else none

/-! ## Numbers with a fraction or an exponent -/

/-- A digit, or the underscore that may stand between two of them. -/
def isDigitOrBar (c : Char) : Bool := isDigit c || c == '_'

/-- Decimal digits, of which there must be one at least, and what follows them. -/
def readDecimals (cs : List Char) : Option (List Char × List Char) :=
  let digits := cs.takeWhile isDigitOrBar
  if digits.any isDigit && barsBetween isDigit false digits then
    some (withoutBars digits, cs.dropWhile isDigitOrBar)
  else none

/-- The digits after the point, if there is one. -/
def readFraction : List Char → Option (List Char × List Char)
  | '.' :: rest => readDecimals rest
  | rest => some ([], rest)

/-- The exponent of ten, which is all that is left. -/
def exponentOf? : List Char → Option Int
  | [] => some 0
  | c :: rest =>
    if c == 'e' || c == 'E' then
      let (negative, rest) := splitSign rest
      match readDecimals rest with
      | some (digits, []) => wholeOf? 10 negative digits
      | _ => none
    else none

/-- The number nearest to one with a whole significand and a power of ten, unless it is too large.
Powers far out of range need not be computed. -/
def nearestPower? (negative : Bool) (significand : Nat) (exponent : Int) : Option Binary64 :=
  let size := exponent + (Nat.toDigits 10 significand).length
  if significand = 0 || size < -400 then Binary64.nearest? negative 0 1
  else if 400 < size then none
  else if 0 ≤ exponent then Binary64.nearest? negative (significand * Nat.pow 10 exponent.toNat) 1
  else Binary64.nearest? negative significand (Nat.pow 10 (-exponent).toNat)

/-- A number with a fraction or an exponent, or an infinity, or no number. -/
def realOf? (word : List Char) : Option Value := do
  let (negative, rest) := splitSign word
  if rest = ['i', 'n', 'f'] then return .real (.infinite negative)
  if rest = ['n', 'a', 'n'] then return .real .notANumber
  let (whole, rest) ← readDecimals rest
  if whole.head? = some '0' ∧ whole.length ≠ 1 then failure
  if rest.isEmpty then failure
  let (fraction, rest) ← readFraction rest
  let exponent ← exponentOf? rest
  let significand ← numberOf? 10 (whole ++ fraction)
  match nearestPower? negative significand (exponent - fraction.length) with
  | some x => return .real (.finite x)
  | none => return .unrepresentable

/-! ## Dates and times -/

/-- A number of so many digits. -/
def readDigits (count : Nat) : Reader Nat := fun cs =>
  if (cs.take count).length = count ∧ (cs.take count).all isDigit then
    (numberOf? 10 (cs.take count)).map (·, cs.drop count)
  else none

/-- A number of two digits within bounds. -/
def readPart (least greatest : Nat) : Reader Nat := fun cs =>
  (readDigits 2 cs).filter fun (n, _) => least ≤ n && n ≤ greatest

/-- One given character. -/
def readChar (expected : Char) : List Char → Option (List Char)
  | [] => none
  | c :: rest => if c = expected then some rest else none

/-- The number of days in a month. -/
def daysIn (year month : Nat) : Nat :=
  if month = 2 then
    if year % 4 = 0 ∧ (year % 100 ≠ 0 ∨ year % 400 = 0) then 29 else 28
  else if month ∈ [4, 6, 9, 11] then 30
  else 31

/-- The text after a date. -/
def afterDate? (cs : List Char) : Option (List Char) := do
  let (year, rest) ← readDigits 4 cs
  let (month, rest) ← readPart 1 12 (← readChar '-' rest)
  let (_, rest) ← readPart 1 (daysIn year month) (← readChar '-' rest)
  return rest

/-- The text after a fraction of a second, if there is one. -/
def afterFraction? : List Char → Option (List Char)
  | '.' :: rest =>
    if (rest.takeWhile isDigit).isEmpty then none else some (rest.dropWhile isDigit)
  | rest => some rest

/-- The text after a time of day. The seconds may be missing, and a minute may have a leap
second. -/
def afterTime? (cs : List Char) : Option (List Char) := do
  let (_, rest) ← readPart 0 23 cs
  let (_, rest) ← readPart 0 59 (← readChar ':' rest)
  match rest with
  | ':' :: rest =>
    let (_, rest) ← readPart 0 60 rest
    afterFraction? rest
  | rest => return rest

/-- The text is the offset of a time zone, or nothing. -/
def isOffset : List Char → Bool
  | [] => true
  | ['Z'] | ['z'] => true
  | sign :: rest =>
    (sign == '+' || sign == '-') &&
      (do
        let (_, rest) ← readPart 0 23 rest
        let (_, rest) ← readPart 0 59 (← readChar ':' rest)
        return rest) == some []

/-- The text is a date, a time of day, or both with or without an offset. -/
def isMoment (word : List Char) : Bool :=
  match afterDate? word with
  | some [] => true
  | some (c :: rest) =>
    (c == 'T' || c == 't' || c == ' ') && ((afterTime? rest).map isOffset == some true)
  | none => afterTime? word == some []

/-! ## Words -/

/-- A character of a word: all but those that part the words of a document. -/
def isWordChar (c : Char) : Bool := !" \t\n\r#,[]\x7b\x7d=\"\x27".contains c

/-- The value of words. A date and a time can be two. -/
def scalarOf? (word : List Char) : Option Value :=
  if word = "true".toList then some (.boolean true)
  else if word = "false".toList then some (.boolean false)
  else
    ((integerOf? word).or (realOf? word)).or
      (if isMoment word then some (.moment (String.ofList word)) else none)

/-- The words at the start of the text, with the blanks between them, and what follows the blanks
after them. Together they are one value. -/
def readWords (cs : List Char) : List Char × List Char :=
  let isPart (c : Char) : Bool := isWordChar c || isBlank c
  (((cs.takeWhile isPart).reverse.dropWhile isBlank).reverse, cs.dropWhile isPart)

/-- A value that is written without quotes. -/
def readScalar : Reader Value := fun cs =>
  let (words, rest) := readWords cs
  (scalarOf? words).map (·, rest)

end SnapshotPreview.Toml
