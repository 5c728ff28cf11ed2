import SnapshotPreview.Decimal.Binary64

/-!
# The fewest digits that read back

The shortest decimal that is nearer to a binary number than to any other, and of those the one
nearest to it.
-/

namespace SnapshotPreview

namespace Binary64

/-- The open interval around a positive number of all quotients that round to it, over a common
denominator: the lower end, the number itself, the upper end and the denominator. -/
structure Interval where
  low : Nat
  mid : Nat
  high : Nat
  den : Nat
  /-- Whether the ends belong to it, too. -/
  closed : Bool

/-- The quotients that round to a positive number. Below a power of two they lie closer. -/
def interval (x : Binary64) : Interval :=
  let narrow := x.mantissa = Nat.pow 2 52 && x.exponent != minExponent
  let shift := x.exponent - 2
  let up := if 0 ≤ shift then Nat.pow 2 shift.toNat else 1
  { low := (4 * x.mantissa - if narrow then 1 else 2) * up
    mid := 4 * x.mantissa * up
    high := (4 * x.mantissa + 2) * up
    den := if 0 ≤ shift then 1 else Nat.pow 2 (-shift).toNat
    closed := x.mantissa % 2 == 0 }

/-- Whether a quotient lies in the interval. -/
def Interval.contains (i : Interval) (num den : Nat) : Bool :=
  if i.closed then i.low * den ≤ num * i.den && num * i.den ≤ i.high * den
  else i.low * den < num * i.den && num * i.den < i.high * den

/-- A decimal: the number `digits * 10 ^ exponent`. -/
structure Decimal where
  digits : Nat
  exponent : Int
deriving DecidableEq, Repr

/-- A decimal as a quotient. -/
def Decimal.toQuotient (d : Decimal) : Nat × Nat :=
  if 0 ≤ d.exponent then (d.digits * Nat.pow 10 d.exponent.toNat, 1)
  else (d.digits, Nat.pow 10 (-d.exponent).toNat)

/-- The multiples of a power of ten next to the number on both sides that lie in the interval, the
nearer one first. -/
def candidate? (i : Interval) (exponent : Int) : Option Decimal :=
  let (num, den) :=
    if 0 ≤ exponent then (i.mid, i.den * Nat.pow 10 exponent.toNat)
    else (i.mid * Nat.pow 10 (-exponent).toNat, i.den)
  let below : Decimal := ⟨num / den, exponent⟩
  let above : Decimal := ⟨num / den + 1, exponent⟩
  let nearBelow := 2 * (num % den) < den || (2 * (num % den) == den && below.digits % 2 == 0)
  (if nearBelow then [below, above] else [above, below]).find? fun d =>
    d.digits != 0 && i.contains d.toQuotient.1 d.toQuotient.2

/-- An exponent of ten that is not below the number of digits before the point. -/
def magnitude (x : Binary64) : Int :=
  let bits : Int := (x.mantissa.log2 : Int) + x.exponent + 1
  bits * 30103 / 100000 + 1

/-- Takes zeros off the end of the digits. -/
def Decimal.trim : Nat → Decimal → Decimal
  | 0, d => d
  | n + 1, d =>
    if d.digits % 10 == 0 then Decimal.trim n ⟨d.digits / 10, d.exponent + 1⟩ else d

/-- The shortest decimal for a positive number: the first power of ten, from the greatest, with a
multiple in the interval. Eighteen steps reach seventeen digits, which always suffice. -/
def shortest (x : Binary64) : Decimal :=
  let i := x.interval
  let top := x.magnitude
  let exponents := (List.range 20).map fun n : Nat => top - (n : Int)
  Decimal.trim 20 ((exponents.findSome? (candidate? i)).getD ⟨0, 0⟩)

end Binary64

end SnapshotPreview
