/-!
# Binary floating point numbers, exactly

The finite numbers of the 64 bit binary format as a sign, a mantissa and a power of two, with
rounding to the nearest of them in whole number arithmetic.
-/

namespace SnapshotPreview

/-- The number `mantissa * 2 ^ exponent`, or its negative. The mantissa has 53 bits, or fewer when
the exponent is the least one. -/
structure Binary64 where
  negative : Bool
  mantissa : Nat
  exponent : Int
deriving DecidableEq, Repr

namespace Binary64

/-- The least exponent. -/
def minExponent : Int := -1074

/-- The greatest exponent. -/
def maxExponent : Int := 971

/-- The quotient rounded to the nearest whole number, and to the even one of two. -/
def roundQuotient (num den : Nat) : Nat :=
  let q := num / den
  let twice := 2 * (num % den)
  if twice < den || (twice == den && q % 2 == 0) then q else q + 1

/-- The quotient of two numbers after division by a power of two, as a quotient again. -/
def scale (num den : Nat) (exponent : Int) : Nat × Nat :=
  if 0 ≤ exponent then (num, den * Nat.pow 2 exponent.toNat)
  else (num * Nat.pow 2 (-exponent).toNat, den)

/-- The exponent with which a positive quotient has a mantissa of 53 bits before rounding, but at
least the least exponent. -/
def exponentOf (num den : Nat) : Int :=
  let guess : Int := (num.log2 : Int) - den.log2 - 52
  let (n, d) := scale num den guess
  max (if n < d * Nat.pow 2 52 then guess - 1 else guess) minExponent

/-- The number nearest to a quotient, the even one of two. There is none beyond the greatest. -/
def nearest? (negative : Bool) (num den : Nat) : Option Binary64 :=
  if num = 0 then some { negative, mantissa := 0, exponent := minExponent }
  else
    let exponent := exponentOf num den
    let (n, d) := scale num den exponent
    let rounded := roundQuotient n d
    let (mantissa, exponent) :=
      if rounded = Nat.pow 2 53 then (Nat.pow 2 52, exponent + 1) else (rounded, exponent)
    if exponent ≤ maxExponent then some { negative, mantissa, exponent } else none

/-- The absolute value as a quotient. -/
def toQuotient (x : Binary64) : Nat × Nat :=
  if 0 ≤ x.exponent then (x.mantissa * Nat.pow 2 x.exponent.toNat, 1)
  else (x.mantissa, Nat.pow 2 (-x.exponent).toNat)

/-- The rounded product of the absolute value with a quotient. -/
def scaleBy? (x factor : Binary64) (inverse : Bool) : Option Binary64 :=
  let (n, d) := x.toQuotient
  let (fn, fd) := factor.toQuotient
  if inverse then nearest? x.negative (n * fd) (d * fn) else nearest? x.negative (n * fn) (d * fd)

/-- The number nearest to a power of ten. -/
def powerOfTen? (n : Nat) : Option Binary64 := nearest? false (Nat.pow 10 n) 1

/-- The greatest power of ten among the numbers is `10 ^ 308`. -/
def maxPower : Nat := 308

/-- A number times, or divided by, a power of ten among the numbers. -/
def scaleByPower? (x : Binary64) (power : Nat) (inverse : Bool) : Option Binary64 :=
  if power ≤ maxPower then (powerOfTen? power).bind fun p => x.scaleBy? p inverse else none

/-- A number divided by the greatest power of ten, so many times. Zero stays zero. -/
def divideByGreatest? : Nat → Binary64 → Option Binary64
  | 0, x => some x
  | n + 1, x =>
    if x.mantissa = 0 then some x
    else (x.scaleByPower? maxPower true).bind (divideByGreatest? n)

/-- A number times a power of ten, rounded after each step: one multiplication, or divisions by at
most the greatest power of ten each. -/
def timesPower? (x : Binary64) (exponent : Int) : Option Binary64 :=
  if x.mantissa = 0 then some x
  else if 0 ≤ exponent then x.scaleByPower? exponent.toNat false
  else
    let places := (-exponent).toNat
    let steps := (places - 1) / maxPower
    (divideByGreatest? steps x).bind fun y => y.scaleByPower? (places - steps * maxPower) true

/-- The number written with a whole significand and a power of ten. -/
def ofParts? (negative : Bool) (significand : Nat) (exponent : Int) : Option Binary64 :=
  (nearest? negative significand 1).bind fun x => x.timesPower? exponent

end Binary64

end SnapshotPreview
