/-!
# Double precision numbers

A finite binary64 number is kept as a sign, a significand and a binary exponent, so that every
operation below is exact arithmetic on naturals followed by one rounding. `Double.round` is that
rounding: to nearest, halves to the even significand, beyond the range to an infinity.
-/

namespace ReportSql.Decimal

/-- The leading bit of a significand of full precision, `2 ^ 52`. -/
abbrev leadingBit : Nat :=
  4503599627370496

/-- The pairs that stand for a finite number: each magnitude has exactly one of them. -/
def Canonical (significand : Nat) (exponent : Int) : Prop :=
  significand < 2 * leadingBit ∧ -1074 ≤ exponent ∧ exponent ≤ 971 ∧
    (leadingBit ≤ significand ∨ exponent = -1074)

instance (m : Nat) (e : Int) : Decidable (Canonical m e) :=
  inferInstanceAs (Decidable (_ ∧ _))

/-- A finite binary64 number, `± significand * 2 ^ exponent`. -/
structure Binary64 where
  negative : Bool
  significand : Nat
  exponent : Int
  canonical : Canonical significand exponent
  deriving DecidableEq

/-- Any binary64 number. -/
inductive Double where
  | finite (x : Binary64)
  | infinite (negative : Bool)
  | nan
  deriving DecidableEq

namespace Binary64

/-- The zero of the given sign. -/
def zero (negative : Bool) : Binary64 :=
  ⟨negative, 0, -1074, by decide⟩

instance : Inhabited Binary64 := ⟨zero false⟩

/-- The magnitude is `numerator / denominator`. -/
def numerator (x : Binary64) : Nat :=
  x.significand * Nat.pow 2 x.exponent.toNat

def denominator (x : Binary64) : Nat :=
  Nat.pow 2 (-x.exponent).toNat

def isZero (x : Binary64) : Bool :=
  x.significand == 0

end Binary64

/-- The quotient rounded to the nearest natural, a half to the even one. -/
def roundHalfEven (num den : Nat) : Nat :=
  let q := num / den
  let r := num % den
  if 2 * r < den then q
  else if den < 2 * r then q + 1
  else q + q % 2

/-- The binary exponent of a positive quotient: `2 ^ e ≤ num / den < 2 ^ (e + 1)`. -/
def binaryScale (num den : Nat) : Int :=
  let e : Int := (Nat.log2 num : Int) - (Nat.log2 den : Int)
  if den * Nat.pow 2 e.toNat ≤ num * Nat.pow 2 (-e).toNat then e else e - 1

namespace Double

/-- The double nearest to `± num / den`, for a positive denominator. -/
def round (negative : Bool) (num den : Nat) : Double :=
  if num = 0 then .finite (.zero negative)
  else
    let e := max (binaryScale num den - 52) (-1074)
    let m := roundHalfEven (num * Nat.pow 2 (-e).toNat) (den * Nat.pow 2 e.toNat)
    let carried : Nat × Int := if m = 2 * leadingBit then (leadingBit, e + 1) else (m, e)
    if h : Canonical carried.1 carried.2 then .finite ⟨negative, carried.1, carried.2, h⟩
    else .infinite negative

/-- The double nearest to an integer. -/
def ofInt (n : Int) : Double :=
  round (decide (n < 0)) n.natAbs 1

/-- Product of two finite numbers, rounded once. -/
def mul (x y : Binary64) : Double :=
  round (x.negative != y.negative) (x.numerator * y.numerator) (x.denominator * y.denominator)

/-- Quotient of two finite numbers, rounded once; by zero it is an infinity or no number. -/
def div (x y : Binary64) : Double :=
  let negative := x.negative != y.negative
  if y.isZero then
    if x.isZero then .nan else .infinite negative
  else round negative (x.numerator * y.denominator) (x.denominator * y.numerator)

/-- The number itself when it is finite. -/
def finite? : Double → Option Binary64
  | .finite x => some x
  | .infinite _ => none
  | .nan => none

end Double

end ReportSql.Decimal
