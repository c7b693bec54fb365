import ReportSql.Decimal.Binary64

/-!
# The fewest digits that identify a double

`shortest x` is a decimal among the reals that round to `x`, with as few digits as any of them
has, and of those the nearest to `x` (an exact tie goes to the even digit).
-/

namespace ReportSql.Decimal

/-- A decimal number `digits * 10 ^ scale`. -/
structure Digits where
  digits : Nat
  scale : Int
  deriving DecidableEq

namespace Binary64

/-- Is the gap below the number half the gap above it? -/
def narrowBelow (x : Binary64) : Bool :=
  x.significand == leadingBit && decide (-1074 < x.exponent)

/-- Compares `a * 10 ^ i` with `n * 2 ^ j`, exactly. -/
def compareScaled (a : Nat) (i : Int) (n : Nat) (j : Int) : Ordering :=
  compare (a * Nat.pow 10 i.toNat * Nat.pow 2 (-j).toNat)
    (n * Nat.pow 2 j.toNat * Nat.pow 10 (-i).toNat)

/-- Does the decimal lie among the reals that round to the magnitude of `x`? The ends of that
interval belong to it exactly when the significand is even. -/
def readsBack (x : Binary64) (d : Digits) : Bool :=
  let low := if x.narrowBelow then 4 * x.significand - 1 else 4 * x.significand - 2
  let high := 4 * x.significand + 2
  let ends := x.significand % 2 == 0
  let below := compareScaled d.digits d.scale low (x.exponent - 2)
  let above := compareScaled d.digits d.scale high (x.exponent - 2)
  (below == .gt || (ends && below == .eq)) && (above == .lt || (ends && above == .eq))

/-- The least `k` with magnitude below `10 ^ k`, for a nonzero number. The binary logarithm gives
a lower bound that is short by at most two. -/
def decimalScale (x : Binary64) : Int :=
  let bits : Int := (Nat.log2 x.significand : Int) + x.exponent
  let guess := bits * 1233 / 4096
  let isAbove (k : Int) : Bool := compareScaled 1 k x.significand x.exponent == .gt
  if isAbove (guess - 1) then guess - 1
  else if isAbove guess then guess
  else if isAbove (guess + 1) then guess + 1
  else guess + 2

/-- The neighbour of the magnitude on the grid of `n` digits that reads back, if one does. -/
def onGrid (x : Binary64) (k : Int) (n : Nat) : Option Digits :=
  let s := k - n
  let num := x.numerator * Nat.pow 10 (-s).toNat
  let den := x.denominator * Nat.pow 10 s.toNat
  let low := num / den
  let lowHit := x.readsBack ⟨low, s⟩
  let highHit := x.readsBack ⟨low + 1, s⟩
  if lowHit && highHit then
    let rest := num % den
    if 2 * rest < den || (2 * rest == den && low % 2 == 0) then some ⟨low, s⟩
    else some ⟨low + 1, s⟩
  else if lowHit then some ⟨low, s⟩
  else if highHit then some ⟨low + 1, s⟩
  else none

end Binary64

/-- Moves trailing zeros of the digits into the scale. A decimal of `n` digits has at most `n`. -/
def Digits.strip : Nat → Digits → Digits
  | 0, d => d
  | fuel + 1, d =>
    if d.digits ≠ 0 ∧ d.digits % 10 = 0 then strip fuel ⟨d.digits / 10, d.scale + 1⟩ else d

/-- The exact decimal value of the magnitude. -/
def Binary64.exactDigits (x : Binary64) : Digits :=
  ⟨x.numerator * Nat.pow 5 (-x.exponent).toNat, min x.exponent 0⟩

/-- Is the double nearest to the decimal finite? All below `10 ^ 308` are, and none is from
`10 ^ 309` on; between the two the rounding decides. -/
def Digits.isFinite (d : Digits) : Bool :=
  let size : Int := (Nat.toDigits 10 d.digits).length + d.scale
  if d.digits = 0 ∨ size ≤ 308 then true
  else if 309 < size then false
  else
    (Double.round false (d.digits * Nat.pow 10 d.scale.toNat)
      (Nat.pow 10 (-d.scale).toNat)).finite?.isSome

/-- The fewest digits that read back to the magnitude of `x`. Seventeen always suffice. -/
def shortest (x : Binary64) : Digits :=
  if x.isZero then ⟨0, 0⟩
  else
    let k := x.decimalScale
    match (List.range 17).findSome? (fun n => x.onGrid k (n + 1)) with
    | some d => d.strip 17
    | none => x.exactDigits

end ReportSql.Decimal
