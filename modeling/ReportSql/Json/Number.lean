import ReportSql.Decimal.Text

/-!
# Numbers of a document

A document holds integers that fit a signed or an unsigned 64-bit word, and doubles for every
other number. `Numeral.number?` decides which of the two a written numeral is.
-/

namespace ReportSql.Json

open ReportSql.Decimal

/-- An integer that a signed or an unsigned 64-bit word can hold: from `-2 ^ 63` to `2 ^ 64 - 1`. -/
structure Integer where
  value : Int
  lower : -9223372036854775808 ≤ value
  upper : value < 18446744073709551616
  deriving DecidableEq

namespace Integer

/-- The integer, when a word can hold it. -/
def ofInt? (n : Int) : Option Integer :=
  if h : -9223372036854775808 ≤ n ∧ n < 18446744073709551616 then some ⟨n, h.1, h.2⟩ else none

def ofInt64 (n : Int64) : Integer :=
  ⟨n.toInt, n.le_toInt, Int.lt_trans n.toInt_lt (by decide)⟩

def ofUInt64 (n : UInt64) : Integer :=
  ⟨n.toNat, by omega, by have := n.toNat_lt; omega⟩

/-- The signed word, when it holds the integer. -/
def toInt64? (n : Integer) : Option Int64 :=
  if n.value < 9223372036854775808 then some (Int64.ofInt n.value) else none

/-- The unsigned word, when it holds the integer. -/
def toUInt64? (n : Integer) : Option UInt64 :=
  if 0 ≤ n.value then some (UInt64.ofNat n.value.toNat) else none

end Integer

/-- A number of a document. -/
inductive Number where
  | integer (n : Integer)
  | real (x : Binary64)
  deriving DecidableEq

namespace Number

/-- The text of a number inside a document. -/
def text : Number → List Char
  | integer n => intText n.value
  | real x => documentStyle.write x

/-- The double nearest to the number. -/
def toDouble : Number → Double
  | integer n => .ofInt n.value
  | real x => .finite x

end Number

/-- The parts of a written number. -/
structure Numeral where
  negative : Bool
  whole : List Nat
  /-- The digits after the point, if there is one. -/
  fraction : Option (List Nat)
  /-- The sign and digits of the exponent, if there is one. -/
  exponent : Option (Bool × List Nat)
  deriving DecidableEq

namespace Numeral

/-- The number that decimal digits stand for. -/
def digitsValue (ds : List Nat) : Nat :=
  ds.foldl (fun n d => 10 * n + d) 0

/-- The leading digits that an unsigned word holds, read on from `n`, and how many are left. -/
def leading (n : Nat) : List Nat → Nat × Nat
  | [] => (n, 0)
  | d :: ds => if 10 * n + d < UInt64.size then leading (10 * n + d) ds else (n, ds.length + 1)

/-- The double nearest to `10 ^ k`, for `k` up to 308. -/
def power (k : Nat) : Binary64 :=
  (Double.ofInt (Nat.pow 10 k)).finite?.getD (.zero false)

/-- The number divided by `10 ^ k`, rounded. -/
def reduce (x : Binary64) (k : Nat) : Binary64 :=
  (Double.div x (power k)).finite?.getD (.zero x.negative)

/-- A significand times a power of ten, in doubles: the significand is rounded first, and then
once for each factor, of which none exceeds `10 ^ 308`. `none` when the result is out of range. -/
def scaled (negative : Bool) (significand : Nat) (exponent : Int) : Option Binary64 :=
  (Double.round negative significand 1).finite?.bind fun x =>
    if 308 < exponent then
      if x.isZero then some x else none
    else if 0 ≤ exponent then (Double.mul x (power exponent.toNat)).finite?
    else
      let n := (-exponent).toNat
      -- The significand fits a word, so that nothing is left of it after two full steps.
      match (n - 1) / 308 with
      | 0 => some (reduce x n)
      | 1 => some (reduce (reduce x 308) (n - 308))
      | _ => some (.zero negative)

/-- The number that a numeral stands for; `none` when it is out of range. Without point and
exponent it is an integer if a word can hold it, except that `-0` is the negative zero. -/
def number? (t : Numeral) : Option Number :=
  let n : Int := digitsValue t.whole
  let signed := if t.negative then -n else n
  match t.fraction, t.exponent with
  | none, none =>
    match Integer.ofInt? signed with
    | some i =>
      if t.negative && n == 0 then some (.real (.zero true)) else some (.integer i)
    | none =>
      let (significand, left) := leading 0 t.whole
      (scaled t.negative significand left).map .real
  | _, _ =>
    let (significand, left) := leading 0 t.whole
    let fraction := t.fraction.getD []
    let (significand', left') := leading significand fraction
    let used : Int := fraction.length - left'
    let mark : Int :=
      match t.exponent with
      | none => 0
      | some (false, ds) => digitsValue ds
      | some (true, ds) => -digitsValue ds
    (scaled t.negative significand' (left - used + mark)).map .real

end Numeral

end ReportSql.Json
