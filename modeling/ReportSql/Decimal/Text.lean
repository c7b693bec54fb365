import ReportSql.Decimal.Shortest

/-!
# Numbers as text

Integers are written with plain decimal digits. A double is written with its shortest digits,
positionally while the decimal point stays close to them and with an exponent otherwise; the two
styles in use differ only in the sign of a positive exponent.
-/

namespace ReportSql.Decimal

/-- The decimal digits of a natural number. -/
def natText (n : Nat) : List Char :=
  Nat.toDigits 10 n

/-- The decimal digits of an integer, after a minus sign if it is negative. -/
def intText (n : Int) : List Char :=
  if n < 0 then '-' :: natText n.natAbs else natText n.natAbs

/-- The decisions that a text form of doubles takes beyond the choice of digits. -/
structure Style where
  /-- Is a positive exponent written with its sign? -/
  plusSign : Bool
  /-- The decimal point may stand after as many digits. -/
  lastPositional : Int
  /-- The decimal point may stand before as many zeros. -/
  leadingZeros : Int
  deriving DecidableEq

/-- Numbers inside a statement: `1e16`, `0.00001`. -/
def statementStyle : Style :=
  ⟨false, 16, 4⟩

/-- Numbers inside a document: `1e+16`, `0.00001`. -/
def documentStyle : Style :=
  ⟨true, 16, 4⟩

namespace Style

/-- The exponent part, with its mark. -/
def exponentText (style : Style) (e : Int) : List Char :=
  'e' :: (if style.plusSign && decide (0 ≤ e) then '+' :: intText e else intText e)

/-- Lays out the digits `ds` of a number `0.ds * 10 ^ point`. -/
def layout (style : Style) (ds : List Char) (point : Int) : List Char :=
  if 0 < point ∧ point ≤ style.lastPositional then
    let n := point.toNat
    if ds.length ≤ n then ds ++ List.replicate (n - ds.length) '0' ++ ['.', '0']
    else ds.take n ++ '.' :: ds.drop n
  else if -style.leadingZeros ≤ point ∧ point ≤ 0 then
    '0' :: '.' :: List.replicate (-point).toNat '0' ++ ds
  else
    match ds with
    | [] => []
    | [d] => d :: style.exponentText (point - 1)
    | d :: more => d :: '.' :: more ++ style.exponentText (point - 1)

/-- The text of a finite number. -/
def write (style : Style) (x : Binary64) : List Char :=
  let d := shortest x
  let ds := natText d.digits
  let body :=
    if x.isZero then ['0', '.', '0'] else style.layout ds (ds.length + d.scale)
  if x.negative then '-' :: body else body

end Style

end ReportSql.Decimal
