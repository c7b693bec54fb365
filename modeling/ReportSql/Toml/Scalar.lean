import ReportSql.Toml.Lexical
import ReportSql.Time.Calendar

/-!
# Unquoted values of settings documents

Truth values, integers, floating point numbers, dates and times of TOML. Only integers and truth
values are kept; the others are known to be well formed. A number that is too large is a fault for
whoever meets it.
-/

namespace ReportSql.Toml

open ReportSql.Decimal (Digits)
open ReportSql.Json (Tree Integer digitValue hexValue?)

/-- The digits of a number; an underscore may stand between two of them. -/
def digits? (value? : Char → Option Nat) : List Char → Option (List Nat)
  | [] => none
  | [c] => (value? c).map ([·])
  | c :: '_' :: s => do
    let d ← value? c
    let ds ← digits? value? s
    some (d :: ds)
  | c :: s => do
    let d ← value? c
    let ds ← digits? value? s
    some (d :: ds)

/-- The value of a digit in a base up to sixteen. -/
def digitIn? (base : Nat) (c : Char) : Option Nat :=
  (hexValue? c).filter fun d => decide (d < base)

/-- The number that digits stand for in a base. -/
def valueIn (base : Nat) (ds : List Nat) : Nat :=
  ds.foldl (fun n d => base * n + d) 0

/-- A text without its sign, and whether that is a minus sign. -/
def splitSign : List Char → Bool × List Char
  | '-' :: s => (true, s)
  | '+' :: s => (false, s)
  | s => (false, s)

/-- The digits before a point: a zero alone, or digits that start with another one. -/
def wholeDigits? (s : List Char) : Option (List Nat) :=
  (digits? (digitIn? 10) s).filter fun ds => ds.length == 1 || ds.head? != some 0

/-- The integer that a text stands for. -/
def integer? : List Char → Option Int
  | '0' :: 'x' :: s => (digits? (digitIn? 16) s).map fun ds => (valueIn 16 ds : Int)
  | '0' :: 'o' :: s => (digits? (digitIn? 8) s).map fun ds => (valueIn 8 ds : Int)
  | '0' :: 'b' :: s => (digits? (digitIn? 2) s).map fun ds => (valueIn 2 ds : Int)
  | s =>
    let (negative, s) := splitSign s
    (wholeDigits? s).map fun ds =>
      if negative then -(valueIn 10 ds : Int) else (valueIn 10 ds : Int)

def isExponentMark (c : Char) : Bool :=
  c == 'e' || c == 'E'

/-- The exponent that a text with a mark of one stands for. -/
def exponent? : List Char → Option Int
  | [] => none
  | c :: s => do
    if !isExponentMark c then none
    else
      let (negative, s) := splitSign s
      let ds ← digits? (digitIn? 10) s
      some (if negative then -(valueIn 10 ds : Int) else (valueIn 10 ds : Int))

/-- A decimal number with the digits of the whole and of the fraction and an exponent. -/
def decimal (whole fraction : List Nat) (exponent : Int) : Digits :=
  ⟨valueIn 10 (whole ++ fraction), exponent - fraction.length⟩

/-- The magnitude of a decimal number with a point, an exponent, or both. -/
def magnitude? (s : List Char) : Option Digits := do
  let isDigitPart (c : Char) : Bool := c.isDigit || c == '_'
  let whole ← wholeDigits? (s.takeWhile isDigitPart)
  match s.dropWhile isDigitPart with
  | '.' :: s => do
    let fraction ← digits? (digitIn? 10) (s.takeWhile isDigitPart)
    match s.dropWhile isDigitPart with
    | [] => some (decimal whole fraction 0)
    | s => (exponent? s).map (decimal whole fraction)
  | s => (exponent? s).map (decimal whole [])

/-- Is the text an infinity or no number, without a sign? -/
def isUnlimited (s : List Char) : Bool :=
  s == ['i', 'n', 'f'] || s == ['n', 'a', 'n']

/-! ## Dates and times -/

/-- The number of a fixed count of digits at the start of a text. -/
def fixedDigits? (count : Nat) (s : List Char) : Option (Nat × List Char) :=
  let cs := s.take count
  if cs.length == count && cs.all Char.isDigit then
    some (valueIn 10 (cs.map digitValue), s.drop count)
  else none

/-- The text behind a date. -/
def date? (s : List Char) : Option (List Char) := do
  let (year, s) ← fixedDigits? 4 s
  match s with
  | '-' :: s => do
    let (month, s) ← fixedDigits? 2 s
    match s with
    | '-' :: s => do
      let (day, s) ← fixedDigits? 2 s
      if (⟨year, month, day⟩ : Time.Date).Valid then some s else none
    | _ => none
  | _ => none

/-- The text behind hours and minutes. -/
def clock? (s : List Char) : Option (List Char) := do
  let (hour, s) ← fixedDigits? 2 s
  match s with
  | ':' :: s => do
    let (minute, s) ← fixedDigits? 2 s
    if hour ≤ 23 ∧ minute ≤ 59 then some s else none
  | _ => none

/-- The text behind a time of day, its seconds and their fraction included if they are given. -/
def time? (s : List Char) : Option (List Char) := do
  match (← clock? s) with
  | ':' :: s => do
    let (second, s) ← fixedDigits? 2 s
    if 60 < second then none
    else
      match s with
      | '.' :: s =>
        if (s.takeWhile Char.isDigit).isEmpty then none else some (s.dropWhile Char.isDigit)
      | s => some s
  | s => some s

/-- Is the text nothing, or an offset from universal time? -/
def isOffset : List Char → Bool
  | [] => true
  | [c] => c == 'Z' || c == 'z'
  | c :: s => (c == '+' || c == '-') && clock? s == some []

/-- Does the text stand for a date, a time, or both? -/
def isMoment (s : List Char) : Bool :=
  match date? s with
  | some [] => true
  | some (c :: s) => (c == 'T' || c == 't' || c == ' ') && (time? s).any isOffset
  | none => time? s == some []

/-! ## Values -/

/-- The characters of unquoted values. -/
def isScalarChar (c : Char) : Bool :=
  c.isAlphanum || c == '_' || c == '+' || c == '-' || c == '.' || c == ':'

/-- An unquoted value: a word, or a date and a time with a space between them. -/
def scalarWord (s : List Char) : List Char × List Char :=
  let word := s.takeWhile isScalarChar
  match date? word, s.dropWhile isScalarChar with
  | some [], ' ' :: c :: rest =>
    if c.isDigit then
      (word ++ ' ' :: (c :: rest).takeWhile isScalarChar, (c :: rest).dropWhile isScalarChar)
    else (word, ' ' :: c :: rest)
  | _, rest => (word, rest)

/-- A number that is not asked for anywhere; a fault if it is too large. -/
def limited (fits : Bool) : Tree :=
  if fits then .foreign else .broken .wrong

/-- An integer. One of more than 128 bits is too large. -/
def integerTree (n : Int) : Tree :=
  match Integer.ofInt? n with
  | some i => .integer i
  | none =>
    limited (decide (-170141183460469231731687303715884105728 ≤ n) &&
      decide (n < 340282366920938463463374607431768211456))

/-- A date or a time: a table with one member, which no record knows. -/
def moment : Tree :=
  .object [(some "", .foreign)] none

/-- The value of an unquoted word. -/
def scalarTree? (word : List Char) : Option Tree :=
  if word == "true".toList then some (.bool true)
  else if word == "false".toList then some (.bool false)
  else
    match integer? word with
    | some n => some (integerTree n)
    | none =>
      let unsigned := (splitSign word).2
      match magnitude? unsigned with
      | some d => some (limited d.isFinite)
      | none =>
        if isUnlimited unsigned then some .foreign
        else if isMoment word then some moment
        else none

/-- The unquoted value that starts here, if one does. -/
def scalar? (s : List Char) : Option (Tree × List Char) :=
  let (word, rest) := scalarWord s
  (scalarTree? word).map (·, rest)

end ReportSql.Toml
