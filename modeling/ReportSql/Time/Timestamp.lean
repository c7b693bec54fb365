import ReportSql.Text.Character
import ReportSql.Time.Instant

/-!
# Written timestamps

A bound of a time window is written as a timestamp with an offset, as a date and a time of day
taken as universal time, or as a date alone. The form with an offset is strict about its digits;
the others allow unpadded numbers, blanks before a number, and signed years.
-/

namespace ReportSql.Time

/-- Scans a part of a text: what was found, and the text behind it. -/
abbrev Scan (α : Type) :=
  List Char → Option (α × List Char)

namespace Scan

/-- The number that decimal digits stand for. -/
def digitsValue (ds : List Char) : Nat :=
  ds.foldl (fun n c => 10 * n + (c.toNat - '0'.toNat)) 0

/-- The digits that a text starts with, at least and at most as many as given. -/
def digits (least most : Nat) : Scan (List Char) :=
  fun s =>
    let ds := (s.take most).takeWhile Char.isDigit
    if ds.length < least then none else some (ds, s.drop ds.length)

/-- The number that the leading digits stand for. -/
def number (least most : Nat) : Scan Nat :=
  fun s => (digits least most s).map fun (ds, rest) => (digitsValue ds, rest)

/-- One given character. -/
def char (c : Char) : Scan Unit
  | [] => none
  | d :: rest => if d == c then some ((), rest) else none

/-- A number after any blanks. -/
def looseNumber (most : Nat) : Scan Nat :=
  fun s => number 1 most (s.dropWhile Text.isBlank)

/-- A year after any blanks: up to four digits, or any number of them after a sign. -/
def looseYear : Scan Int :=
  fun s =>
    match s.dropWhile Text.isBlank with
    | '-' :: rest => (number 1 rest.length rest).map fun (n, rest) => (-n, rest)
    | '+' :: rest => (number 1 rest.length rest).map fun (n, rest) => (n, rest)
    | s => (number 1 4 s).map fun (n, rest) => (n, rest)

/-- The fraction of a second in nanoseconds. Digits beyond the ninth do not count. -/
def nanos : Scan Nat :=
  fun s => do
    let (ds, rest) ← digits 1 9 s
    some (digitsValue ds * Nat.pow 10 (9 - ds.length), rest.dropWhile Char.isDigit)

/-- A fraction, if a point stands here. -/
def fraction : Scan Nat
  | '.' :: rest => nanos rest
  | s => some (0, s)

/-- The offset from universal time in seconds. -/
def offset : Scan Int
  | [] => none
  | c :: s =>
    if c == 'Z' || c == 'z' then some (0, s)
    else
      let signed (negative : Bool) : Option (Int × List Char) := do
        let (hours, s) ← number 2 2 s
        let (_, s) ← char ':' s
        let (minutes, s) ← number 2 2 s
        if hours ≤ 23 ∧ minutes ≤ 59 then
          let n : Int := hours * 3600 + minutes * 60
          some (if negative then -n else n, s)
        else none
      if c == '+' then signed false
      else if c == '-' || c == '\u2212' then signed true
      else none

end Scan

/-- A date with a time of day as they are written. -/
structure Written where
  date : Date
  hour : Nat
  minute : Nat
  /-- 60 is the leap second after the minute. -/
  second : Nat
  nanos : Nat
  deriving DecidableEq

namespace Written

/-- The moment that is meant, given the offset from universal time. -/
def instant? (w : Written) (offset : Int) : Option Instant :=
  if w.date.Valid ∧ w.hour ≤ 23 ∧ w.minute ≤ 59 ∧ w.second ≤ 60 ∧ w.nanos < 1000000000 then
    let second := min w.second 59
    let nanos := if w.second = 60 then w.nanos + 1000000000 else w.nanos
    Instant.ofParts?
      (w.date.dayNumber * 86400 + (w.hour * 3600 + w.minute * 60 + second : Nat) - offset) nanos
  else none

/-- A timestamp with its offset, written with all its digits. -/
def strict? (s : List Char) : Option Instant := do
  let (year, s) ← Scan.number 4 4 s
  let (_, s) ← Scan.char '-' s
  let (month, s) ← Scan.number 2 2 s
  let (_, s) ← Scan.char '-' s
  let (day, s) ← Scan.number 2 2 s
  match s with
  | c :: s =>
    if c == 'T' || c == 't' || c == ' ' then
      let (hour, s) ← Scan.number 2 2 s
      let (_, s) ← Scan.char ':' s
      let (minute, s) ← Scan.number 2 2 s
      let (_, s) ← Scan.char ':' s
      let (second, s) ← Scan.number 2 2 s
      let (nanos, s) ← Scan.fraction s
      let (offset, s) ← Scan.offset s
      if s.isEmpty then
        instant? ⟨⟨year, month, day⟩, hour, minute, second, nanos⟩ offset
      else none
    else none
  | [] => none

/-- A date, leniently written. -/
def looseDate : Scan Date :=
  fun s => do
    let (year, s) ← Scan.looseYear s
    let (_, s) ← Scan.char '-' s
    let (month, s) ← Scan.looseNumber 2 s
    let (_, s) ← Scan.char '-' s
    let (day, s) ← Scan.looseNumber 2 s
    some (⟨year, month, day⟩, s)

/-- Hours and minutes, leniently written. -/
def looseMinutes : Scan (Nat × Nat) :=
  fun s => do
    let (hour, s) ← Scan.looseNumber 2 s
    let (_, s) ← Scan.char ':' s
    let (minute, s) ← Scan.looseNumber 2 s
    some ((hour, minute), s)

/-- Seconds with an optional fraction behind hours and minutes, leniently written. -/
def looseSeconds : Scan (Nat × Nat) :=
  fun s => do
    let (_, s) ← Scan.char ':' s
    let (second, s) ← Scan.looseNumber 2 s
    let (nanos, s) ← Scan.fraction s
    some ((second, nanos), s)

/-- A date and a time of day with seconds; `gap` passes what stands between the two. -/
def looseTime? (gap : Scan Unit) (s : List Char) : Option Instant := do
  let (date, s) ← looseDate s
  let (_, s) ← gap s
  let ((hour, minute), s) ← looseMinutes s
  let ((second, nanos), s) ← looseSeconds s
  if s.isEmpty then instant? ⟨date, hour, minute, second, nanos⟩ 0 else none

/-- A date and a time of day without seconds. -/
def looseMinute? (s : List Char) : Option Instant := do
  let (date, s) ← looseDate s
  let (_, s) ← Scan.char 'T' s
  let ((hour, minute), s) ← looseMinutes s
  if s.isEmpty then instant? ⟨date, hour, minute, 0, 0⟩ 0 else none

/-- A date alone, which means its midnight. -/
def looseDay? (s : List Char) : Option Instant := do
  let (date, s) ← looseDate s
  if s.isEmpty then instant? ⟨date, 0, 0, 0, 0⟩ 0 else none

end Written

/-- The moment that a text without blanks at its ends stands for. -/
def Instant.ofTrimmed? (s : List Char) : Option Instant :=
  Written.strict? s
    <|> Written.looseTime? (Scan.char 'T') s
    <|> Written.looseTime? (fun s => some ((), s.dropWhile Text.isBlank)) s
    <|> Written.looseMinute? s
    <|> Written.looseDay? s

/-- The moment that a text stands for. -/
def Instant.ofText? (s : String) : Option Instant :=
  ofTrimmed? (Text.trim s.toList)

end ReportSql.Time
