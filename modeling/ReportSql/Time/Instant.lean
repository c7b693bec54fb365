import ReportSql.Decimal.Text
import ReportSql.Time.Calendar

/-!
# Instants

A moment in coordinated universal time, to the nanosecond. A leap second has no number of its own:
it is the second before it with a thousand million nanoseconds more, and is written as second 60.
-/

namespace ReportSql.Time

/-- The first second of the year -262143. -/
def earliest : Int :=
  -8334601228800

/-- The last second of the year 262142. -/
def latest : Int :=
  8210266876799

/-- A moment: seconds since the start of 1970, and nanoseconds into the second. -/
structure Instant where
  seconds : Int
  nanos : Nat
  inRange : earliest ≤ seconds ∧ seconds ≤ latest
  nanos_lt : nanos < 2000000000
  /-- Only the last second of a minute may be followed by a leap second. -/
  leap : 1000000000 ≤ nanos → seconds % 60 = 59
  deriving DecidableEq

namespace Instant

/-- The moment with these parts, if there is one. -/
def ofParts? (seconds : Int) (nanos : Nat) : Option Instant :=
  if h : (earliest ≤ seconds ∧ seconds ≤ latest) ∧ nanos < 2000000000 ∧
      (1000000000 ≤ nanos → seconds % 60 = 59) then
    some ⟨seconds, nanos, h.1, h.2.1, h.2.2⟩
  else none

theorem ofParts?_eq_some_iff {seconds : Int} {nanos : Nat} {t : Instant} :
    ofParts? seconds nanos = some t ↔ t.seconds = seconds ∧ t.nanos = nanos := by
  obtain ⟨s, n, hrange, hnanos, hleap⟩ := t
  rw [ofParts?]
  split
  · rw [Option.some.injEq, mk.injEq, eq_comm, @eq_comm _ nanos]
  · rename_i hparts
    simp only [reduceCtorEq, false_iff]
    rintro ⟨rfl, rfl⟩
    exact hparts ⟨hrange, hnanos, hleap⟩

/-- The start of a second. -/
def atSecond (seconds : Int) (h : earliest ≤ seconds ∧ seconds ≤ latest) : Instant :=
  ⟨seconds, 0, h, by decide, by omega⟩

/-- Is the moment inside a leap second? -/
def isLeap (t : Instant) : Bool :=
  decide (1000000000 ≤ t.nanos)

/-- The moment a whole number of seconds earlier. Going back from inside a leap second, that
second counts as one like any other. -/
def earlier? (t : Instant) (seconds : Int) : Option Instant :=
  if t.isLeap ∧ 0 < seconds then ofParts? (t.seconds + 1 - seconds) (t.nanos - 1000000000)
  else ofParts? (t.seconds - seconds) t.nanos

/-- The digits of a number, filled up with zeros on the left. -/
def padded (width n : Nat) : List Char :=
  let ds := Decimal.natText n
  List.replicate (width - ds.length) '0' ++ ds

/-- A year: four digits, or a sign and at least four digits outside 0 to 9999. -/
def yearText (year : Int) : List Char :=
  if 0 ≤ year ∧ year ≤ 9999 then padded 4 year.toNat
  else (if year < 0 then '-' else '+') :: padded 4 year.natAbs

/-- The fraction of a second: nothing, or as many groups of three digits as are needed. -/
def fractionText (nanos : Nat) : List Char :=
  if nanos = 0 then []
  else if nanos % 1000000 = 0 then '.' :: padded 3 (nanos / 1000000)
  else if nanos % 1000 = 0 then '.' :: padded 6 (nanos / 1000)
  else '.' :: padded 9 nanos

/-- The moment as date and time of day with the mark of coordinated universal time. -/
def text (t : Instant) : List Char :=
  let date := Date.ofDayNumber (t.seconds / 86400)
  let clock := (t.seconds % 86400).toNat
  let second := clock % 60 + (if t.isLeap then 1 else 0)
  yearText date.year ++ '-' :: padded 2 date.month ++ '-' :: padded 2 date.day ++
    'T' :: padded 2 (clock / 3600) ++ ':' :: padded 2 (clock / 60 % 60) ++
    ':' :: padded 2 second ++ fractionText (t.nanos % 1000000000) ++ ['Z']

end Instant

end ReportSql.Time
