import Mathlib.Data.Nat.Digits.Defs
import ReportSql.Proofs.Dates
import ReportSql.Proofs.Numerals
import ReportSql.Time.Timestamp

/-!
# Timestamps are read back

A moment is written by way of its parts, the date and the time of day; `instant?_written` says that
the parts stand for no other moment. A timestamp is read part by part from the left, each part being
as wide as it is written, and the fraction as long as it is. With a year of four digits the strict
form reads it (`strict?_text`). A signed year is refused by that form, and since the lenient ones
know no mark of universal time, by all of them (`ofTrimmed?_text_eq_none`).
-/

namespace ReportSql.Time

open ReportSql.Decimal (StartsWithout startsWithout_append startsWithout_cons)

/-! ## Digits -/

theorem isDigit_padded {width n : Nat} : ∀ c ∈ Instant.padded width n, c.isDigit = true := by
  intro c hc
  rcases List.mem_append.mp hc with hc | hc
  · exact Decimal.isDigit_zeros c hc
  · exact Decimal.isDigit_natText c hc

theorem isBlank_of_isDigit {c : Char} (hc : c.isDigit = true) : Text.isBlank c = false := by
  have hrange : 48 ≤ c.toNat ∧ c.toNat ≤ 57 := Char.isDigit_iff_toNat.mp hc
  simp [Text.isBlank, Text.within, Text.blanks]
  omega

theorem digitsValue_padded (width n : Nat) :
    Decimal.digitsValue (Instant.padded width n) = n := by
  rw [Instant.padded, Decimal.digitsValue_append, Decimal.digitsValue_zeros, Nat.zero_mul,
    Nat.zero_add, Decimal.digitsValue_natText]

theorem length_padded {width n : Nat} (hwidth : 0 < width) (hn : n < 10 ^ width) :
    (Instant.padded width n).length = width := by
  have hlength : (Decimal.natText n).length ≤ width := Nat.toDigits_length 10 n width hwidth hn
  rw [Instant.padded, List.length_append, List.length_replicate, Nat.sub_add_cancel hlength]

theorem digitsValue_lt {ds : List Char} (hds : ∀ c ∈ ds, c.isDigit = true) :
    Decimal.digitsValue ds < 10 ^ ds.length := by
  induction ds with
  | nil => exact Nat.one_pos
  | cons c ds ih =>
    have hc : Decimal.digitsValue [c] ≤ 9 := by
      have hrange : 48 ≤ c.toNat ∧ c.toNat ≤ 57 :=
        Char.isDigit_iff_toNat.mp (hds c (List.mem_cons_self ..))
      have hvalue : Decimal.digitsValue [c] = c.toNat - 48 := by
        simp [Decimal.digitsValue, Nat.ofDigitChars]
      omega
    have hrest := ih fun d hd => hds d (List.mem_cons_of_mem _ hd)
    have hhead : Decimal.digitsValue [c] * 10 ^ ds.length ≤ 9 * 10 ^ ds.length :=
      Nat.mul_le_mul_right _ hc
    rw [← List.singleton_append, Decimal.digitsValue_append, List.length_append,
      List.length_singleton, Nat.pow_add]
    omega

theorem le_length_padded (width n : Nat) : width ≤ (Instant.padded width n).length := by
  rw [Instant.padded, List.length_append, List.length_replicate]
  omega

namespace Scan

theorem digitsValue_eq (ds : List Char) : digitsValue ds = Decimal.digitsValue ds := by
  rw [digitsValue, Decimal.digitsValue, Nat.ofDigitChars]

/-- Digits are read as far as they go, or as far as they may. -/
theorem digits_append {least most : Nat} {ds s : List Char} (hds : ∀ c ∈ ds, c.isDigit = true)
    (hleast : least ≤ ds.length) (hmost : ds.length ≤ most)
    (hs : ds.length = most ∨ StartsWithout Char.isDigit s) :
    digits least most (ds ++ s) = some (ds, s) := by
  have hrest : (s.take (most - ds.length)).takeWhile Char.isDigit = [] := by
    rcases hs with hfull | hs
    · rw [hfull, Nat.sub_self, List.take_zero, List.takeWhile_nil]
    · cases s with
      | nil => simp
      | cons c rest =>
        have hc : c.isDigit = false := hs c rfl
        cases most - ds.length <;> simp [hc]
  have hread : ((ds ++ s).take most).takeWhile Char.isDigit = ds := by
    rw [List.take_append, List.take_of_length_le hmost, List.takeWhile_append_of_pos hds, hrest,
      List.append_nil]
  simp only [digits, hread, if_neg (Nat.not_lt.mpr hleast), List.drop_left]

theorem number_append {least most : Nat} {ds s : List Char} (hds : ∀ c ∈ ds, c.isDigit = true)
    (hleast : least ≤ ds.length) (hmost : ds.length ≤ most)
    (hs : ds.length = most ∨ StartsWithout Char.isDigit s) :
    number least most (ds ++ s) = some (Decimal.digitsValue ds, s) := by
  rw [number, digits_append hds hleast hmost hs, ← digitsValue_eq]
  rfl

theorem number_padded {width n : Nat} (hwidth : 0 < width) (hn : n < 10 ^ width) (s : List Char) :
    number width width (Instant.padded width n ++ s) = some (n, s) := by
  have hlength := length_padded hwidth hn
  rw [number_append isDigit_padded hlength.ge hlength.le (.inl hlength), digitsValue_padded]

theorem char_cons (c : Char) (s : List Char) : char c (c :: s) = some ((), s) := by
  simp [char]

theorem nanos_append {ds s : List Char} (hds : ∀ c ∈ ds, c.isDigit = true)
    (hlength : 1 ≤ ds.length ∧ ds.length ≤ 9) (hs : StartsWithout Char.isDigit s) :
    nanos (ds ++ s) = some (Decimal.digitsValue ds * 10 ^ (9 - ds.length), s) := by
  rw [nanos, digits_append hds hlength.1 hlength.2 (.inr hs)]
  simp only [Option.bind_eq_bind, Option.bind_some, hs.dropWhile_eq, digitsValue_eq]
  rfl

end Scan

/-! ## Fractions -/

/-- The nanoseconds that the digits of a fraction stand for. -/
def fractionNanos (f : Option (List Char)) : Nat :=
  f.elim 0 fun ds => Decimal.digitsValue ds * 10 ^ (9 - ds.length)

/-- Digits behind a point can be read as nanoseconds: there is one at least, and none is lost. -/
def IsFraction (f : Option (List Char)) : Prop :=
  ∀ ds ∈ f, (ds ≠ [] ∧ ∀ c ∈ ds, c.isDigit = true) ∧ ds.length ≤ 9

theorem IsFraction.nanos_lt {f : Option (List Char)} (hf : IsFraction f) :
    fractionNanos f < 1000000000 := by
  cases f with
  | none => exact (by decide : 0 < 1000000000)
  | some ds =>
    obtain ⟨⟨-, hdigits⟩, hlength⟩ := hf ds rfl
    calc Decimal.digitsValue ds * 10 ^ (9 - ds.length)
      _ < 10 ^ ds.length * 10 ^ (9 - ds.length) :=
        Nat.mul_lt_mul_of_pos_right (digitsValue_lt hdigits) (Nat.pow_pos (by decide))
      _ = 10 ^ 9 := by rw [← Nat.pow_add, Nat.add_sub_cancel' hlength]

/-- A fraction is read with the nanoseconds that its digits stand for. -/
theorem Scan.fraction_append {f : Option (List Char)} (hf : IsFraction f) {s : List Char}
    (hs : StartsWithout (fun c => c.isDigit || c == '.') s) :
    fraction (Decimal.Numeral.fractionText f ++ s) = some (fractionNanos f, s) := by
  have hdigit : StartsWithout Char.isDigit s :=
    fun c hc => (Bool.or_eq_false_iff.mp (hs c hc)).1
  cases f with
  | none =>
    cases s with
    | nil => rfl
    | cons c rest =>
      have hc : c ≠ '.' := by
        rintro rfl
        exact absurd (hs '.' rfl) (by decide)
      simp [Decimal.Numeral.fractionText, fraction, fractionNanos, hc]
  | some ds =>
    obtain ⟨⟨hne, hdigits⟩, hlength⟩ := hf ds rfl
    rw [Decimal.Numeral.fractionText, List.cons_append, fraction,
      nanos_append hdigits ⟨List.length_pos_of_ne_nil hne, hlength⟩ hdigit]
    rfl

/-- Nanoseconds are written as a fraction that stands for them. -/
theorem exists_fractionText {n : Nat} (hn : n < 1000000000) :
    ∃ f, Instant.fractionText n = Decimal.Numeral.fractionText f ∧ IsFraction f ∧
      fractionNanos f = n := by
  -- the digits are padded to their number, and stand for what they are digits of
  have hpadded : ∀ width m : Nat, 0 < width → width ≤ 9 → m < 10 ^ width →
      IsFraction (some (Instant.padded width m)) ∧
        fractionNanos (some (Instant.padded width m)) = m * 10 ^ (9 - width) := by
    intro width m hpos hle hm
    have hlength := length_padded hpos hm
    refine ⟨?_, by rw [fractionNanos, Option.elim_some, digitsValue_padded, hlength]⟩
    rintro ds ⟨⟩
    exact ⟨⟨List.ne_nil_of_length_pos (by omega), isDigit_padded⟩, by omega⟩
  unfold Instant.fractionText
  split_ifs with h0 h6 h3
  · exact ⟨none, rfl, nofun, h0.symm⟩
  · obtain ⟨hf, hvalue⟩ := hpadded 3 (n / 1000000) (by decide) (by decide) (by omega)
    exact ⟨_, rfl, hf, by omega⟩
  · obtain ⟨hf, hvalue⟩ := hpadded 6 (n / 1000) (by decide) (by decide) (by omega)
    exact ⟨_, rfl, hf, by omega⟩
  · obtain ⟨hf, hvalue⟩ := hpadded 9 n (by decide) (by decide) hn
    exact ⟨_, rfl, hf, by omega⟩

/-! ## Written moments -/

namespace Written

/-- The parts are those of a date in the calendar and of a time of day, with the leap second that a
minute may have. -/
structure Proper (w : Written) : Prop where
  date : w.date.Valid
  hour : w.hour ≤ 23
  minute : w.minute ≤ 59
  second : w.second ≤ 60
  nanos : w.nanos < 1000000000

/-- Seconds with their fraction, and the mark of universal time. -/
def secondText (w : Written) : List Char :=
  ':' :: Instant.padded 2 w.second ++ Instant.fractionText w.nanos ++ ['Z']

/-- The time of day. -/
def clockText (w : Written) : List Char :=
  Instant.padded 2 w.hour ++ ':' :: Instant.padded 2 w.minute ++ w.secondText

/-- Date and time of day. -/
def text (w : Written) : List Char :=
  Instant.yearText w.date.year ++ '-' :: Instant.padded 2 w.date.month
    ++ '-' :: Instant.padded 2 w.date.day ++ 'T' :: w.clockText

end Written

namespace Instant

/-- A moment as it is written. -/
def written (t : Instant) : Written where
  date := Date.ofDayNumber (t.seconds / 86400)
  hour := (t.seconds % 86400).toNat / 3600
  minute := (t.seconds % 86400).toNat / 60 % 60
  second := (t.seconds % 86400).toNat % 60 + (if t.isLeap then 1 else 0)
  nanos := t.nanos % 1000000000

theorem text_eq (t : Instant) : t.text = t.written.text := by
  simp [text, Written.text, Written.clockText, Written.secondText, written]

theorem proper_written (t : Instant) : t.written.Proper := by
  refine ⟨Date.ofDayNumber_valid _, ?_, ?_, ?_, ?_⟩
  all_goals simp only [written]
  · omega
  · omega
  · split <;> omega
  · omega

/-- **A moment is the one that it is written as**, also within a leap second. -/
theorem instant?_written (t : Instant) : t.written.instant? 0 = some t := by
  have hproper := t.proper_written
  have hnanos := t.nanos_lt
  rw [Written.instant?, if_pos ⟨hproper.date, hproper.hour, hproper.minute, hproper.second,
    hproper.nanos⟩, ofParts?_eq_some_iff]
  simp only [written, Date.dayNumber_ofDayNumber]
  by_cases hin : 1000000000 ≤ t.nanos
  · have hisLeap : t.isLeap = true := decide_eq_true hin
    have hlast := t.leap hin
    simp only [hisLeap, if_true]
    -- second 60 is the second before it, and its nanoseconds are beyond those of that second
    rw [if_pos (by omega)]
    omega
  · have hisLeap : t.isLeap = false := decide_eq_false hin
    simp only [hisLeap, Bool.false_eq_true, if_false]
    rw [if_neg (by omega)]
    omega

end Instant

/-! ## Reading -/

theorem daysInMonth_le (year : Int) (month : Nat) : daysInMonth year month ≤ 31 := by
  unfold daysInMonth
  split_ifs <;> omega

/-- A part that is found is passed on to the reading of the rest. -/
theorem bind_eq_of_eq_some {α β : Type} {x : Option α} {a : α} {f : α → Option β} {r : Option β}
    (hx : x = some a) (hf : f a = r) : (x >>= f) = r := by
  rw [hx]
  exact hf

/-- Nothing is read behind a part that is not found. -/
theorem bind_eq_none_of_eq_none {α β : Type} {x : Option α} (hx : x = none)
    (f : α → Option β) : (x >>= f) = none := by
  rw [hx]
  rfl

theorem Scan.offset_mark : offset ['Z'] = some (0, []) := by
  simp [offset]

namespace Written

variable {w : Written}

/-- Every part but the year has two digits. -/
theorem Proper.lt (hw : w.Proper) :
    w.date.month < 10 ^ 2 ∧ w.date.day < 10 ^ 2 ∧ w.hour < 10 ^ 2 ∧ w.minute < 10 ^ 2 ∧
      w.second < 10 ^ 2 := by
  obtain ⟨⟨-, hmonth, -, hday⟩, hhour, hminute, hsecond, -⟩ := hw
  have hlast := daysInMonth_le w.date.year w.date.month
  omega

end Written

/-! ### Parts with their digits -/

/-- The text consists of so many decimal digits. -/
structure DigitsOf (width : Nat) (s : List Char) : Prop where
  isDigit : ∀ c ∈ s, c.isDigit = true
  length : s.length = width

instance (width : Nat) (s : List Char) : Decidable (DigitsOf width s) :=
  decidable_of_iff (s.all Char.isDigit = true ∧ s.length = width)
    ⟨fun h => ⟨List.all_eq_true.mp h.1, h.2⟩, fun h => ⟨List.all_eq_true.mpr h.1, h.2⟩⟩

theorem digitsOf_padded {width n : Nat} (hwidth : 0 < width) (hn : n < 10 ^ width) :
    DigitsOf width (Instant.padded width n) :=
  ⟨isDigit_padded, length_padded hwidth hn⟩

theorem DigitsOf.number {width : Nat} {ds : List Char} (h : DigitsOf width ds) (s : List Char) :
    Scan.number width width (ds ++ s) = some (Decimal.digitsValue ds, s) :=
  Scan.number_append h.isDigit h.length.ge h.length.le (.inl h.length)

theorem DigitsOf.exists_cons {width : Nat} {ds : List Char} (h : DigitsOf width ds)
    (hwidth : 0 < width) : ∃ c rest, ds = c :: rest ∧ c.isDigit = true := by
  obtain ⟨c, rest, hds⟩ := List.exists_cons_of_length_pos (h.length.symm ▸ hwidth)
  exact ⟨c, rest, hds, h.isDigit c (hds ▸ List.mem_cons_self ..)⟩

theorem DigitsOf.ne_nil {width : Nat} {ds : List Char} (h : DigitsOf width ds)
    (hwidth : 0 < width) : ds ≠ [] :=
  List.ne_nil_of_length_pos (h.length.symm ▸ hwidth)

theorem DigitsOf.isBlank {width : Nat} {ds : List Char} (h : DigitsOf width ds) :
    ∀ c ∈ ds, Text.isBlank c = false :=
  fun c hc => isBlank_of_isDigit (h.isDigit c hc)

theorem DigitsOf.looseNumber {width : Nat} {ds : List Char} (h : DigitsOf width ds)
    (hwidth : 0 < width) (s : List Char) :
    Scan.looseNumber width (ds ++ s) = some (Decimal.digitsValue ds, s) := by
  have hlength := h.length
  rw [Scan.looseNumber, (startsWithout_append (h.ne_nil hwidth) h.isBlank s).dropWhile_eq,
    Scan.number_append h.isDigit (by omega) hlength.le (.inl hlength)]

/-- The parts of a timestamp as they are written. -/
structure TimestampParts where
  year : List Char
  month : List Char
  day : List Char
  hour : List Char
  minute : List Char
  second : List Char
  /-- The digits of the fraction of the second, if there is one. -/
  fraction : Option (List Char)

namespace TimestampParts

/-- The parts between their marks, in universal time. -/
def text (p : TimestampParts) : List Char :=
  p.year ++ '-' :: p.month ++ '-' :: p.day ++ 'T' :: p.hour ++ ':' :: p.minute ++ ':' :: p.second
    ++ Decimal.Numeral.fractionText p.fraction ++ ['Z']

/-- The parts have their digits, and stand for a date in the calendar and a time of day. -/
structure WellFormed (p : TimestampParts) : Prop where
  year : DigitsOf 4 p.year
  month : DigitsOf 2 p.month
  day : DigitsOf 2 p.day
  hour : DigitsOf 2 p.hour
  minute : DigitsOf 2 p.minute
  second : DigitsOf 2 p.second
  fraction : ∀ f ∈ p.fraction, f ≠ [] ∧ ∀ c ∈ f, c.isDigit = true
  date_valid : Date.Valid ⟨Decimal.digitsValue p.year, Decimal.digitsValue p.month,
    Decimal.digitsValue p.day⟩
  hour_le : Decimal.digitsValue p.hour ≤ 23
  minute_le : Decimal.digitsValue p.minute ≤ 59
  /-- 60 is a leap second. -/
  second_le : Decimal.digitsValue p.second ≤ 60

/-- The date and the time of day with other marks: `gap` stands between the two, and `zone` behind
them. -/
def spelled (p : TimestampParts) (gap : Char) (zone : List Char) : List Char :=
  p.year ++ '-' :: p.month ++ '-' :: p.day ++ gap :: p.hour ++ ':' :: p.minute ++ ':' :: p.second
    ++ Decimal.Numeral.fractionText p.fraction ++ zone

/-- What the parts stand for. -/
def written (p : TimestampParts) : Written where
  date := ⟨Decimal.digitsValue p.year, Decimal.digitsValue p.month, Decimal.digitsValue p.day⟩
  hour := Decimal.digitsValue p.hour
  minute := Decimal.digitsValue p.minute
  second := Decimal.digitsValue p.second
  nanos := fractionNanos p.fraction

variable {p : TimestampParts}

/-- The strict form reads the parts one after another, and then the offset. -/
theorem strict?_spelled (hp : p.WellFormed) (hf : IsFraction p.fraction) {gap : Char}
    (hgap : gap = 'T' ∨ gap = ' ') {zone : List Char}
    (hzone : StartsWithout (fun c => c.isDigit || c == '.') zone) :
    Written.strict? (p.spelled gap zone) =
      (Scan.offset zone).bind fun (offset, s) =>
        if s.isEmpty then p.written.instant? offset else none := by
  have hsep : (gap == 'T' || gap == 't' || gap == ' ') = true := by
    rcases hgap with rfl | rfl <;> rfl
  simp only [spelled, List.append_assoc, List.cons_append]
  refine bind_eq_of_eq_some (hp.year.number _) ?_
  refine bind_eq_of_eq_some (Scan.char_cons _ _) ?_
  refine bind_eq_of_eq_some (hp.month.number _) ?_
  refine bind_eq_of_eq_some (Scan.char_cons _ _) ?_
  refine bind_eq_of_eq_some (hp.day.number _) ?_
  simp only [hsep, if_true]
  refine bind_eq_of_eq_some (hp.hour.number _) ?_
  refine bind_eq_of_eq_some (Scan.char_cons _ _) ?_
  refine bind_eq_of_eq_some (hp.minute.number _) ?_
  refine bind_eq_of_eq_some (Scan.char_cons _ _) ?_
  refine bind_eq_of_eq_some (hp.second.number _) ?_
  exact bind_eq_of_eq_some (Scan.fraction_append hf hzone) rfl

/-- **A timestamp is read** as the moment that it stands for. -/
theorem strict?_text (hp : p.WellFormed) (hf : IsFraction p.fraction) :
    Written.strict? p.text = p.written.instant? 0 :=
  strict?_spelled hp hf (.inl rfl) (startsWithout_cons (by decide) _)

end TimestampParts

namespace Written

variable {w : Written}

/-- The parts of a written moment, given how its fraction is written. -/
def timestampParts (w : Written) (fraction : Option (List Char)) : TimestampParts where
  year := Instant.padded 4 w.date.year.toNat
  month := Instant.padded 2 w.date.month
  day := Instant.padded 2 w.date.day
  hour := Instant.padded 2 w.hour
  minute := Instant.padded 2 w.minute
  second := Instant.padded 2 w.second
  fraction := fraction

theorem wellFormed_timestampParts (hw : w.Proper) (hyear : 0 ≤ w.date.year ∧ w.date.year ≤ 9999)
    {fraction : Option (List Char)}
    (hfraction : ∀ f ∈ fraction, f ≠ [] ∧ ∀ c ∈ f, c.isDigit = true) :
    (w.timestampParts fraction).WellFormed := by
  obtain ⟨hmonth, hday, hhour, hminute, hsecond⟩ := hw.lt
  have hvalue : (w.date.year.toNat : Int) = w.date.year := Int.toNat_of_nonneg hyear.1
  constructor
  case year => exact digitsOf_padded (by decide) (by omega)
  case month => exact digitsOf_padded (by decide) hmonth
  case day => exact digitsOf_padded (by decide) hday
  case hour => exact digitsOf_padded (by decide) hhour
  case minute => exact digitsOf_padded (by decide) hminute
  case second => exact digitsOf_padded (by decide) hsecond
  case fraction => exact hfraction
  all_goals simp only [timestampParts, digitsValue_padded, hvalue]
  case date_valid => exact hw.date
  case hour_le => exact hw.hour
  case minute_le => exact hw.minute
  case second_le => exact hw.second

/-- The parts stand for what they are the parts of. -/
theorem written_timestampParts (hyear : 0 ≤ w.date.year) {fraction : Option (List Char)}
    (hnanos : fractionNanos fraction = w.nanos) : (w.timestampParts fraction).written = w := by
  have hvalue : (w.date.year.toNat : Int) = w.date.year := Int.toNat_of_nonneg hyear
  simp only [TimestampParts.written, timestampParts, digitsValue_padded, hvalue, hnanos]

/-- With a year of four digits the text is a timestamp. -/
theorem exists_timestampParts (hw : w.Proper) (hyear : 0 ≤ w.date.year ∧ w.date.year ≤ 9999) :
    ∃ p : TimestampParts, p.WellFormed ∧ IsFraction p.fraction ∧ p.written = w ∧
      w.text = p.text := by
  obtain ⟨f, htext, hf, hnanos⟩ := exists_fractionText hw.nanos
  refine ⟨w.timestampParts f, wellFormed_timestampParts hw hyear fun ds hds => (hf ds hds).1, hf,
    written_timestampParts hyear.1 hnanos, ?_⟩
  simp [text, clockText, secondText, Instant.yearText, hyear, TimestampParts.text, timestampParts,
    htext]

/-- **A timestamp is read** as the moment that it is written for, if its year has four digits. -/
theorem strict?_text (hw : w.Proper) (hyear : 0 ≤ w.date.year ∧ w.date.year ≤ 9999) :
    strict? w.text = w.instant? 0 := by
  obtain ⟨p, hp, hf, hwritten, htext⟩ := exists_timestampParts hw hyear
  rw [htext, TimestampParts.strict?_text hp hf, hwritten]

end Written

/-! ## Texts of moments -/

/-- A text has no blanks at its ends if no character of its first part is blank and none of its last
part. -/
theorem trim_enclosed {first last : List Char} (middle : List Char) (hfirst : first ≠ [])
    (hfirst' : ∀ c ∈ first, Text.isBlank c = false) (hlast : last ≠ [])
    (hlast' : ∀ c ∈ last, Text.isBlank c = false) :
    Text.trim (first ++ middle ++ last) = first ++ middle ++ last := by
  have hstart := (startsWithout_append hfirst hfirst' (middle ++ last)).dropWhile_eq
  have hend := (startsWithout_append (List.reverse_ne_nil_iff.mpr hlast)
    (fun c hc => hlast' c (List.mem_reverse.mp hc)) (first ++ middle).reverse).dropWhile_eq
  rw [Text.trim, List.append_assoc, hstart, ← List.append_assoc, List.reverse_append, hend,
    ← List.reverse_append, List.reverse_reverse]

namespace Instant

/-- The calendar year of a moment in universal time. -/
def year (t : Instant) : Int :=
  t.written.date.year

/-- The year of the moment is written with four digits and no sign. -/
def HasFourDigitYear (t : Instant) : Prop :=
  0 ≤ t.year ∧ t.year ≤ 9999

instance (t : Instant) : Decidable t.HasFourDigitYear :=
  inferInstanceAs (Decidable (_ ∧ _))

/-- The text starts with a digit or a sign and ends with the mark of universal time. -/
theorem exists_text (t : Instant) : ∃ c s, t.text = c :: s ++ ['Z'] ∧ Text.isBlank c = false := by
  obtain ⟨c, s, hyear, hc⟩ : ∃ c s, yearText t.year = c :: s ∧ Text.isBlank c = false := by
    have hdigits : ∃ c s, padded 4 t.year.toNat = c :: s ∧ Text.isBlank c = false := by
      have hlength := le_length_padded 4 t.year.toNat
      have hne : padded 4 t.year.toNat ≠ [] := List.ne_nil_of_length_pos (by omega)
      obtain ⟨c, s, hs⟩ := List.exists_cons_of_ne_nil hne
      exact ⟨c, s, hs, isBlank_of_isDigit (isDigit_padded c (hs ▸ List.mem_cons_self ..))⟩
    rw [yearText]
    split_ifs
    · exact hdigits
    · exact ⟨'-', _, rfl, by decide⟩
    · exact ⟨'+', _, rfl, by decide⟩
  rw [text_eq, Written.text, ← year, hyear]
  refine ⟨c, s ++ '-' :: padded 2 t.written.date.month ++ '-' :: padded 2 t.written.date.day
    ++ 'T' :: padded 2 t.written.hour ++ ':' :: padded 2 t.written.minute
    ++ ':' :: padded 2 t.written.second ++ fractionText t.written.nanos, ?_, hc⟩
  simp [Written.clockText, Written.secondText]

/-- There are no blanks at the ends of the text. -/
theorem trim_text (t : Instant) : Text.trim t.text = t.text := by
  obtain ⟨c, s, htext, hc⟩ := t.exists_text
  rw [htext]
  exact trim_enclosed s (List.cons_ne_nil c []) (List.forall_mem_singleton.mpr hc)
    (List.cons_ne_nil 'Z' []) (List.forall_mem_singleton.mpr rfl)

/-- **A bound is read back** as the moment that it was written for. -/
theorem ofTrimmed?_text {t : Instant} (h : t.HasFourDigitYear) : ofTrimmed? t.text = some t := by
  rw [ofTrimmed?, text_eq, Written.strict?_text t.proper_written h, instant?_written]
  rfl

end Instant

/-! ## Lenient reading

Between digits the lenient forms read what the strict form reads. Only for the year they differ, and
how a year is read is left open here.
-/

namespace Written

theorem looseDate_append {year month day : List Char} {y : Int}
    (hyear : ∀ s, StartsWithout Char.isDigit s → Scan.looseYear (year ++ s) = some (y, s))
    (hmonth : DigitsOf 2 month) (hday : DigitsOf 2 day) (s : List Char) :
    looseDate (year ++ '-' :: (month ++ '-' :: (day ++ s))) =
      some (⟨y, Decimal.digitsValue month, Decimal.digitsValue day⟩, s) := by
  refine bind_eq_of_eq_some (hyear _ (startsWithout_cons (by decide) _)) ?_
  refine bind_eq_of_eq_some (Scan.char_cons _ _) ?_
  refine bind_eq_of_eq_some (hmonth.looseNumber (by decide) _) ?_
  refine bind_eq_of_eq_some (Scan.char_cons _ _) ?_
  exact bind_eq_of_eq_some (hday.looseNumber (by decide) _) rfl

theorem looseMinutes_append {hour minute : List Char} (hhour : DigitsOf 2 hour)
    (hminute : DigitsOf 2 minute) (s : List Char) :
    looseMinutes (hour ++ ':' :: (minute ++ s)) =
      some ((Decimal.digitsValue hour, Decimal.digitsValue minute), s) := by
  refine bind_eq_of_eq_some (hhour.looseNumber (by decide) _) ?_
  refine bind_eq_of_eq_some (Scan.char_cons _ _) ?_
  exact bind_eq_of_eq_some (hminute.looseNumber (by decide) _) rfl

theorem looseSeconds_append {second : List Char} {f : Option (List Char)}
    (hsecond : DigitsOf 2 second) (hf : IsFraction f) {s : List Char}
    (hs : StartsWithout (fun c => c.isDigit || c == '.') s) :
    looseSeconds (':' :: (second ++ (Decimal.Numeral.fractionText f ++ s))) =
      some ((Decimal.digitsValue second, fractionNanos f), s) := by
  refine bind_eq_of_eq_some (Scan.char_cons _ _) ?_
  refine bind_eq_of_eq_some (hsecond.looseNumber (by decide) _) ?_
  exact bind_eq_of_eq_some (Scan.fraction_append hf hs) rfl

end Written

/-! ## Signed years

A year outside of 0 to 9999 is written with a sign. Only the lenient forms read one, and none of
them takes the mark of universal time.
-/

namespace Scan

theorem number_cons {least most : Nat} {c : Char} {s : List Char} (hc : c.isDigit = false)
    (hleast : 0 < least) : number least most (c :: s) = none := by
  have hnone : ((c :: s).take most).takeWhile Char.isDigit = [] := by
    cases most <;> simp [hc]
  simp [number, digits, hnone, hleast]

/-- A signed year is read with all its digits. -/
theorem looseYear_yearText {year : Int} (hyear : ¬(0 ≤ year ∧ year ≤ 9999)) {s : List Char}
    (hs : StartsWithout Char.isDigit s) :
    looseYear (Instant.yearText year ++ s) = some (year, s) := by
  have hnumber : number 1 (Instant.padded 4 year.natAbs ++ s).length
      (Instant.padded 4 year.natAbs ++ s) = some (year.natAbs, s) := by
    have hlength := le_length_padded 4 year.natAbs
    rw [number_append isDigit_padded (by omega) (by simp) (.inr hs), digitsValue_padded]
  rw [Instant.yearText, if_neg hyear, List.cons_append]
  by_cases hneg : year < 0
  · have hstart := List.dropWhile_cons_of_neg (p := Text.isBlank) (a := '-')
      (l := Instant.padded 4 year.natAbs ++ s) (by decide)
    have hvalue : -(year.natAbs : Int) = year := by omega
    simp only [if_pos hneg, looseYear, hstart, hnumber, Option.map_some, hvalue]
  · have hstart := List.dropWhile_cons_of_neg (p := Text.isBlank) (a := '+')
      (l := Instant.padded 4 year.natAbs ++ s) (by decide)
    have hvalue : (year.natAbs : Int) = year := by omega
    simp only [if_neg hneg, looseYear, hstart, hnumber, Option.map_some, hvalue]

end Scan

namespace Written

variable {w : Written}

/-- A date with a signed year is read by the lenient forms, up to the time of day. -/
theorem looseDate_text (hw : w.Proper) (hyear : ¬(0 ≤ w.date.year ∧ w.date.year ≤ 9999)) :
    looseDate w.text = some (w.date, 'T' :: w.clockText) := by
  obtain ⟨hmonth, hday, -, -, -⟩ := hw.lt
  have h := looseDate_append (fun _ => Scan.looseYear_yearText hyear)
    (digitsOf_padded (by decide) hmonth) (digitsOf_padded (by decide) hday) ('T' :: w.clockText)
  simpa [text, digitsValue_padded] using h

theorem looseMinutes_clockText (hw : w.Proper) :
    looseMinutes w.clockText = some ((w.hour, w.minute), w.secondText) := by
  obtain ⟨-, -, hhour, hminute, -⟩ := hw.lt
  have h := looseMinutes_append (digitsOf_padded (by decide) hhour)
    (digitsOf_padded (by decide) hminute) w.secondText
  simpa [clockText, digitsValue_padded] using h

theorem looseSeconds_secondText (hw : w.Proper) :
    looseSeconds w.secondText = some ((w.second, w.nanos), ['Z']) := by
  obtain ⟨-, -, -, -, hsecond⟩ := hw.lt
  obtain ⟨f, htext, hf, hnanos⟩ := exists_fractionText hw.nanos
  have hmark : StartsWithout (fun c => c.isDigit || c == '.') ['Z'] :=
    startsWithout_cons (by decide) _
  have h := looseSeconds_append (digitsOf_padded (by decide) hsecond) hf hmark
  simpa [secondText, digitsValue_padded, htext, hnanos] using h

/-- A signed year starts with its sign. -/
theorem exists_text_signed (hyear : ¬(0 ≤ w.date.year ∧ w.date.year ≤ 9999)) :
    ∃ c s, w.text = c :: s ∧ c.isDigit = false := by
  rw [text, Instant.yearText, if_neg hyear]
  split
  · exact ⟨'-', _, rfl, by decide⟩
  · exact ⟨'+', _, rfl, by decide⟩

theorem strict?_text_eq_none (hyear : ¬(0 ≤ w.date.year ∧ w.date.year ≤ 9999)) :
    strict? w.text = none := by
  obtain ⟨c, s, htext, hc⟩ := exists_text_signed hyear
  rw [htext]
  exact bind_eq_none_of_eq_none (Scan.number_cons hc (by decide)) _

/-- **No form reads a signed year** with the mark of universal time at the end. -/
theorem ofTrimmed?_text_eq_none (hw : w.Proper)
    (hyear : ¬(0 ≤ w.date.year ∧ w.date.year ≤ 9999)) : Instant.ofTrimmed? w.text = none := by
  have hdate := looseDate_text hw hyear
  have hgap : looseTime? (Scan.char 'T') w.text = none := by
    refine bind_eq_of_eq_some hdate ?_
    refine bind_eq_of_eq_some (Scan.char_cons _ _) ?_
    refine bind_eq_of_eq_some (looseMinutes_clockText hw) ?_
    refine bind_eq_of_eq_some (looseSeconds_secondText hw) ?_
    rfl
  have hblanks : looseTime? (fun s => some ((), s.dropWhile Text.isBlank)) w.text = none := by
    have hT : Scan.looseNumber 2 ('T' :: w.clockText) = none := by
      rw [Scan.looseNumber, List.dropWhile_cons_of_neg (by decide)]
      exact Scan.number_cons (by decide) (by decide)
    refine bind_eq_of_eq_some hdate ?_
    refine bind_eq_of_eq_some rfl ?_
    rw [List.dropWhile_cons_of_neg (by decide)]
    exact bind_eq_none_of_eq_none (bind_eq_none_of_eq_none hT _) _
  have hminute : looseMinute? w.text = none := by
    refine bind_eq_of_eq_some hdate ?_
    refine bind_eq_of_eq_some (Scan.char_cons _ _) ?_
    refine bind_eq_of_eq_some (looseMinutes_clockText hw) ?_
    rfl
  have hday : looseDay? w.text = none := bind_eq_of_eq_some hdate rfl
  rw [Instant.ofTrimmed?, strict?_text_eq_none hyear, hgap, hblanks, hminute, hday]
  rfl

end Written

end ReportSql.Time
