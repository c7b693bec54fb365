import ReportSql.Proofs.Placeholders
import ReportSql.Proofs.Spans
import ReportSql.Proofs.Timestamps

/-!
# Bounds of windows

The bounds of a resolved window are texts of moments. Those of moments in the years 0 to 9999 are
timestamps as RFC 3339 has them, and reading one gives the moment back, so that a window with such
bounds resolves to itself. A moment in any other year has a text with a signed year, which is no
such timestamp and is refused as a bound.
-/

namespace ReportSql.Time

open ReportSql.Catalog

/-! ## Timestamps -/

/-- A timestamp in universal time by RFC 3339. -/
def IsTimestamp (s : String) : Prop :=
  ∃ p : TimestampParts, p.WellFormed ∧ s.toList = p.text

/-- **The text of a moment is a timestamp** exactly if its year has four digits. -/
theorem isTimestamp_boundText_iff {t : Instant} :
    IsTimestamp (boundText t) ↔ t.HasFourDigitYear := by
  rw [IsTimestamp, boundText, String.toList_ofList, Instant.text_eq]
  constructor
  · rintro ⟨p, hp, htext⟩
    by_contra hyear
    -- a timestamp starts with a digit, and a signed year does not
    obtain ⟨c, s, hs, hc⟩ := Written.exists_text_signed hyear
    obtain ⟨d, ds, hd, hdigit⟩ := hp.year.exists_cons (by decide)
    have hhead : c = d := by
      rw [hs, TimestampParts.text, hd] at htext
      exact (List.cons.inj htext).1
    rw [← hhead, hc] at hdigit
    cases hdigit
  · intro hyear
    obtain ⟨p, hp, -, -, htext⟩ := Written.exists_timestampParts t.proper_written hyear
    exact ⟨p, hp, htext⟩

/-! ## Reading bounds -/

/-- **A bound is read back** exactly if its year has four digits; otherwise it is refused. -/
theorem readBound_boundText (t : Instant) : readBound (boundText t) =
    if t.HasFourDigitYear then .ok t else .error (.notTimestamp (boundText t)) := by
  have htrim : Text.trim (boundText t).toList = t.text := by
    rw [boundText, String.toList_ofList, t.trim_text]
  rw [readBound, Instant.ofText?, htrim]
  split_ifs with hyear
  · rw [Instant.ofTrimmed?_text hyear]
  · have hrefused : Instant.ofTrimmed? t.text = none := by
      rw [t.text_eq]
      exact Written.ofTrimmed?_text_eq_none t.proper_written hyear
    rw [hrefused]
    rfl

/-- The moments that the bounds of a window stand for, as seen from `now`. -/
inductive TimeRange.Between (now : Instant) :
    TimeRange → Option Instant → Option Instant → Prop where
  | relative {amount : Int64} {unit : TimeUnit} {start : Instant} :
    0 < amount.toInt → (unit.span? amount).bind now.earlier? = some start →
      Between now (.relative amount unit) (some start) (some now)
  | absolute {first last : Option String} {start finish : Option Instant} :
    readOpen first = .ok start → readOpen last = .ok finish → ¬(start = none ∧ finish = none) →
      Between now (.absolute first last) start finish

/-- A window resolves to the texts of the moments that its bounds stand for. -/
theorem TimeRange.resolve_eq_ok_iff {now : Instant} {range : TimeRange} {bounds : WindowBounds} :
    range.resolve now = .ok bounds ↔ ∃ start finish, range.Between now start finish ∧
      bounds = ⟨start.map boundText, finish.map boundText⟩ := by
  cases range with
  | relative amount unit =>
    rw [resolve]
    constructor
    · intro h
      split at h
      · cases h
      · rename_i hpos
        split at h
        · cases h
        · rename_i start hstart
          cases h
          exact ⟨some start, some now, .relative (Int.not_le.mp hpos) hstart, rfl⟩
    · rintro ⟨start, finish, h, rfl⟩
      obtain ⟨hpos, hstart⟩ := h
      rw [if_neg (Int.not_le.mpr hpos), hstart]
      rfl
  | absolute first last =>
    simp only [resolve, bind_eq_ok]
    constructor
    · rintro ⟨start, hstart, finish, hfinish, h⟩
      split at h
      · cases h
      · rename_i hsome
        cases h
        exact ⟨start, finish, .absolute hstart hfinish (by simpa using hsome), rfl⟩
    · rintro ⟨start, finish, h, rfl⟩
      cases h with
      | absolute hstart hfinish hsome =>
        exact ⟨start, hstart, finish, hfinish, if_neg (by simpa using hsome)⟩

theorem TimeRange.readOpen_boundText {t : Option Instant}
    (h : ∀ u, t = some u → u.HasFourDigitYear) : readOpen (t.map boundText) = .ok t := by
  cases t with
  | none => rfl
  | some u => rw [Option.map_some, readOpen, readBound_boundText, if_pos (h u rfl)]; rfl

/-- **Bounds are read back.** The text of every moment in the years 0 to 9999, to the nanosecond and
also within a leap second, is read as that moment. So a window whose bounds stand for such moments
has the same bounds when it is asked for by the texts of its bounds, whenever that is. -/
theorem bounds_are_read_back :
    (∀ t : Instant, t.HasFourDigitYear → readBound (boundText t) = .ok t) ∧
    ∀ {now : Instant} {range : TimeRange} {start finish : Option Instant} {bounds : WindowBounds},
      range.Between now start finish →
      (∀ t, start = some t ∨ finish = some t → t.HasFourDigitYear) →
      range.resolve now = .ok bounds →
      ∀ later, (TimeRange.absolute bounds.start bounds.finish).resolve later = .ok bounds := by
  refine ⟨fun t ht => by rw [readBound_boundText, if_pos ht], ?_⟩
  intro now range start finish bounds hbetween hyears hresolve later
  have hsome : ¬(start = none ∧ finish = none) := by
    cases hbetween with
    | relative => simp
    | absolute _ _ hsome => exact hsome
  obtain rfl : bounds = ⟨start.map boundText, finish.map boundText⟩ :=
    Except.ok.inj (hresolve.symm.trans (TimeRange.resolve_eq_ok_iff.mpr ⟨_, _, hbetween, rfl⟩))
  exact TimeRange.resolve_eq_ok_iff.mpr ⟨start, finish,
    .absolute (TimeRange.readOpen_boundText fun t ht => hyears t (.inl ht))
      (TimeRange.readOpen_boundText fun t ht => hyears t (.inr ht)) hsome, rfl⟩

/-- The middle of the leap second at the end of 2016. -/
def leapSecond : Instant :=
  ⟨1483228799, 1500000000, by decide, by decide, by decide⟩

/-- The moment a day before it: the leap second counts as one of the day's. -/
def dayBeforeLeapSecond : Instant :=
  ⟨1483142400, 500000000, by decide, by decide, by decide⟩

/-- A leap second is read back, and so is the window of the day before it. -/
theorem leapSecond_read_back :
    leapSecond.HasFourDigitYear ∧ readBound "2016-12-31T23:59:60.500Z" = .ok leapSecond ∧
    (TimeRange.relative 1 .days).resolve leapSecond =
      .ok ⟨some "2016-12-31T00:00:00.500Z", some "2016-12-31T23:59:60.500Z"⟩ ∧
    (TimeRange.absolute (some "2016-12-31T00:00:00.500Z") (some "2016-12-31T23:59:60.500Z")).resolve
      newYear = .ok ⟨some "2016-12-31T00:00:00.500Z", some "2016-12-31T23:59:60.500Z"⟩ := by
  have hyear : leapSecond.HasFourDigitYear := by decide +kernel
  have hyear' : dayBeforeLeapSecond.HasFourDigitYear := by decide +kernel
  have htext : boundText leapSecond = "2016-12-31T23:59:60.500Z" := by decide +kernel
  have htext' : boundText dayBeforeLeapSecond = "2016-12-31T00:00:00.500Z" := by decide +kernel
  have hbetween : (TimeRange.relative 1 .days).Between leapSecond (some dayBeforeLeapSecond)
      (some leapSecond) := .relative (by decide) (by decide)
  have hresolve := TimeRange.resolve_eq_ok_iff.mpr ⟨_, _, hbetween, rfl⟩
  obtain ⟨hread, hagain⟩ := bounds_are_read_back
  have hyears : ∀ t, some dayBeforeLeapSecond = some t ∨ some leapSecond = some t →
      t.HasFourDigitYear := by
    rintro t (h | h)
    · exact Option.some.inj h ▸ hyear'
    · exact Option.some.inj h ▸ hyear
  have hwindow := hagain hbetween hyears hresolve newYear
  have hleap := hread leapSecond hyear
  simp only [Option.map_some, htext, htext'] at hresolve hwindow hleap
  exact ⟨hyear, hleap, hresolve, hwindow⟩

end ReportSql.Time

namespace ReportSql.Statement

open ReportSql.Catalog
open ReportSql.Json (Value)
open ReportSql.Report
open ReportSql.Time

/-! ## Bounds of compiled reports -/

/-- A compiled report with a window binds the bounds of that window behind the operands. -/
theorem exists_parameters_window {r : Registry} {c : Config} {o : Options} {k : Compiled}
    (h : compile r c o = .ok k) {range : TimeRange} (hrange : c.timeRange = some range)
    {bounds : WindowBounds} (hresolve : range.resolve o.now = .ok bounds) :
    ∃ operands, List.Forall₂ OperandsOf c.filters operands ∧
      k.parameters =
        operands.flatten ++ (bounds.start.toList ++ bounds.finish.toList).map .string := by
  obtain ⟨v, joins, window, hc⟩ := compile_eq_ok_iff.mp h
  obtain ⟨vs, hvs, hparams⟩ := hc.windowValues
  rw [hrange] at hvs
  cases hvs with
  | some hresolve' =>
    obtain rfl := Except.ok.inj (hresolve.symm.trans hresolve')
    exact ⟨_, hc.resolved.operands, hparams⟩

/-- **Bounds are timestamps exactly in the years 0 to 9999.** The bounds of a resolved window are
the texts of the moments that they stand for. Where the year of such a moment has four digits, the
bound is a timestamp that the moment is read back from; where it has a sign, the bound is none, and
asking for it as a bound is refused. Either way a compiled report with the window binds it behind
the operands of its filters. -/
theorem bound_is_timestamp_by_year {now : Instant} {range : TimeRange} {bounds : WindowBounds}
    (h : range.resolve now = .ok bounds) :
    ∃ start finish, range.Between now start finish ∧
      bounds = ⟨start.map boundText, finish.map boundText⟩ ∧
      (∀ t, start = some t ∨ finish = some t →
        (t.HasFourDigitYear → IsTimestamp (boundText t) ∧ readBound (boundText t) = .ok t) ∧
        (¬t.HasFourDigitYear → ¬IsTimestamp (boundText t) ∧
          readBound (boundText t) = .error (.notTimestamp (boundText t)))) ∧
      ∀ {r : Registry} {c : Config} {o : Options} {k : Compiled}, compile r c o = .ok k →
        c.timeRange = some range → o.now = now →
        ∃ operands, List.Forall₂ OperandsOf c.filters operands ∧
          k.parameters =
            operands.flatten ++ (bounds.start.toList ++ bounds.finish.toList).map .string := by
  obtain ⟨start, finish, hbetween, hbounds⟩ := TimeRange.resolve_eq_ok_iff.mp h
  refine ⟨start, finish, hbetween, hbounds, fun t _ => ⟨fun hyear => ?_, fun hyear => ?_⟩, ?_⟩
  · exact ⟨isTimestamp_boundText_iff.mpr hyear, by rw [readBound_boundText, if_pos hyear]⟩
  · exact ⟨mt isTimestamp_boundText_iff.mp hyear, by rw [readBound_boundText, if_neg hyear]⟩
  · intro r c o k hk hrange hnow
    exact exists_parameters_window hk hrange (hnow ▸ h)

/-- Fast drives in the given time. -/
def drivesIn (window : TimeRange) : Config :=
  { fastDrives "100%" 2 with timeRange := some window }

/-- The moment three thousand years of 365 days before the beginning of 2024. -/
def antiquity : Instant :=
  .atSecond (-92903932800) (by decide)

/-- The window of the last three thousand years ends with a timestamp and starts with none. -/
theorem antiquity_to_newYear :
    (TimeRange.relative 3000 .years).resolve newYear =
      .ok ⟨some "-0975-12-29T00:00:00Z", some "2024-01-01T00:00:00Z"⟩ ∧
    (¬IsTimestamp "-0975-12-29T00:00:00Z" ∧ readBound "-0975-12-29T00:00:00Z" =
      .error (.notTimestamp "-0975-12-29T00:00:00Z")) ∧
    (IsTimestamp "2024-01-01T00:00:00Z" ∧ readBound "2024-01-01T00:00:00Z" = .ok newYear) ∧
    ∃ k, compile .telematics (drivesIn (.relative 3000 .years)) newYearOptions = .ok k ∧
      .string "-0975-12-29T00:00:00Z" ∈ k.parameters := by
  have hspan : (TimeUnit.years.span? 3000).bind newYear.earlier? = some antiquity := by
    decide +kernel
  have hstart : boundText antiquity = "-0975-12-29T00:00:00Z" := by decide +kernel
  have hfinish : boundText newYear = "2024-01-01T00:00:00Z" := by decide +kernel
  have hresolve : (TimeRange.relative 3000 .years).resolve newYear =
      .ok ⟨some (boundText antiquity), some (boundText newYear)⟩ :=
    TimeRange.resolve_eq_ok_iff.mpr ⟨_, _, .relative (by decide) hspan, rfl⟩
  have hcompiled : (compile .telematics (drivesIn (.relative 3000 .years))
      newYearOptions).toOption.map (fun k => k.parameters.length) = some 7 := by decide +kernel
  obtain ⟨k, hk, -⟩ := exists_ok_of_map hcompiled
  obtain ⟨start, finish, hbetween, -, hmoment, hbinds⟩ := bound_is_timestamp_by_year hresolve
  cases hbetween with
  | relative _ hstart' =>
    obtain rfl := Option.some.inj (hstart'.symm.trans hspan)
    obtain ⟨operands, -, hparams⟩ := hbinds hk rfl rfl
    have hrefused := (hmoment _ (.inl rfl)).2 (by decide +kernel)
    have hread := (hmoment _ (.inr rfl)).1 (by decide +kernel)
    rw [hstart] at hrefused hresolve hparams
    rw [hfinish] at hread hresolve
    exact ⟨hresolve, hrefused, hread, k, hk, by simp [hparams]⟩

/-- From the last half hour of the year 9999 on, in a time zone where it is still that year. -/
def lastHalfHour : TimeRange :=
  .absolute (some "9999-12-31T23:30:00-01:00") none

/-- The first half hour of the year 10000, where that time starts. -/
def firstHalfHour : Instant :=
  .atSecond 253402302600 (by decide)

/-- A timestamp with a year of four digits, in a time zone behind universal time, resolves to a
bound that is no timestamp and is refused as a bound; a compiled report binds it all the same. -/
theorem lastHalfHour_bound_refused :
    lastHalfHour.resolve newYear = .ok ⟨some "+10000-01-01T00:30:00Z", none⟩ ∧
    ¬IsTimestamp "+10000-01-01T00:30:00Z" ∧
    readBound "+10000-01-01T00:30:00Z" = .error (.notTimestamp "+10000-01-01T00:30:00Z") ∧
    ∃ k, compile .telematics (drivesIn lastHalfHour) newYearOptions = .ok k ∧
      .string "+10000-01-01T00:30:00Z" ∈ k.parameters := by
  have hyear : ¬firstHalfHour.HasFourDigitYear := by decide +kernel
  have htext : boundText firstHalfHour = "+10000-01-01T00:30:00Z" := by decide +kernel
  have hmeant : Instant.ofText? "9999-12-31T23:30:00-01:00" = some firstHalfHour := by
    decide +kernel
  have hread : TimeRange.readOpen (some "9999-12-31T23:30:00-01:00") =
      .ok (some firstHalfHour) := by
    rw [TimeRange.readOpen, readBound, hmeant]
    rfl
  have hresolve : lastHalfHour.resolve newYear = .ok ⟨some (boundText firstHalfHour), none⟩ :=
    TimeRange.resolve_eq_ok_iff.mpr
      ⟨some firstHalfHour, none, .absolute hread rfl (by simp), rfl⟩
  have hstamp := mt isTimestamp_boundText_iff.mp hyear
  have hrefused := readBound_boundText firstHalfHour
  rw [if_neg hyear] at hrefused
  have hcompiled : (compile .telematics (drivesIn lastHalfHour) newYearOptions).toOption.map
      (fun k => k.parameters.length) = some 6 := by decide +kernel
  obtain ⟨k, hk, -⟩ := exists_ok_of_map hcompiled
  obtain ⟨operands, -, hparams⟩ := exists_parameters_window hk rfl hresolve
  rw [htext] at hresolve hstamp hrefused hparams
  exact ⟨hresolve, hstamp, hrefused, k, hk, by simp [hparams]⟩

end ReportSql.Statement
