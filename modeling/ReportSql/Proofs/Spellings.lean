import ReportSql.Proofs.Timestamps
import ReportSql.Time.Window

/-!
# Spellings of moments

A moment can be written with the mark of universal time or without it, with a blank in place of the
`T`, and in the local time of a zone with the offset behind it; at the start of a minute or of a day
it can be written without the seconds or the time of day. The forms are tried one after another, and
more than one of them can read the same start of a text, so that each spelling is followed through
the forms that are tried before the one that takes it. `spellings_agree` says that all spellings are
read as the moment.
-/

namespace ReportSql.Time

open ReportSql.Decimal (StartsWithout startsWithout_append startsWithout_cons startsWithout_nil)

/-! ## Blanks at the ends -/

theorem trim_append {before after : List Char} (hbefore : ∀ c ∈ before, Text.isBlank c = true)
    (hafter : ∀ c ∈ after, Text.isBlank c = true) (s : List Char) :
    Text.trim (before ++ s ++ after) = Text.trim s := by
  have hend : after.dropWhile Text.isBlank = [] := List.dropWhile_eq_nil_iff.mpr hafter
  rw [Text.trim, List.append_assoc, List.dropWhile_append_of_pos hbefore, List.dropWhile_append]
  split
  · rename_i hs
    rw [hend, Text.trim, List.isEmpty_iff.mp hs]
  · rw [List.reverse_append,
      List.dropWhile_append_of_pos fun c hc => hafter c (List.mem_reverse.mp hc), Text.trim]

theorem readBound_append {before after : List Char} (hbefore : ∀ c ∈ before, Text.isBlank c = true)
    (hafter : ∀ c ∈ after, Text.isBlank c = true) (s : List Char) :
    readBound (.ofList (before ++ s ++ after)) = readBound (.ofList s) := by
  simp only [readBound, Instant.ofText?, String.toList_ofList, trim_append hbefore hafter]

theorem readBound_eq_ok {s : List Char} {t : Instant} (htrim : Text.trim s = s)
    (h : Instant.ofTrimmed? s = some t) : readBound (.ofList s) = .ok t := by
  rw [readBound, Instant.ofText?, String.toList_ofList, htrim, h]

/-! ## What parts stand for -/

theorem Date.dayNumber_mem {d : Date} (hd : d.Valid) (hyear : 0 ≤ d.year ∧ d.year ≤ 9999) :
    -800000 ≤ d.dayNumber ∧ d.dayNumber ≤ 3000000 := by
  obtain ⟨-, -, -, hday⟩ := hd
  have hlast := daysInMonth_le d.year d.month
  simp only [dayNumber]
  omega

namespace Written

variable {w : Written}

/-- The seconds from the start of 1970 on a clock that shows the date and the time of day. -/
def seconds (w : Written) : Int :=
  w.date.dayNumber * 86400 + (w.hour * 3600 + w.minute * 60 + w.second : Nat)

/-- Outside of leap seconds the moment is as far from 1970 as the clock shows, up to the offset. -/
theorem instant?_eq_some_iff (hw : w.Proper) (hsecond : w.second ≤ 59) {offset : Int}
    {t : Instant} :
    w.instant? offset = some t ↔ t.seconds + offset = w.seconds ∧ t.nanos = w.nanos := by
  have hleap : w.second ≠ 60 := by omega
  rw [instant?, if_pos ⟨hw.date, hw.hour, hw.minute, hw.second, hw.nanos⟩,
    Instant.ofParts?_eq_some_iff]
  simp only [if_neg hleap, Nat.min_eq_left hsecond, seconds]
  omega

theorem seconds_mem (hw : w.Proper) (hyear : 0 ≤ w.date.year ∧ w.date.year ≤ 9999) :
    -69120000000 ≤ w.seconds ∧ w.seconds ≤ 260000000000 := by
  have hday := Date.dayNumber_mem hw.date hyear
  obtain ⟨-, hhour, hminute, hsecond, -⟩ := hw
  simp only [seconds]
  omega

end Written

/-- The parts spell a moment in the time of a zone with that offset: the clock of the zone shows
them, to the nanosecond and outside of leap seconds. -/
structure TimestampParts.Spells (p : TimestampParts) (offset : Int) (t : Instant) : Prop where
  wellFormed : p.WellFormed
  second_le : Decimal.digitsValue p.second ≤ 59
  fraction_le : ∀ f ∈ p.fraction, f.length ≤ 9
  seconds : t.seconds + offset = p.written.seconds
  nanos : t.nanos = fractionNanos p.fraction

namespace TimestampParts

variable {p : TimestampParts} {offset : Int} {t : Instant}

theorem WellFormed.isFraction (hp : p.WellFormed) (hlength : ∀ f ∈ p.fraction, f.length ≤ 9) :
    IsFraction p.fraction :=
  fun f hf => ⟨hp.fraction f hf, hlength f hf⟩

theorem WellFormed.proper_written (hp : p.WellFormed) (hf : IsFraction p.fraction) :
    p.written.Proper :=
  ⟨hp.date_valid, hp.hour_le, hp.minute_le, hp.second_le, hf.nanos_lt⟩

/-- Four digits stand for a year that is written with four digits. -/
theorem WellFormed.year_mem (hp : p.WellFormed) :
    0 ≤ p.written.date.year ∧ p.written.date.year ≤ 9999 := by
  have hlt := digitsValue_lt hp.year.isDigit
  rw [hp.year.length] at hlt
  simp only [written]
  omega

theorem Spells.isFraction (h : p.Spells offset t) : IsFraction p.fraction :=
  h.wellFormed.isFraction h.fraction_le

theorem Spells.instant? (h : p.Spells offset t) : p.written.instant? offset = some t :=
  (Written.instant?_eq_some_iff (h.wellFormed.proper_written h.isFraction) h.second_le).mpr
    ⟨h.seconds, h.nanos⟩

/-- Every date with a year of four digits and every time of day spell a moment. -/
theorem WellFormed.exists_spells (hp : p.WellFormed) (hsecond : Decimal.digitsValue p.second ≤ 59)
    (hlength : ∀ f ∈ p.fraction, f.length ≤ 9) : ∃ t, p.Spells 0 t := by
  have hf := hp.isFraction hlength
  have hnanos := hf.nanos_lt
  have hrange := Written.seconds_mem (hp.proper_written hf) hp.year_mem
  exact ⟨⟨p.written.seconds, fractionNanos p.fraction,
    by simp only [earliest, latest]; omega, by omega, by omega⟩,
    hp, hsecond, hlength, Int.add_zero _, rfl⟩

end TimestampParts

/-! ## Zones -/

/-- The offset of a zone from universal time, in hours and minutes. -/
structure ZoneOffset where
  /-- Is the time of the zone behind universal time? -/
  behind : Bool
  hours : Fin 24
  minutes : Fin 60

namespace ZoneOffset

def seconds (o : ZoneOffset) : Int :=
  if o.behind then -(o.hours * 3600 + o.minutes * 60 : Int) else o.hours * 3600 + o.minutes * 60

/-- The sign, two digits for the hours and two for the minutes. -/
def text (o : ZoneOffset) : List Char :=
  (if o.behind then '-' else '+')
    :: (Instant.padded 2 o.hours ++ ':' :: Instant.padded 2 o.minutes)

theorem seconds_mem (o : ZoneOffset) : -86400 < o.seconds ∧ o.seconds < 86400 := by
  obtain ⟨behind, ⟨hours, hhours⟩, ⟨minutes, hminutes⟩⟩ := o
  simp only [seconds]
  split <;> omega

theorem offset_text (o : ZoneOffset) : Scan.offset o.text = some (o.seconds, []) := by
  obtain ⟨behind, ⟨hours, hhours⟩, ⟨minutes, hminutes⟩⟩ := o
  have hhour : Scan.number 2 2 (Instant.padded 2 hours ++ ':' :: Instant.padded 2 minutes) =
      some (hours, ':' :: Instant.padded 2 minutes) :=
    Scan.number_padded (by decide) (by omega) _
  have hminute : Scan.number 2 2 (Instant.padded 2 minutes ++ []) = some (minutes, []) :=
    Scan.number_padded (by decide) (by omega) _
  have hbelow : hours ≤ 23 ∧ minutes ≤ 59 := by omega
  rw [List.append_nil] at hminute
  cases behind <;> simp [Scan.offset, text, seconds, hhour, hminute, Scan.char_cons, hbelow]

end ZoneOffset

/-- The text behind a time of day tells the offset of its zone. -/
structure MarksZone (zone : List Char) (offset : Int) : Prop where
  offset_eq : Scan.offset zone = some (offset, [])
  startsWithout : StartsWithout (fun c => c.isDigit || c == '.') zone
  isBlank : ∀ c ∈ zone, Text.isBlank c = false

theorem marksZone_universal : MarksZone ['Z'] 0 :=
  ⟨Scan.offset_mark, startsWithout_cons (by decide) _, List.forall_mem_singleton.mpr rfl⟩

theorem ZoneOffset.marksZone (o : ZoneOffset) : MarksZone o.text o.seconds := by
  refine ⟨o.offset_text, ?_, ?_⟩
  · rw [text]
    split <;> exact startsWithout_cons (by decide) _
  · intro c hc
    rcases List.mem_cons.mp hc with rfl | hc
    · split <;> decide
    · rcases List.mem_append.mp hc with hc | hc
      · exact isBlank_of_isDigit (isDigit_padded c hc)
      · rcases List.mem_cons.mp hc with rfl | hc
        · decide
        · exact isBlank_of_isDigit (isDigit_padded c hc)

/-- The calendar year of a moment in the time of a zone with that offset. -/
def Instant.localYear (t : Instant) (offset : Int) : Int :=
  (Date.ofDayNumber ((t.seconds + offset) / 86400)).year

theorem Instant.second_written_le {t : Instant} (h : t.nanos < 1000000000) :
    t.written.second ≤ 59 := by
  have hisLeap : t.isLeap = false := decide_eq_false (by omega)
  simp only [written, hisLeap, Bool.false_eq_true, if_false]
  omega

/-- A moment has a spelling in the time of every zone where its year has four digits, with the same
digits behind the point. -/
theorem TimestampParts.Spells.exists_local {p : TimestampParts} {t : Instant} (h : p.Spells 0 t)
    {o : ZoneOffset} (hyear : 0 ≤ t.localYear o.seconds ∧ t.localYear o.seconds ≤ 9999) :
    ∃ q : TimestampParts, q.fraction = p.fraction ∧ q.Spells o.seconds t := by
  have hproper := h.wellFormed.proper_written h.isFraction
  have hrange := Written.seconds_mem hproper h.wellFormed.year_mem
  have hzone := o.seconds_mem
  have hseconds := h.seconds
  have hnanos : t.nanos < 1000000000 := h.nanos ▸ h.isFraction.nanos_lt
  -- the moment at which a clock in universal time shows what the clock of the zone shows at `t`
  obtain ⟨u, hu, hu'⟩ : ∃ u : Instant, u.seconds = t.seconds + o.seconds ∧ u.nanos = t.nanos :=
    ⟨⟨_, _, by simp only [earliest, latest]; omega, t.nanos_lt, by omega⟩, rfl, rfl⟩
  have hyear' : 0 ≤ u.written.date.year ∧ u.written.date.year ≤ 9999 := by
    simpa only [Instant.localYear, Instant.written, hu] using hyear
  have hsecond := Instant.second_written_le (t := u) (by omega)
  obtain ⟨hclock, hfraction⟩ :=
    (Written.instant?_eq_some_iff u.proper_written hsecond).mp u.instant?_written
  have hwritten : (u.written.timestampParts p.fraction).written = u.written :=
    Written.written_timestampParts hyear'.1 (by rw [← h.nanos, ← hu', hfraction])
  refine ⟨u.written.timestampParts p.fraction, rfl, ?_, ?_, h.fraction_le, ?_, h.nanos⟩
  · exact Written.wellFormed_timestampParts u.proper_written hyear' h.wellFormed.fraction
  · rwa [Written.timestampParts, digitsValue_padded]
  · rw [hwritten]
    omega

/-! ## The forms -/

namespace TimestampParts

variable {p : TimestampParts} {gap : Char} {zone : List Char} {t : Instant}

/-- The date alone. -/
def dateText (p : TimestampParts) : List Char :=
  p.year ++ '-' :: p.month ++ '-' :: p.day

/-- The date with the hour and the minute. -/
def minuteText (p : TimestampParts) : List Char :=
  p.dateText ++ 'T' :: p.hour ++ ':' :: p.minute

/-- The parts with the second and what is behind it set to zero. -/
def startOfMinute (p : TimestampParts) : TimestampParts :=
  { p with second := ['0', '0'], fraction := none }

/-- The parts with the time of day set to midnight. -/
def startOfDay (p : TimestampParts) : TimestampParts :=
  { p.startOfMinute with hour := ['0', '0'], minute := ['0', '0'] }

theorem digitsOf_zeros : DigitsOf 2 ['0', '0'] := by
  decide

theorem digitsValue_zeros_le (n : Nat) : Decimal.digitsValue ['0', '0'] ≤ n :=
  (Decimal.digitsValue_zeros 2).trans_le (Nat.zero_le n)

theorem WellFormed.startOfMinute (hp : p.WellFormed) : p.startOfMinute.WellFormed :=
  { hp with
    second := digitsOf_zeros
    fraction := nofun
    second_le := digitsValue_zeros_le _ }

theorem WellFormed.startOfDay (hp : p.WellFormed) : p.startOfDay.WellFormed :=
  { hp.startOfMinute with
    hour := digitsOf_zeros
    minute := digitsOf_zeros
    hour_le := digitsValue_zeros_le _
    minute_le := digitsValue_zeros_le _ }

/-- The time of day behind a spelled date. -/
def clockText (p : TimestampParts) (zone : List Char) : List Char :=
  p.hour ++ ':' :: (p.minute ++ ':' :: (p.second ++
    (Decimal.Numeral.fractionText p.fraction ++ zone)))

theorem spelled_eq : p.spelled gap zone = p.dateText ++ gap :: p.clockText zone := by
  simp [spelled, dateText, clockText]

/-! ### No blanks at the ends -/

/-- The text of a date does not start with a blank, so only the end of what follows counts. -/
theorem trim_dateText_append (hp : p.WellFormed) (s : List Char) {last : List Char}
    (hne : last ≠ []) (hlast : ∀ c ∈ last, Text.isBlank c = false) :
    Text.trim (p.dateText ++ s ++ last) = p.dateText ++ s ++ last := by
  have h := trim_enclosed ('-' :: p.month ++ '-' :: p.day ++ s) (hp.year.ne_nil (by decide))
    hp.year.isBlank hne hlast
  simpa [dateText] using h

theorem trim_spelled (hp : p.WellFormed) (hf : IsFraction p.fraction)
    (hzone : ∀ c ∈ zone, Text.isBlank c = false) :
    Text.trim (p.spelled gap zone) = p.spelled gap zone := by
  have hfraction : ∀ c ∈ Decimal.Numeral.fractionText p.fraction, Text.isBlank c = false := by
    cases h : p.fraction with
    | none => exact nofun
    | some ds =>
      intro c hc
      rcases List.mem_cons.mp hc with rfl | hc
      · decide
      · exact isBlank_of_isDigit ((hf ds h).1.2 c hc)
  have hlast : ∀ c ∈ p.second ++ (Decimal.Numeral.fractionText p.fraction ++ zone),
      Text.isBlank c = false := by
    intro c hc
    rcases List.mem_append.mp hc with hc | hc
    · exact hp.second.isBlank c hc
    · exact (List.mem_append.mp hc).elim (hfraction c) (hzone c)
  have h := trim_dateText_append hp (gap :: p.hour ++ ':' :: p.minute ++ [':'])
    (List.append_ne_nil_of_left_ne_nil (hp.second.ne_nil (by decide)) _) hlast
  simpa [spelled, dateText] using h

theorem trim_minuteText (hp : p.WellFormed) : Text.trim p.minuteText = p.minuteText := by
  have h := trim_dateText_append hp ('T' :: p.hour ++ [':']) (hp.minute.ne_nil (by decide))
    hp.minute.isBlank
  simpa [minuteText] using h

theorem trim_dateText (hp : p.WellFormed) : Text.trim p.dateText = p.dateText := by
  have h := trim_enclosed ('-' :: p.month ++ ['-']) (hp.year.ne_nil (by decide)) hp.year.isBlank
    (hp.day.ne_nil (by decide)) hp.day.isBlank
  simpa [dateText] using h

/-! ### Lenient reading -/

/-- The lenient forms read a date as the strict form does. -/
theorem looseDate_dateText (hp : p.WellFormed) (s : List Char) :
    Written.looseDate (p.dateText ++ s) = some (p.written.date, s) := by
  have hyear : ∀ s, StartsWithout Char.isDigit s →
      Scan.looseYear (p.year ++ s) = some ((Decimal.digitsValue p.year : Int), s) := by
    intro s hs
    obtain ⟨c, rest, hcons, hc⟩ := hp.year.exists_cons (by decide)
    have hstart := startsWithout_append (hp.year.ne_nil (by decide)) hp.year.isBlank s
    rw [Scan.looseYear, hstart.dropWhile_eq]
    -- a digit is no sign
    split
    · rename_i h
      obtain rfl : c = '-' := by rw [hcons] at h; exact (List.cons.inj h).1
      cases hc
    · rename_i h
      obtain rfl : c = '+' := by rw [hcons] at h; exact (List.cons.inj h).1
      cases hc
    · rw [Scan.number_append hp.year.isDigit (by rw [hp.year.length]; decide) hp.year.length.le
        (.inr hs)]
      rfl
  simp only [dateText, List.append_assoc, List.cons_append]
  exact Written.looseDate_append hyear hp.month hp.day s

/-- A date and a time of day are read by a lenient form that passes what stands between them. -/
theorem looseTime?_spelled (hp : p.WellFormed) (hf : IsFraction p.fraction)
    {scan : Scan Unit} (hscan : scan (gap :: p.clockText []) = some ((), p.clockText [])) :
    Written.looseTime? scan (p.spelled gap []) = p.written.instant? 0 := by
  rw [spelled_eq]
  refine bind_eq_of_eq_some (looseDate_dateText hp _) ?_
  refine bind_eq_of_eq_some hscan ?_
  refine bind_eq_of_eq_some (Written.looseMinutes_append hp.hour hp.minute _) ?_
  exact bind_eq_of_eq_some (Written.looseSeconds_append hp.second hf (startsWithout_nil _)) rfl

/-! ### Every spelling through the forms -/

/-- With an offset or the mark of universal time the strict form takes the text. -/
theorem ofTrimmed?_spelled (hp : p.WellFormed) (hf : IsFraction p.fraction)
    (hgap : gap = 'T' ∨ gap = ' ') {offset : Int} (hzone : MarksZone zone offset)
    (ht : p.written.instant? offset = some t) :
    Instant.ofTrimmed? (p.spelled gap zone) = some t := by
  rw [Instant.ofTrimmed?, strict?_spelled hp hf hgap hzone.startsWithout, hzone.offset_eq,
    Option.bind_some]
  simp only [List.isEmpty_nil, if_true, ht]
  rfl

/-- Without one it is taken by the lenient form with the same gap. -/
theorem ofTrimmed?_unzoned (hp : p.WellFormed) (hf : IsFraction p.fraction)
    (hgap : gap = 'T' ∨ gap = ' ') (ht : p.written.instant? 0 = some t) :
    Instant.ofTrimmed? (p.spelled gap []) = some t := by
  have hstrict : Written.strict? (p.spelled gap []) = none := by
    rw [strict?_spelled hp hf hgap (startsWithout_nil _)]
    rfl
  rcases hgap with rfl | rfl
  · rw [Instant.ofTrimmed?, hstrict, looseTime?_spelled hp hf (Scan.char_cons _ _), ht]
    rfl
  · have hT : Written.looseTime? (Scan.char 'T') (p.spelled ' ' []) = none := by
      rw [spelled_eq]
      exact bind_eq_of_eq_some (looseDate_dateText hp _) rfl
    have hblank : (' ' :: p.clockText []).dropWhile Text.isBlank = p.clockText [] := by
      rw [List.dropWhile_cons_of_pos (by decide), clockText,
        (startsWithout_append (hp.hour.ne_nil (by decide)) hp.hour.isBlank _).dropWhile_eq]
    rw [Instant.ofTrimmed?, hstrict, hT, looseTime?_spelled hp hf (by rw [hblank]), ht]
    rfl

/-- The strict form wants seconds, and before them a time of day. -/
theorem strict?_shortened (hp : p.WellFormed) :
    Written.strict? p.minuteText = none ∧ Written.strict? p.dateText = none := by
  constructor
  · rw [minuteText, dateText, ← List.append_nil p.minute]
    simp only [List.append_assoc, List.cons_append]
    refine bind_eq_of_eq_some (hp.year.number _) ?_
    refine bind_eq_of_eq_some (Scan.char_cons _ _) ?_
    refine bind_eq_of_eq_some (hp.month.number _) ?_
    refine bind_eq_of_eq_some (Scan.char_cons _ _) ?_
    refine bind_eq_of_eq_some (hp.day.number _) ?_
    refine bind_eq_of_eq_some (hp.hour.number _) ?_
    refine bind_eq_of_eq_some (Scan.char_cons _ _) ?_
    exact bind_eq_of_eq_some (hp.minute.number _) rfl
  · rw [dateText, ← List.append_nil p.day]
    simp only [List.append_assoc, List.cons_append]
    refine bind_eq_of_eq_some (hp.year.number _) ?_
    refine bind_eq_of_eq_some (Scan.char_cons _ _) ?_
    refine bind_eq_of_eq_some (hp.month.number _) ?_
    refine bind_eq_of_eq_some (Scan.char_cons _ _) ?_
    exact bind_eq_of_eq_some (hp.day.number _) rfl

/-- Without seconds a text is taken by the form for it: the `T` is no blank, and there is no colon
behind the minute. -/
theorem ofTrimmed?_minuteText (hp : p.WellFormed)
    (ht : p.startOfMinute.written.instant? 0 = some t) :
    Instant.ofTrimmed? p.minuteText = some t := by
  have hdate : Written.looseDate p.minuteText =
      some (p.written.date, 'T' :: (p.hour ++ ':' :: (p.minute ++ []))) := by
    rw [minuteText, List.append_assoc, List.cons_append, List.append_nil, looseDate_dateText hp]
  have hclock := Written.looseMinutes_append hp.hour hp.minute []
  have hgap : Written.looseTime? (Scan.char 'T') p.minuteText = none := by
    refine bind_eq_of_eq_some hdate ?_
    refine bind_eq_of_eq_some (Scan.char_cons _ _) ?_
    exact bind_eq_of_eq_some hclock rfl
  have hblanks : Written.looseTime? (fun s => some ((), s.dropWhile Text.isBlank)) p.minuteText =
      none := bind_eq_of_eq_some hdate rfl
  have hminute : Written.looseMinute? p.minuteText = some t := by
    refine bind_eq_of_eq_some hdate ?_
    refine bind_eq_of_eq_some (Scan.char_cons _ _) ?_
    exact bind_eq_of_eq_some hclock ht
  rw [Instant.ofTrimmed?, (strict?_shortened hp).1, hgap, hblanks, hminute]
  rfl

/-- A date alone is taken by the last form. -/
theorem ofTrimmed?_dateText (hp : p.WellFormed)
    (ht : p.startOfDay.written.instant? 0 = some t) :
    Instant.ofTrimmed? p.dateText = some t := by
  have hdate := looseDate_dateText hp []
  rw [List.append_nil] at hdate
  have hgap : Written.looseTime? (Scan.char 'T') p.dateText = none :=
    bind_eq_of_eq_some hdate rfl
  have hblanks : Written.looseTime? (fun s => some ((), s.dropWhile Text.isBlank)) p.dateText =
      none := bind_eq_of_eq_some hdate rfl
  have hminute : Written.looseMinute? p.dateText = none := bind_eq_of_eq_some hdate rfl
  have hday : Written.looseDay? p.dateText = some t := bind_eq_of_eq_some hdate ht
  rw [Instant.ofTrimmed?, (strict?_shortened hp).2, hgap, hblanks, hminute, hday]
  rfl

/-! ### Reading spellings -/

theorem Spells.readBound_spelled {offset : Int} (h : p.Spells offset t)
    (hgap : gap = 'T' ∨ gap = ' ') (hzone : MarksZone zone offset) :
    readBound (.ofList (p.spelled gap zone)) = .ok t :=
  readBound_eq_ok (trim_spelled h.wellFormed h.isFraction hzone.isBlank)
    (ofTrimmed?_spelled h.wellFormed h.isFraction hgap hzone h.instant?)

/-- In universal time the mark can be left out. -/
theorem Spells.readBound_universal (h : p.Spells 0 t) (hgap : gap = 'T' ∨ gap = ' ')
    (hzone : zone = [] ∨ zone = ['Z']) : readBound (.ofList (p.spelled gap zone)) = .ok t := by
  rcases hzone with rfl | rfl
  · exact readBound_eq_ok (trim_spelled h.wellFormed h.isFraction nofun)
      (ofTrimmed?_unzoned h.wellFormed h.isFraction hgap h.instant?)
  · exact h.readBound_spelled hgap marksZone_universal

theorem readBound_minuteText (hp : p.WellFormed) (h : p.startOfMinute.Spells 0 t) :
    readBound (.ofList p.minuteText) = .ok t :=
  readBound_eq_ok (trim_minuteText hp) (ofTrimmed?_minuteText hp h.instant?)

theorem readBound_dateText (hp : p.WellFormed) (h : p.startOfDay.Spells 0 t) :
    readBound (.ofList p.dateText) = .ok t :=
  readBound_eq_ok (trim_dateText hp) (ofTrimmed?_dateText hp h.instant?)

theorem WellFormed.exists_startOfMinute (hp : p.WellFormed) : ∃ t, p.startOfMinute.Spells 0 t :=
  hp.startOfMinute.exists_spells (digitsValue_zeros_le _) nofun

theorem WellFormed.exists_startOfDay (hp : p.WellFormed) : ∃ t, p.startOfDay.Spells 0 t :=
  hp.startOfDay.exists_spells (digitsValue_zeros_le _) nofun

end TimestampParts

/-! ## Main result -/

/-- **All spellings of a moment agree.** Let the parts be those of a date with a year of four digits
and of a time of day outside of leap seconds, with at most nine digits behind the point. Then they
spell a moment, which is read from the spellings in universal time with `T` or a blank and with the
mark or without it, and from every spelling in the time of a zone with its offset behind it; there
is one in each zone where the year of the moment has four digits. The date with hour and minute is
read as the start of the minute, and the date alone as midnight. Blanks around a text change nothing
in how it is read, whatever the text is. -/
theorem spellings_agree {p : TimestampParts} (hp : p.WellFormed)
    (hsecond : Decimal.digitsValue p.second ≤ 59) (hlength : ∀ f ∈ p.fraction, f.length ≤ 9) :
    (∃ t, p.Spells 0 t ∧
      (∀ gap zone, gap = 'T' ∨ gap = ' ' → zone = [] ∨ zone = ['Z'] →
        readBound (.ofList (p.spelled gap zone)) = .ok t) ∧
      ∀ o : ZoneOffset,
        (0 ≤ t.localYear o.seconds ∧ t.localYear o.seconds ≤ 9999 →
          ∃ q : TimestampParts, q.fraction = p.fraction ∧ q.Spells o.seconds t) ∧
        ∀ q : TimestampParts, q.Spells o.seconds t → ∀ gap, gap = 'T' ∨ gap = ' ' →
          readBound (.ofList (q.spelled gap o.text)) = .ok t) ∧
    (∃ t, p.startOfMinute.Spells 0 t ∧ readBound (.ofList p.minuteText) = .ok t ∧
      readBound (.ofList (p.startOfMinute.spelled 'T' [])) = .ok t) ∧
    (∃ t, p.startOfDay.Spells 0 t ∧ readBound (.ofList p.dateText) = .ok t ∧
      readBound (.ofList (p.startOfDay.spelled 'T' [])) = .ok t) ∧
    ∀ before s after : List Char, (∀ c ∈ before, Text.isBlank c = true) →
      (∀ c ∈ after, Text.isBlank c = true) →
      readBound (.ofList (before ++ s ++ after)) = readBound (.ofList s) := by
  refine ⟨?_, ?_, ?_, fun before s after hbefore hafter => readBound_append hbefore hafter s⟩
  · obtain ⟨t, ht⟩ := hp.exists_spells hsecond hlength
    refine ⟨t, ht, fun gap zone => ht.readBound_universal, fun o => ⟨ht.exists_local, ?_⟩⟩
    exact fun q hq gap hgap => hq.readBound_spelled hgap o.marksZone
  · obtain ⟨t, ht⟩ := hp.exists_startOfMinute
    exact ⟨t, ht, TimestampParts.readBound_minuteText hp ht,
      ht.readBound_universal (.inl rfl) (.inl rfl)⟩
  · obtain ⟨t, ht⟩ := hp.exists_startOfDay
    exact ⟨t, ht, TimestampParts.readBound_dateText hp ht,
      ht.readBound_universal (.inl rfl) (.inl rfl)⟩

/-- Half an hour into the year 2000, in universal time. -/
def newYearNight : TimestampParts where
  year := ['2', '0', '0', '0']
  month := ['0', '1']
  day := ['0', '1']
  hour := ['0', '0']
  minute := ['3', '0']
  second := ['1', '5']
  fraction := some ['2', '5']

/-- Half an hour before the year 2000, in the time of a zone. -/
def oldYearNight : TimestampParts where
  year := ['1', '9', '9', '9']
  month := ['1', '2']
  day := ['3', '1']
  hour := ['2', '3']
  minute := ['3', '0']
  second := ['1', '5']
  fraction := some ['2', '5']

/-- The moment that both nights spell, an hour behind universal time the latter. -/
def nightMoment : Instant :=
  ⟨946686615, 250000000, by decide, by decide, by decide⟩

/-- The spellings of one moment in two years. -/
theorem newYearNight_spellings :
    newYearNight.WellFormed ∧ newYearNight.Spells 0 nightMoment ∧
    oldYearNight.Spells (ZoneOffset.mk true 1 0).seconds nightMoment ∧
    readBound "2000-01-01T00:30:15.25" = .ok nightMoment ∧
    readBound "2000-01-01 00:30:15.25Z" = .ok nightMoment ∧
    readBound "1999-12-31T23:30:15.25-01:00" = .ok nightMoment ∧
    readBound "2000-01-01T00:30" = .ok (.atSecond 946686600 (by decide)) ∧
    readBound "2000-01-01" = .ok (.atSecond 946684800 (by decide)) ∧
    readBound "\t2000-01-01 \n" = readBound "2000-01-01" := by
  have hfraction : ∀ f ∈ some ['2', '5'], f ≠ [] ∧ ∀ c ∈ f, c.isDigit = true := by
    rintro f ⟨⟩
    exact ⟨by decide, List.all_eq_true.mp rfl⟩
  have hnew : newYearNight.WellFormed :=
    ⟨by decide, by decide, by decide, by decide, by decide, by decide, hfraction, by decide,
      by decide, by decide, by decide⟩
  have hold : oldYearNight.WellFormed :=
    ⟨by decide, by decide, by decide, by decide, by decide, by decide, hfraction, by decide,
      by decide, by decide, by decide⟩
  have hlength : ∀ f ∈ newYearNight.fraction, f.length ≤ 9 := by
    rintro f ⟨⟩
    decide
  obtain ⟨⟨t, ht, huniversal, hzoned⟩, ⟨m, hm, hminute, -⟩, ⟨d, hd, hday, -⟩, hblanks⟩ :=
    spellings_agree hnew (by decide) hlength
  have hspelled : oldYearNight.Spells (ZoneOffset.mk true 1 0).seconds nightMoment :=
    ⟨hold, by decide, by rintro f ⟨⟩; decide, by decide, by decide⟩
  obtain rfl : t = nightMoment :=
    Option.some.inj (ht.instant?.symm.trans (by decide +kernel))
  obtain rfl : m = .atSecond 946686600 (by decide) :=
    Option.some.inj (hm.instant?.symm.trans (by decide +kernel))
  obtain rfl : d = .atSecond 946684800 (by decide) :=
    Option.some.inj (hd.instant?.symm.trans (by decide +kernel))
  refine ⟨hnew, ht, hspelled, ?_, ?_, ?_, hminute, hday, ?_⟩
  · exact huniversal 'T' [] (.inl rfl) (.inl rfl)
  · exact huniversal ' ' ['Z'] (.inr rfl) (.inr rfl)
  · exact (hzoned ⟨true, 1, 0⟩).2 oldYearNight hspelled 'T' (.inl rfl)
  · exact hblanks ['\t'] newYearNight.dateText [' ', '\n'] (List.all_eq_true.mp rfl)
      (List.all_eq_true.mp rfl)

end ReportSql.Time
