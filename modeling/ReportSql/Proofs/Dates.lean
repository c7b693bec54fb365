import ReportSql.Time.Calendar

/-!
# Days and dates

The date of a day occurs in the calendar, and its number is the day: `ofDayNumber_valid` and
`dayNumber_ofDayNumber`. Both go by the place of the day in its era of 400 years, which are counted
from a first of March: so many full centuries, then so many full spells of four years, so many full
years, and so many days. The last day of a spell is a leap day, except at the end of the first three
centuries.
-/

namespace ReportSql.Time.Date

/-! ## The place of a day in its era -/

/-- The day of the era lies behind so many centuries, spells of four years, years and days. -/
structure PlaceInEra (dayOfEra century spell year day : Int) : Prop where
  day_eq : dayOfEra = 36524 * century + 1461 * spell + 365 * year + day
  century_mem : 0 ≤ century ∧ century ≤ 3
  spell_mem : 0 ≤ spell ∧ spell ≤ 24
  year_mem : 0 ≤ year ∧ year ≤ 3
  day_mem : 0 ≤ day ∧ day ≤ 365
  /-- A leap day ends a spell, but not the last spell of a century that another one follows. -/
  leap : day = 365 → year = 3 ∧ (spell = 24 → century = 3)

theorem exists_placeInEra {d : Int} (hd : 0 ≤ d ∧ d < 146097) :
    ∃ century spell year day, PlaceInEra d century spell year day := by
  obtain ⟨c, hc⟩ : ∃ c, c = min (d / 36524) 3 := ⟨_, rfl⟩
  obtain ⟨q, hq⟩ : ∃ q, q = (d - 36524 * c) / 1461 := ⟨_, rfl⟩
  obtain ⟨a, ha⟩ : ∃ a, a = min ((d - 36524 * c - 1461 * q) / 365) 3 := ⟨_, rfl⟩
  refine ⟨c, q, a, d - 36524 * c - 1461 * q - 365 * a, ?_, ?_, ?_, ?_, ?_, ?_⟩
  all_goals omega

namespace PlaceInEra

variable {d c q a t : Int} (h : PlaceInEra d c q a t)
include h

theorem yearOfEra_eq : (d - d / 1460 + d / 36524 - d / 146096) / 365 = 100 * c + 4 * q + a := by
  obtain ⟨hd, hc, hq, ha, ht, hleap⟩ := h
  -- a spell counts one day more than 1460, and a century 24 more than 25 times 1460
  obtain ⟨e, he⟩ : ∃ e, e = (24 * c + q + 365 * a + t) / 1460 := ⟨_, rfl⟩
  have hspells : d / 1460 = 25 * c + q + e := by omega
  have hleapDay : t = 365 → e = 1 := by omega
  have hcenturies : d / 36524 - d / 146096 = c ∧ (d / 146096 = 1 → t = 365) := by
    obtain ⟨r, hr⟩ : ∃ r, r = 1461 * q + 365 * a + t := ⟨_, rfl⟩
    by_cases hlast : r = 36524
    · have hc3 : c = 3 := by omega
      omega
    · have hr' : r < 36524 := by omega
      have hone : d / 36524 = c := by omega
      have htwo : d / 146096 = 0 := by omega
      omega
  omega

theorem dayOfYear_eq : d - (365 * (100 * c + 4 * q + a) + (100 * c + 4 * q + a) / 4
    - (100 * c + 4 * q + a) / 100) = t := by
  obtain ⟨hd, hc, hq, ha, -, -⟩ := h
  omega

/-- The year counted through all eras gives back the era, the year of the era, and its leap days. -/
theorem year_split (era : Int) :
    (100 * c + 4 * q + a + era * 400) / 400 = era ∧
    (100 * c + 4 * q + a + era * 400) % 400 = 100 * c + 4 * q + a ∧
    (100 * c + 4 * q + a) / 4 = 25 * c + q ∧ (100 * c + 4 * q + a) / 100 = c := by
  obtain ⟨-, hc, hq, ha, -, -⟩ := h
  omega

/-- A leap day is in a leap year: the calendar year that begins within the year counted from March
on. -/
theorem isLeapYear (era : Int) (ht : t = 365) :
    isLeapYear (100 * c + 4 * q + a + era * 400 + 1) = true := by
  have hc := h.century_mem
  have hq := h.spell_mem
  have hleap := h.leap ht
  simp only [Time.isLeapYear, Bool.and_eq_true, Bool.or_eq_true, beq_iff_eq, bne_iff_ne, ne_eq]
  omega

end PlaceInEra

/-! ## The date of a day -/

/-- The months of a year from March on: the month that a day of the year lies in, and the day of
that month. -/
structure PlaceInYear (dayOfYear month day : Int) : Prop where
  month_eq : month = (5 * dayOfYear + 2) / 153
  day_eq : day = dayOfYear - (153 * month + 2) / 5 + 1

theorem PlaceInYear.bounds {t m day : Int} (h : PlaceInYear t m day) (ht : 0 ≤ t ∧ t ≤ 365) :
    (0 ≤ m ∧ m ≤ 11) ∧ 1 ≤ day ∧ day ≤ 31 := by
  obtain ⟨hm, hday⟩ := h
  omega

/-- The date of a day by its place in its era and in its year. January and February are the last
months of a year counted from March on, and belong to the next calendar year. -/
theorem ofDayNumber_eq {n era d c q a t m day : Int} (hn : n + 719468 = 146097 * era + d)
    (hd : 0 ≤ d ∧ d < 146097) (hera : PlaceInEra d c q a t) (hyear : PlaceInYear t m day) :
    ofDayNumber n =
      if m < 10 then ⟨100 * c + 4 * q + a + era * 400, (m + 3).toNat, day.toNat⟩
      else ⟨100 * c + 4 * q + a + era * 400 + 1, (m - 9).toNat, day.toNat⟩ := by
  have hdiv : (n + 719468) / 146097 = era := by omega
  have hmod : (n + 719468) % 146097 = d := by omega
  have hbounds := hyear.bounds hera.day_mem
  obtain ⟨hm, hday⟩ := hyear
  simp only [ofDayNumber, hdiv, hmod, hera.yearOfEra_eq, hera.dayOfYear_eq, ← hm, ← hday]
  by_cases h : m < 10
  · simp only [if_pos h, if_neg (show ¬m + 3 ≤ 2 by omega)]
  · simp only [if_neg h, if_pos (show m - 9 ≤ 2 by omega)]

theorem exists_places (n : Int) : ∃ era d c q a t m day, n + 719468 = 146097 * era + d ∧
    (0 ≤ d ∧ d < 146097) ∧ PlaceInEra d c q a t ∧ PlaceInYear t m day := by
  have hd : 0 ≤ (n + 719468) % 146097 ∧ (n + 719468) % 146097 < 146097 := by omega
  obtain ⟨c, q, a, t, hera⟩ := exists_placeInEra hd
  exact ⟨(n + 719468) / 146097, _, c, q, a, t, _, _, by omega, hd, hera, rfl, rfl⟩

theorem dayNumber_ofDayNumber (n : Int) : (ofDayNumber n).dayNumber = n := by
  obtain ⟨era, d, c, q, a, t, m, day, hn, hd, hera, hyear⟩ := exists_places n
  have hbounds := hyear.bounds hera.day_mem
  obtain ⟨hdiv, hmod, hfour, hhundred⟩ := hera.year_split era
  rw [ofDayNumber_eq hn hd hera hyear]
  have hday := hyear.day_eq
  have hd' := hera.day_eq
  have hmonth : (153 * ((m.toNat : Nat)) + 2) / 5 = ((153 * m + 2) / 5).toNat := by omega
  by_cases h : m < 10
  · have hback : ((m + 3).toNat + 9) % 12 = m.toNat := by omega
    simp only [if_pos h, dayNumber, hback, hmonth, if_neg (show ¬(m + 3).toNat ≤ 2 by omega),
      hdiv, hmod, hfour, hhundred]
    omega
  · have hback : ((m - 9).toNat + 9) % 12 = m.toNat := by omega
    simp only [if_neg h, dayNumber, hback, hmonth, if_pos (show (m - 9).toNat ≤ 2 by omega),
      Int.add_sub_cancel, hdiv, hmod, hfour, hhundred]
    omega

theorem ofDayNumber_valid (n : Int) : (ofDayNumber n).Valid := by
  obtain ⟨era, d, c, q, a, t, m, day, hn, hd, hera, hyear⟩ := exists_places n
  have hbounds := hyear.bounds hera.day_mem
  have ht := hera.day_mem
  have hm := hyear.month_eq
  have hday := hyear.day_eq
  rw [ofDayNumber_eq hn hd hera hyear]
  by_cases h : m < 10
  · rw [if_pos h]
    refine ⟨by simp only; omega, by simp only; omega, by simp only; omega, ?_⟩
    simp only [daysInMonth, if_neg (show ¬(m + 3).toNat = 2 by omega)]
    split <;> omega
  · rw [if_neg h]
    refine ⟨by simp only; omega, by simp only; omega, by simp only; omega, ?_⟩
    by_cases hfeb : m = 11
    · simp only [daysInMonth, if_pos (show (m - 9).toNat = 2 by omega)]
      split
      · omega
      · rename_i hno
        have : t ≠ 365 := fun ht365 => hno (hera.isLeapYear era ht365)
        omega
    · simp only [daysInMonth, if_neg (show ¬(m - 9).toNat = 2 by omega)]
      split <;> omega

end ReportSql.Time.Date
