import ReportSql.Time.Window

/-!
# Relative windows

A relative window starts so many units before a reference moment. Its length is computed in signed
words, for months and years by way of days, and then taken off the moment; each of these steps can
leave its range. Over the integers the length is one product, and no step fails before this product
is longer than every span: `span?_eq_some_iff`. So a window has bounds exactly if it is positive,
the product is a span, and the moment that lies so far back exists.
-/

namespace ReportSql.Time

/-! ## Spans -/

namespace TimeUnit

theorem spanOf?_eq_some_iff {length amount : Int64} {n : Int} :
    spanOf? length amount = some n ↔
      n = amount.toInt * length.toInt ∧ -maxSpan ≤ n ∧ n ≤ maxSpan := by
  simp only [spanOf?, Option.bind_eq_some_iff, Decimal.product?_eq_some_iff]
  constructor
  · rintro ⟨w, hw, hn⟩
    split at hn
    · cases hn
      exact ⟨hw, by assumption⟩
    · cases hn
  · rintro ⟨rfl, hspan⟩
    -- a span is far from the ends of the signed words
    obtain ⟨w, hw⟩ := Decimal.exists_signedWord (n := amount.toInt * length.toInt)
      (by simp only [maxSpan] at hspan; omega)
    exact ⟨w, hw, by rw [hw, if_pos hspan]⟩

/-- Counting in days first loses no span. -/
theorem daysSpan?_eq_some_iff {days amount : Int64} {n : Int} :
    (Decimal.product? amount days).bind (spanOf? 86400) = some n ↔
      n = amount.toInt * (days.toInt * 86400) ∧ -maxSpan ≤ n ∧ n ≤ maxSpan := by
  have hday : (86400 : Int64).toInt = 86400 := by decide
  simp only [Option.bind_eq_some_iff, Decimal.product?_eq_some_iff,
    spanOf?_eq_some_iff, hday]
  constructor
  · rintro ⟨w, hw, rfl, hspan⟩
    exact ⟨by rw [hw, Int.mul_assoc], hspan⟩
  · rintro ⟨hn, hspan⟩
    rw [← Int.mul_assoc] at hn
    obtain ⟨w, hw⟩ := Decimal.exists_signedWord (n := amount.toInt * days.toInt)
      (by simp only [maxSpan] at hspan; omega)
    exact ⟨w, hw, by rw [hw, hn], hspan⟩

/-- **The length of a number of units** is the product over the integers, if that is a span. -/
theorem span?_eq_some_iff {unit : TimeUnit} {amount : Int64} {n : Int} :
    unit.span? amount = some n ↔
      n = amount.toInt * unit.seconds ∧ -maxSpan ≤ n ∧ n ≤ maxSpan := by
  cases unit with
  | hours | days | weeks => exact spanOf?_eq_some_iff
  | months | years => exact daysSpan?_eq_some_iff

end TimeUnit

/-! ## Going back -/

/-- Outside of leap seconds, going back moves the second and keeps the nanoseconds. -/
theorem Instant.earlier?_eq_some_iff {now t : Instant} (hleap : now.isLeap = false) {n : Int} :
    now.earlier? n = some t ↔ t.seconds = now.seconds - n ∧ t.nanos = now.nanos := by
  rw [earlier?, if_neg (by simp [hleap]), ofParts?_eq_some_iff]

/-- The moment lies so many units before `now`, and both their number and their length over the
integers are allowed: the number is positive, and a signed word holds the length in milliseconds. -/
structure StartsAt (now : Instant) (amount : Int64) (unit : TimeUnit) (start : Instant) : Prop where
  positive : 0 < amount.toInt
  lower : -Int64.maxValue.toInt ≤ amount.toInt * unit.seconds * 1000
  upper : amount.toInt * unit.seconds * 1000 ≤ Int64.maxValue.toInt
  seconds : start.seconds = now.seconds - amount.toInt * unit.seconds
  nanos : start.nanos = now.nanos

theorem startsAt_iff {now start : Instant} (hleap : now.isLeap = false) {amount : Int64}
    {unit : TimeUnit} : StartsAt now amount unit start ↔
      0 < amount.toInt ∧ (unit.span? amount).bind now.earlier? = some start := by
  have hmax : Int64.maxValue.toInt = 9223372036854775807 := rfl
  simp only [Option.bind_eq_some_iff, TimeUnit.span?_eq_some_iff,
    Instant.earlier?_eq_some_iff hleap, TimeUnit.maxSpan]
  constructor
  · rintro ⟨hpos, hlower, hupper, hseconds, hnanos⟩
    exact ⟨hpos, _, ⟨rfl, by omega, by omega⟩, hseconds, hnanos⟩
  · rintro ⟨hpos, n, ⟨rfl, hlower, hupper⟩, hseconds, hnanos⟩
    exact ⟨hpos, by omega, by omega, hseconds, hnanos⟩

/-- **Relative windows are exact.** As seen from a moment outside of leap seconds, a relative window
has bounds exactly if it is positive, its length over the integers is a span, and the moment that
lies exactly so far back exists; its bounds are then the texts of that moment and of the reference
moment. Every other relative window is refused, with its amount as the cause. -/
theorem relative_window_exact {now : Instant} (hleap : now.isLeap = false) (amount : Int64)
    (unit : TimeUnit) :
    (∀ bounds, (TimeRange.relative amount unit).resolve now = .ok bounds ↔
      ∃ start, StartsAt now amount unit start ∧
        bounds = ⟨some (boundText start), some (boundText now)⟩) ∧
    ∀ cause, (TimeRange.relative amount unit).resolve now = .error cause ↔
      (¬∃ start, StartsAt now amount unit start) ∧
        cause = if amount.toInt ≤ 0 then .notPositive amount else .outOfRange amount := by
  simp only [startsAt_iff hleap, TimeRange.resolve]
  by_cases hpos : amount.toInt ≤ 0
  · simp [hpos, Int.not_lt.mpr hpos, eq_comm]
  · have hpos' : 0 < amount.toInt := Int.not_le.mp hpos
    cases (unit.span? amount).bind now.earlier? <;> simp [hpos, hpos', eq_comm]

theorem newYear_representable : earliest ≤ 1704067200 ∧ 1704067200 ≤ latest := by
  decide

/-- The start of the year 2024. -/
def newYear : Instant :=
  .atSecond 1704067200 newYear_representable

/-- As seen from the start of 2024, the earliest moment is so many hours back. A window of one more
hour is refused, and so is one of as many months as a word can count. -/
theorem hours_to_earliest :
    newYear.isLeap = false ∧
    (TimeRange.relative 2315640360 .hours).resolve newYear =
      .ok ⟨some "-262143-01-01T00:00:00Z", some "2024-01-01T00:00:00Z"⟩ ∧
    (TimeRange.relative 2315640361 .hours).resolve newYear = .error (.outOfRange 2315640361) ∧
    (TimeRange.relative Int64.maxValue .months).resolve newYear =
      .error (.outOfRange Int64.maxValue) := by
  have hleap : newYear.isLeap = false := by decide
  have hspan : -Int64.maxValue.toInt ≤ 2315640360 * 3600 * 1000 ∧
      2315640360 * 3600 * 1000 ≤ Int64.maxValue.toInt := by decide
  refine ⟨hleap, ?_, ?_, ?_⟩
  · refine ((relative_window_exact hleap 2315640360 .hours).1 _).mpr
      ⟨.atSecond earliest (by decide), ⟨by decide, hspan.1, hspan.2, by decide, rfl⟩, ?_⟩
    decide +kernel
  · refine ((relative_window_exact hleap 2315640361 .hours).2 _).mpr ⟨?_, rfl⟩
    rintro ⟨start, hstart⟩
    have hrange := start.inRange.1
    have hseconds : start.seconds = 1704067200 - 2315640361 * 3600 := hstart.seconds
    rw [hseconds] at hrange
    exact absurd hrange (by decide)
  · refine ((relative_window_exact hleap Int64.maxValue .months).2 _).mpr ⟨?_, rfl⟩
    rintro ⟨start, hstart⟩
    exact absurd hstart.upper (by decide)

end ReportSql.Time
