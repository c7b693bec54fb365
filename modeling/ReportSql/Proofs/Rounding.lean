import Mathlib.Algebra.Order.Field.Power
import Mathlib.Data.Rat.Cast.Order
import Mathlib.Tactic.FieldSimp
import Mathlib.Tactic.Linarith
import Mathlib.Tactic.Positivity
import Mathlib.Tactic.Ring
import ReportSql.Decimal.Shortest

/-!
# Reading decimals back

The reals that round to a double form an interval, and rounding takes all of it to the double. The
shortest digits of a double lie in its interval, so that they are read back to the double itself.
-/

namespace ReportSql.Decimal

/-! ## Values -/

/-- The number that a decimal stands for. -/
def Digits.value (d : Digits) : ℚ :=
  d.digits * 10 ^ d.scale

namespace Binary64

/-- The number that a double stands for, without its sign. -/
def magnitude (x : Binary64) : ℚ :=
  x.significand * 2 ^ x.exponent

/-- The lower end of the interval that rounds to the double, in quarters of its last place. -/
def lowQuarters (x : Binary64) : Nat :=
  if x.narrowBelow then 4 * x.significand - 1 else 4 * x.significand - 2

/-- The number is among those that round to the double. The ends of the interval are if the
significand is even. -/
def Absorbs (x : Binary64) (q : ℚ) : Prop :=
  ((x.lowQuarters : ℚ) * 2 ^ (x.exponent - 2) < q ∨
      x.significand % 2 = 0 ∧ (x.lowQuarters : ℚ) * 2 ^ (x.exponent - 2) = q) ∧
    (q < (4 * x.significand + 2 : ℕ) * 2 ^ (x.exponent - 2) ∨
      x.significand % 2 = 0 ∧ q = (4 * x.significand + 2 : ℕ) * 2 ^ (x.exponent - 2))

/-! ## Scaled comparisons -/

theorem zpow_mul_pow_toNat_neg {b : ℚ} (hb : b ≠ 0) (i : ℤ) :
    b ^ i * b ^ (-i).toNat = b ^ i.toNat := by
  rw [← zpow_natCast, ← zpow_natCast, ← zpow_add₀ hb]
  congr 1
  omega

/-- Both sides of a scaled comparison, by the same positive factor. -/
theorem scaled_sides (a : Nat) (i : Int) (n : Nat) (j : Int) :
    ∃ c : ℚ, 0 < c ∧
      ((a * Nat.pow 10 i.toNat * Nat.pow 2 (-j).toNat : Nat) : ℚ) = a * 10 ^ i * c ∧
      ((n * Nat.pow 2 j.toNat * Nat.pow 10 (-i).toNat : Nat) : ℚ) = n * 2 ^ j * c := by
  refine ⟨10 ^ (-i).toNat * 2 ^ (-j).toNat, by positivity, ?_, ?_⟩
  · have h := zpow_mul_pow_toNat_neg (b := 10) (by norm_num) i
    simp only [Nat.pow_eq, Nat.cast_mul, Nat.cast_pow, Nat.cast_ofNat]
    rw [← h]
    ring
  · have h := zpow_mul_pow_toNat_neg (b := 2) (by norm_num) j
    simp only [Nat.pow_eq, Nat.cast_mul, Nat.cast_pow, Nat.cast_ofNat]
    rw [← h]
    ring

theorem compareScaled_eq_gt {a : Nat} {i : Int} {n : Nat} {j : Int} :
    compareScaled a i n j = .gt ↔ (n : ℚ) * 2 ^ j < a * 10 ^ i := by
  obtain ⟨c, hc, hleft, hright⟩ := scaled_sides a i n j
  rw [compareScaled, Nat.compare_eq_gt, ← Nat.cast_lt (α := ℚ), hleft, hright,
    mul_lt_mul_iff_left₀ hc]

theorem compareScaled_eq_lt {a : Nat} {i : Int} {n : Nat} {j : Int} :
    compareScaled a i n j = .lt ↔ (a : ℚ) * 10 ^ i < n * 2 ^ j := by
  obtain ⟨c, hc, hleft, hright⟩ := scaled_sides a i n j
  rw [compareScaled, Nat.compare_eq_lt, ← Nat.cast_lt (α := ℚ), hleft, hright,
    mul_lt_mul_iff_left₀ hc]

theorem compareScaled_eq_eq {a : Nat} {i : Int} {n : Nat} {j : Int} :
    compareScaled a i n j = .eq ↔ (a : ℚ) * 10 ^ i = n * 2 ^ j := by
  obtain ⟨c, hc, hleft, hright⟩ := scaled_sides a i n j
  rw [compareScaled, Nat.compare_eq_eq, ← Nat.cast_inj (R := ℚ), hleft, hright,
    mul_left_inj' hc.ne']

theorem readsBack_iff {x : Binary64} {d : Digits} :
    x.readsBack d = true ↔ x.Absorbs d.value := by
  simp only [readsBack, Absorbs, lowQuarters, Digits.value, Bool.and_eq_true, Bool.or_eq_true,
    beq_iff_eq, compareScaled_eq_gt, compareScaled_eq_lt, compareScaled_eq_eq]
  constructor
  · rintro ⟨hlow, hhigh⟩
    exact ⟨hlow.imp_right fun h => ⟨h.1, h.2.symm⟩, hhigh⟩
  · rintro ⟨hlow, hhigh⟩
    exact ⟨hlow.imp_right fun h => ⟨h.1, h.2.symm⟩, hhigh⟩

/-! ## Shortest digits -/

theorem absorbs_magnitude {x : Binary64} (hx : x.significand ≠ 0) : x.Absorbs x.magnitude := by
  have hpow : (0 : ℚ) < 2 ^ (x.exponent - 2) := by positivity
  have hscale : x.magnitude = (4 * x.significand : ℕ) * 2 ^ (x.exponent - 2) := by
    rw [magnitude, zpow_sub₀ two_ne_zero]
    push_cast
    ring
  have hlow : x.lowQuarters < 4 * x.significand := by
    rw [lowQuarters]
    split <;> omega
  refine ⟨.inl ?_, .inl ?_⟩
  · rw [hscale, mul_lt_mul_iff_left₀ hpow, Nat.cast_lt]
    exact hlow
  · rw [hscale, mul_lt_mul_iff_left₀ hpow, Nat.cast_lt]
    omega

theorem readsBack_of_onGrid {x : Binary64} {k : Int} {n : Nat} {d : Digits}
    (h : x.onGrid k n = some d) : x.readsBack d = true := by
  simp only [onGrid] at h
  split at h
  · rename_i hboth
    rw [Bool.and_eq_true] at hboth
    split at h <;> cases h
    · exact hboth.1
    · exact hboth.2
  · split at h
    · cases h
      assumption
    · split at h <;> cases h
      assumption

theorem value_strip (fuel : Nat) (d : Digits) : (d.strip fuel).value = d.value := by
  induction fuel generalizing d with
  | zero => rfl
  | succ fuel ih =>
    rw [Digits.strip]
    split
    · rename_i h
      have hnat : d.digits = d.digits / 10 * 10 := by omega
      have hdigits : (d.digits : ℚ) = (d.digits / 10 : ℕ) * 10 := by exact_mod_cast hnat
      rw [ih, Digits.value, Digits.value, hdigits, zpow_add_one₀ (by norm_num)]
      ring
    · rfl

theorem value_exactDigits (x : Binary64) : x.exactDigits.value = x.magnitude := by
  rw [Digits.value, exactDigits, magnitude, numerator]
  push_cast [Nat.pow_eq]
  rcases le_total 0 x.exponent with he | he
  · have hneg : (-x.exponent).toNat = 0 := by omega
    rw [min_eq_right he, hneg, ← zpow_natCast, Int.toNat_of_nonneg he]
    ring
  · have hpos : x.exponent.toNat = 0 := by omega
    have hneg : ((-x.exponent).toNat : ℤ) = -x.exponent := by omega
    have hten : (10 : ℚ) = 2 * 5 := by norm_num
    rw [min_eq_left he, hpos, pow_zero, ← zpow_natCast, hneg, hten, mul_zpow, zpow_neg]
    field_simp

/-- **The shortest digits read back.** -/
theorem absorbs_shortest {x : Binary64} (hx : x.significand ≠ 0) :
    x.Absorbs (shortest x).value := by
  have hzero : x.isZero = false := by simpa [isZero] using hx
  simp only [shortest, hzero]
  split
  · cases ‹false = true›
  · split
    · rename_i d hd
      obtain ⟨n, -, hgrid⟩ := List.exists_of_findSome?_eq_some hd
      rw [value_strip]
      exact readsBack_iff.mp (readsBack_of_onGrid hgrid)
    · rw [value_exactDigits]
      exact absorbs_magnitude hx

end Binary64

/-! ## Rounding -/

/-- The natural number is the nearest to a number, or one of the two nearest and even. -/
def Nearest (n : Nat) (q : ℚ) : Prop :=
  ((n : ℚ) - 1 / 2 < q ∨ n % 2 = 0 ∧ (n : ℚ) - 1 / 2 = q) ∧
    (q < n + 1 / 2 ∨ n % 2 = 0 ∧ q = n + 1 / 2)

theorem Nearest.low_le {n : Nat} {q : ℚ} (h : Nearest n q) : (n : ℚ) - 1 / 2 ≤ q := by
  rcases h.1 with hlt | ⟨-, heq⟩
  · exact hlt.le
  · exact heq.le

theorem Nearest.le_high {n : Nat} {q : ℚ} (h : Nearest n q) : q ≤ n + 1 / 2 := by
  rcases h.2 with hlt | ⟨-, heq⟩
  · exact hlt.le
  · exact heq.le

/-- The natural number nearest to a quotient, by products. -/
theorem nearest_div_iff {num den n : Nat} (hden : 0 < den) :
    Nearest n (num / den) ↔
      (2 * n * den < 2 * num + den ∨ n % 2 = 0 ∧ 2 * n * den = 2 * num + den) ∧
        (2 * num < 2 * n * den + den ∨ n % 2 = 0 ∧ 2 * num = 2 * n * den + den) := by
  have hdenQ : (0 : ℚ) < den := Nat.cast_pos.mpr hden
  have hlow : ((n : ℚ) - 1 / 2) * den < num ↔ 2 * n * den < 2 * num + den := by
    rw [← Nat.cast_lt (α := ℚ)]
    push_cast
    constructor <;> intro h <;> linarith
  have hlow_eq : ((n : ℚ) - 1 / 2) * den = num ↔ 2 * n * den = 2 * num + den := by
    rw [← Nat.cast_inj (R := ℚ)]
    push_cast
    constructor <;> intro h <;> linarith
  have hhigh : (num : ℚ) < (n + 1 / 2) * den ↔ 2 * num < 2 * n * den + den := by
    rw [← Nat.cast_lt (α := ℚ)]
    push_cast
    constructor <;> intro h <;> linarith
  have hhigh_eq : (num : ℚ) = (n + 1 / 2) * den ↔ 2 * num = 2 * n * den + den := by
    rw [← Nat.cast_inj (R := ℚ)]
    push_cast
    constructor <;> intro h <;> linarith
  rw [Nearest, lt_div_iff₀ hdenQ, eq_div_iff hdenQ.ne', div_lt_iff₀ hdenQ, div_eq_iff hdenQ.ne',
    hlow, hlow_eq, hhigh, hhigh_eq]

theorem roundHalfEven_eq {num den n : Nat} (hden : 0 < den) (h : Nearest n (num / den)) :
    roundHalfEven num den = n := by
  obtain ⟨hlow, hhigh⟩ := (nearest_div_iff hden).mp h
  have hsplit := Nat.div_add_mod num den
  have hrest := Nat.mod_lt num hden
  rw [roundHalfEven]
  generalize num / den = q at hsplit ⊢
  generalize num % den = r at hsplit hrest ⊢
  have hqn : q ≤ n := by
    by_contra hlt
    have hmul : den * (n + 1) ≤ den * q := Nat.mul_le_mul_left den (Nat.lt_of_not_le hlt)
    have hsucc : den * (n + 1) = n * den + den := by ring
    have htwo : 2 * n * den = 2 * (n * den) := by ring
    omega
  have hnq : n ≤ q + 1 := by
    by_contra hlt
    have hmul : den * (q + 2) ≤ den * n := Nat.mul_le_mul_left den (Nat.lt_of_not_le hlt)
    have hsucc : den * (q + 2) = den * q + 2 * den := by ring
    have htwo : 2 * n * den = 2 * (den * n) := by ring
    omega
  -- the remainder tells which of the two neighbours is meant
  rcases Nat.eq_or_lt_of_le hqn with rfl | hlt
  · have htwo : 2 * q * den = 2 * (den * q) := by ring
    split
    · rfl
    · split <;> omega
  · obtain rfl : n = q + 1 := by omega
    have htwo : 2 * (q + 1) * den = 2 * (den * q) + 2 * den := by ring
    split
    · omega
    · split <;> omega

/-! ### Exponents -/

theorem zpow_log2_le {n : Nat} (hn : 0 < n) :
    (2 : ℚ) ^ (Nat.log2 n : ℤ) ≤ n ∧ (n : ℚ) < 2 ^ (Nat.log2 n + 1 : ℤ) := by
  refine ⟨?_, by exact_mod_cast Nat.lt_log2_self⟩
  rw [zpow_natCast]
  exact_mod_cast Nat.log2_self_le hn.ne'

/-- The scale of a quotient is the exponent of the last power of two up to it. -/
theorem zpow_le_binaryScale {num den : Nat} (hnum : 0 < num) (hden : 0 < den) :
    (2 : ℚ) ^ binaryScale num den ≤ num / den ∧
      (num / den : ℚ) < 2 ^ (binaryScale num den + 1) := by
  have hdenQ : (0 : ℚ) < den := Nat.cast_pos.mpr hden
  obtain ⟨hnum_le, hnum_lt⟩ := zpow_log2_le hnum
  obtain ⟨hden_le, hden_lt⟩ := zpow_log2_le hden
  rw [binaryScale]
  generalize (Nat.log2 num : ℤ) = a at *
  generalize (Nat.log2 den : ℤ) = b at *
  have hlow : (2 : ℚ) ^ (a - b - 1) < num / den := by
    rw [lt_div_iff₀ hdenQ]
    calc (2 : ℚ) ^ (a - b - 1) * den < 2 ^ (a - b - 1) * 2 ^ (b + 1) := by gcongr
      _ = 2 ^ a := by rw [← zpow_add₀ two_ne_zero]; congr 1; ring
      _ ≤ num := hnum_le
  have hhigh : (num / den : ℚ) < 2 ^ (a - b + 1) := by
    rw [div_lt_iff₀ hdenQ]
    calc (num : ℚ) < 2 ^ (a + 1) := hnum_lt
      _ = 2 ^ (a - b + 1) * 2 ^ b := by rw [← zpow_add₀ two_ne_zero]; congr 1; ring
      _ ≤ 2 ^ (a - b + 1) * den := by gcongr
  have hcond : den * Nat.pow 2 (a - b).toNat ≤ num * Nat.pow 2 (-(a - b)).toNat ↔
      (2 : ℚ) ^ (a - b) ≤ num / den := by
    have hpow : (0 : ℚ) < 2 ^ (-(a - b)).toNat := by positivity
    rw [le_div_iff₀ hdenQ, ← mul_le_mul_iff_left₀ hpow, mul_right_comm,
      Binary64.zpow_mul_pow_toNat_neg two_ne_zero, mul_comm, ← Nat.cast_le (α := ℚ)]
    push_cast [Nat.pow_eq]
    rfl
  simp only [hcond]
  split
  · rename_i hle
    exact ⟨hle, hhigh⟩
  · rename_i hnot
    rw [sub_add_cancel]
    exact ⟨hlow.le, not_le.mp hnot⟩

/-- The exponent of a rounded quotient. -/
theorem roundedExponent_eq {num den : Nat} (hnum : 0 < num) (hden : 0 < den) {e : Int}
    (hlt : (num / den : ℚ) < 2 ^ (e + 53))
    (hge : e = -1074 ∨ -1074 < e ∧ (2 : ℚ) ^ (e + 52) ≤ num / den) :
    max (binaryScale num den - 52) (-1074) = e := by
  obtain ⟨hlow, hhigh⟩ := zpow_le_binaryScale hnum hden
  have hless : binaryScale num den < e + 53 :=
    (zpow_lt_zpow_iff_right₀ (one_lt_two (α := ℚ))).mp (hlow.trans_lt hlt)
  rcases hge with rfl | ⟨he, hge⟩
  · omega
  · have hmore : e + 52 < binaryScale num den + 1 :=
      (zpow_lt_zpow_iff_right₀ (one_lt_two (α := ℚ))).mp (hge.trans_lt hhigh)
    omega

/-- Scaling to an exponent divides by its power. -/
theorem scaled_quotient (num den : Nat) (e : Int) :
    ((num * Nat.pow 2 (-e).toNat : Nat) : ℚ) / (den * Nat.pow 2 e.toNat : Nat) =
      num / den / 2 ^ e := by
  have h := Binary64.zpow_mul_pow_toNat_neg (b := 2) two_ne_zero e
  have hpow : (2 : ℚ) ^ (-e).toNat ≠ 0 := by positivity
  push_cast [Nat.pow_eq]
  rw [← h]
  field_simp

/-- What rounding does where the exponent and the nearest natural number are known. -/
theorem Double.round_eq {negative : Bool} {num den m : Nat} {e : Int} (hnum : 0 < num)
    (hden : 0 < den) (he : max (binaryScale num den - 52) (-1074) = e)
    (hm : Nearest m (num / den / 2 ^ e)) :
    Double.round negative num den =
      let carried : Nat × Int := if m = 2 * leadingBit then (leadingBit, e + 1) else (m, e)
      if h : Canonical carried.1 carried.2 then .finite ⟨negative, carried.1, carried.2, h⟩
      else .infinite negative := by
  have hscaled : 0 < den * Nat.pow 2 e.toNat := Nat.mul_pos hden (Nat.pow_pos two_pos)
  rw [← scaled_quotient] at hm
  simp only [Double.round, if_neg hnum.ne', he, roundHalfEven_eq hscaled hm]

/-! ## Rounding the numbers of an interval -/

namespace Binary64

/-- The double of the same magnitude and the given sign. -/
def withSign (x : Binary64) (negative : Bool) : Binary64 :=
  { x with negative }

variable {x : Binary64} {q : ℚ}

theorem Absorbs.low_le (h : x.Absorbs q) :
    (x.lowQuarters : ℚ) * 2 ^ (x.exponent - 2) ≤ q := by
  rcases h.1 with hlt | ⟨-, heq⟩
  · exact hlt.le
  · exact heq.le

/-- What a double absorbs is nearest to its significand at its exponent. -/
theorem Absorbs.nearest (h : x.Absorbs q) (hx : x.significand ≠ 0) :
    Nearest x.significand (q / 2 ^ x.exponent) := by
  have hpow : (0 : ℚ) < 2 ^ x.exponent := by positivity
  have hquarter : ∀ n : ℚ, n * 2 ^ (x.exponent - 2) = n / 4 * 2 ^ x.exponent := by
    intro n
    rw [zpow_sub₀ two_ne_zero]
    ring
  obtain ⟨hlow, hhigh⟩ := h
  rw [hquarter, ← lt_div_iff₀ hpow, ← eq_div_iff hpow.ne'] at hlow
  rw [hquarter, ← div_lt_iff₀ hpow, ← div_eq_iff hpow.ne'] at hhigh
  generalize q / 2 ^ x.exponent = r at hlow hhigh ⊢
  have hquarters : (x.significand : ℚ) - 1 / 2 = x.lowQuarters / 4 ∨
      (x.significand : ℚ) - 1 / 2 < x.lowQuarters / 4 := by
    rw [lowQuarters]
    split
    · rw [Nat.cast_sub (by omega)]
      push_cast
      exact .inr (by linarith)
    · rw [Nat.cast_sub (by omega)]
      push_cast
      exact .inl (by linarith)
  refine ⟨?_, ?_⟩
  · rcases hquarters with heq | hlt
    · rwa [heq]
    · refine .inl (hlt.trans_le ?_)
      rcases hlow with hlow | ⟨-, hlow⟩
      · exact hlow.le
      · exact hlow.le
  · have hhalf : ((4 * x.significand + 2 : ℕ) : ℚ) / 4 = x.significand + 1 / 2 := by
      push_cast
      ring
    rwa [hhalf] at hhigh

/-- What lies in an interval below a power of two is, at the next lower exponent, nearest to that
power. -/
theorem Absorbs.nearest_below (h : x.Absorbs q) (he : x.exponent ≠ -1074)
    (hlt : q < 2 ^ (x.exponent + 52)) :
    x.significand = leadingBit ∧ Nearest (2 * leadingBit) (q / 2 ^ (x.exponent - 1)) := by
  obtain ⟨-, hleast, -, hfull⟩ := x.canonical
  have hlead : leadingBit ≤ x.significand := hfull.resolve_right he
  have hpow : (0 : ℚ) < 2 ^ (x.exponent - 1) := by positivity
  have hr : q / 2 ^ (x.exponent - 1) < 9007199254740992 := by
    rw [div_lt_iff₀ hpow]
    refine hlt.trans_eq ?_
    rw [show x.exponent + 52 = 53 + (x.exponent - 1) by ring, zpow_add₀ two_ne_zero]
    norm_num
  have hlow : (x.lowQuarters : ℚ) / 2 ≤ q / 2 ^ (x.exponent - 1) := by
    rw [le_div_iff₀ hpow]
    have hhalf : (x.lowQuarters : ℚ) / 2 * 2 ^ (x.exponent - 1) =
        x.lowQuarters * 2 ^ (x.exponent - 2) := by
      rw [show x.exponent - 1 = x.exponent - 2 + 1 by ring, zpow_add_one₀ two_ne_zero]
      ring
    rw [hhalf]
    exact h.low_le
  have hquarters : x.lowQuarters < 4 * leadingBit := by
    have hcast : (x.lowQuarters : ℚ) < (4 * leadingBit : ℕ) := by
      push_cast
      linarith
    exact_mod_cast hcast
  have hm : x.significand = leadingBit := by
    rw [lowQuarters] at hquarters
    split at hquarters <;> omega
  refine ⟨hm, ?_, .inl ?_⟩
  · have hnarrow : x.narrowBelow = true := by
      simp only [narrowBelow, hm, beq_self_eq_true, Bool.true_and, decide_eq_true_eq]
      omega
    have heq : (x.lowQuarters : ℚ) / 2 = (2 * leadingBit : ℕ) - 1 / 2 := by
      rw [lowQuarters, if_pos hnarrow, hm]
      norm_num
    rw [heq] at hlow
    exact hlow.lt_or_eq.imp_right fun h => ⟨by decide, h⟩
  · refine hr.trans ?_
    norm_num

theorem Absorbs.pos (h : x.Absorbs q) (hx : x.significand ≠ 0) : 0 < q := by
  have hpow : (0 : ℚ) < 2 ^ (x.exponent - 2) := by positivity
  have hquarters : 0 < x.lowQuarters := by
    rw [lowQuarters]
    split <;> omega
  have hlow : (0 : ℚ) < x.lowQuarters * 2 ^ (x.exponent - 2) := by positivity
  exact hlow.trans_le h.low_le

theorem Absorbs.lt (h : x.Absorbs q) (hx : x.significand ≠ 0) : q < 2 ^ (x.exponent + 53) := by
  have hpow : (0 : ℚ) < 2 ^ x.exponent := by positivity
  have hupper : q / 2 ^ x.exponent ≤ x.significand + 1 / 2 := (h.nearest hx).le_high
  have hbelow : (x.significand + 1 : ℚ) ≤ 9007199254740992 := by
    exact_mod_cast Nat.succ_le_of_lt x.canonical.1
  rw [add_comm, zpow_add₀ two_ne_zero, ← div_lt_iff₀ hpow]
  norm_num
  linarith

section

variable {num den : Nat}

/-- Not just below a power of two, rounding finds the exponent of the double. -/
theorem Absorbs.roundedExponent (h : x.Absorbs (num / den)) (hx : x.significand ≠ 0)
    (hnum : 0 < num) (hden : 0 < den)
    (hfull : x.exponent = -1074 ∨ (2 : ℚ) ^ (x.exponent + 52) ≤ num / den) :
    max (binaryScale num den - 52) (-1074) = x.exponent := by
  refine roundedExponent_eq hnum hden (h.lt hx) ?_
  rcases hfull with heq | hle
  · exact .inl heq
  · rcases x.canonical.2.1.lt_or_eq with hlt | heq
    · exact .inr ⟨hlt, hle⟩
    · exact .inl heq.symm

/-- Just below a power of two, it finds the exponent before that. -/
theorem roundedExponent_below (hnum : 0 < num) (hden : 0 < den)
    (hne : x.exponent ≠ -1074) (hlt : (num / den : ℚ) < 2 ^ (x.exponent + 52))
    (hnearest : Nearest (2 * leadingBit) (num / den / 2 ^ (x.exponent - 1))) :
    max (binaryScale num den - 52) (-1074) = x.exponent - 1 := by
  have hpow : (0 : ℚ) < 2 ^ (x.exponent - 1) := by positivity
  have hlow : (2 : ℚ) ^ (52 : ℤ) ≤ num / den / 2 ^ (x.exponent - 1) := by
    have hnear := hnearest.low_le
    push_cast at hnear
    norm_num
    linarith
  have hleast : -1074 ≤ x.exponent - 1 := by
    have := x.canonical.2.1
    omega
  refine roundedExponent_eq hnum hden ?_ ?_
  · rwa [show x.exponent - 1 + 53 = x.exponent + 52 by ring]
  · rcases hleast.lt_or_eq with hlt | heq
    · refine .inr ⟨hlt, ?_⟩
      rwa [add_comm, zpow_add₀ two_ne_zero, ← le_div_iff₀ hpow]
    · exact .inl heq.symm

/-- **Rounding takes the interval of a double to the double.** -/
theorem round_of_absorbs {negative : Bool} (hx : x.significand ≠ 0) (hden : 0 < den)
    (h : x.Absorbs (num / den)) :
    Double.round negative num den = .finite (x.withSign negative) := by
  have hnum : 0 < num := by
    have hpos := h.pos hx
    rw [div_pos_iff_of_pos_right (Nat.cast_pos.mpr hden)] at hpos
    exact Nat.cast_pos.mp hpos
  by_cases hfull : x.exponent = -1074 ∨ (2 : ℚ) ^ (x.exponent + 52) ≤ num / den
  · have he := h.roundedExponent hx hnum hden hfull
    have hne : x.significand ≠ 2 * leadingBit := x.canonical.1.ne
    simp only [Double.round_eq hnum hden he (h.nearest hx), if_neg hne, dif_pos x.canonical,
      withSign]
  · -- just below a power of two the exponent is one less, and the rounding carries
    rw [not_or, not_le] at hfull
    obtain ⟨hm, hnearest⟩ := h.nearest_below hfull.1 hfull.2
    have he := roundedExponent_below hnum hden hfull.1 hfull.2 hnearest
    simp only [Double.round_eq hnum hden he hnearest, if_true, sub_add_cancel, ← hm,
      dif_pos x.canonical, withSign]

end

/-- **The text digits of a double are read back to it.** Whatever quotient stands for the same
number as its shortest digits, rounding that quotient gives the double. -/
theorem round_shortest (x : Binary64) {num den : Nat} (hden : 0 < den)
    (h : (num / den : ℚ) = (shortest x).value) :
    Double.round x.negative num den = .finite x := by
  by_cases hx : x.significand = 0
  · have hzero : (shortest x).value = 0 := by
      simp [shortest, isZero, hx, Digits.value]
    have hnum : num = 0 := by
      rw [hzero, div_eq_zero_iff] at h
      exact_mod_cast h.resolve_right (Nat.cast_ne_zero.mpr hden.ne')
    obtain ⟨negative, significand, exponent, canonical⟩ := x
    obtain rfl : significand = 0 := hx
    obtain rfl : exponent = -1074 := canonical.2.2.2.resolve_left (by decide)
    rw [hnum]
    rfl
  · rw [round_of_absorbs hx hden (h ▸ absorbs_shortest hx)]
    rfl

end Binary64

/-! ## Finite roundings -/

theorem roundHalfEven_bounds (num den : Nat) :
    num / den ≤ roundHalfEven num den ∧ roundHalfEven num den ≤ num / den + 1 := by
  rw [roundHalfEven]
  split
  · omega
  · split <;> omega

/-- At its rounded exponent, a quotient has as many digits before the point as a double, unless the
exponent is the least one. -/
theorem scaled_quotient_bounds {num den : Nat} (hnum : 0 < num) (hden : 0 < den) {e : Int}
    (he : max (binaryScale num den - 52) (-1074) = e) :
    num * Nat.pow 2 (-e).toNat / (den * Nat.pow 2 e.toNat) < 2 * leadingBit ∧
      (e = -1074 ∨ leadingBit ≤ num * Nat.pow 2 (-e).toNat / (den * Nat.pow 2 e.toNat)) := by
  obtain ⟨hlow, hhigh⟩ := zpow_le_binaryScale hnum hden
  have hpow : (0 : ℚ) < 2 ^ e := by positivity
  have hscaled : 0 < den * Nat.pow 2 e.toNat := Nat.mul_pos hden (Nat.pow_pos two_pos)
  have hscaledQ : (0 : ℚ) < (den * Nat.pow 2 e.toNat : Nat) := Nat.cast_pos.mpr hscaled
  constructor
  · rw [Nat.div_lt_iff_lt_mul hscaled, ← Nat.cast_lt (α := ℚ), Nat.cast_mul (2 * leadingBit),
      ← div_lt_iff₀ hscaledQ, scaled_quotient, div_lt_iff₀ hpow]
    calc (num / den : ℚ) < 2 ^ (binaryScale num den + 1) := hhigh
      _ ≤ 2 ^ (53 + e) := zpow_le_zpow_right₀ one_le_two (by omega)
      _ = (2 * leadingBit : ℕ) * 2 ^ e := by rw [zpow_add₀ two_ne_zero]; norm_num
  · refine or_iff_not_imp_left.mpr fun hne => ?_
    rw [Nat.le_div_iff_mul_le hscaled, ← Nat.cast_le (α := ℚ), Nat.cast_mul leadingBit,
      ← le_div_iff₀ hscaledQ, scaled_quotient, le_div_iff₀ hpow]
    calc (leadingBit : ℚ) * 2 ^ e = 2 ^ (52 + e) := by rw [zpow_add₀ two_ne_zero]; norm_num
      _ = 2 ^ binaryScale num den := by congr 1; omega
      _ ≤ num / den := hlow

/-- Rounding stays finite below `2 ^ 1023`. -/
theorem Double.exists_round_eq_finite (negative : Bool) {num den : Nat} (hden : 0 < den)
    (hlt : (num / den : ℚ) < 2 ^ (1023 : ℤ)) :
    ∃ x, Double.round negative num den = .finite x := by
  rcases Nat.eq_zero_or_pos num with rfl | hnum
  · exact ⟨.zero negative, rfl⟩
  · have hscale : binaryScale num den < 1023 :=
      (zpow_lt_zpow_iff_right₀ (one_lt_two (α := ℚ))).mp
        ((zpow_le_binaryScale hnum hden).1.trans_lt hlt)
    simp only [Double.round, if_neg hnum.ne']
    generalize he : max (binaryScale num den - 52) (-1074) = e
    obtain ⟨hmost, hleast⟩ := scaled_quotient_bounds hnum hden he
    obtain ⟨hrounded, hrounded'⟩ :=
      roundHalfEven_bounds (num * Nat.pow 2 (-e).toNat) (den * Nat.pow 2 e.toNat)
    generalize roundHalfEven _ _ = m at hrounded hrounded' ⊢
    by_cases hcarry : m = 2 * leadingBit
    · have hcanonical : Canonical leadingBit (e + 1) :=
        ⟨by decide, by omega, by omega, .inl le_rfl⟩
      simp only [if_pos hcarry, dif_pos hcanonical]
      exact ⟨_, rfl⟩
    · have hcanonical : Canonical m e := ⟨by omega, by omega, by omega, by omega⟩
      simp only [if_neg hcarry, dif_pos hcanonical]
      exact ⟨_, rfl⟩

/-- The magnitude of a double as a quotient. -/
theorem Binary64.numerator_div_denominator (x : Binary64) :
    (x.numerator / x.denominator : ℚ) = x.magnitude := by
  have h := zpow_mul_pow_toNat_neg (b := 2) two_ne_zero x.exponent
  have hpow : (2 : ℚ) ^ (-x.exponent).toNat ≠ 0 := by positivity
  rw [numerator, denominator, magnitude]
  push_cast [Nat.pow_eq]
  rw [← h]
  field_simp

theorem roundHalfEven_le {num den n : Nat} (hden : 0 < den) (h : num ≤ n * den) :
    roundHalfEven num den ≤ n := by
  have hquotient : num / den ≤ n := Nat.div_le_of_le_mul (by rwa [Nat.mul_comm])
  have hbounds := (roundHalfEven_bounds num den).2
  rcases hquotient.lt_or_eq with hlt | heq
  · omega
  · -- there is nothing left to round up
    have hrest : num % den = 0 := by
      have hsplit := Nat.div_add_mod num den
      rw [heq, Nat.mul_comm] at hsplit
      omega
    rw [roundHalfEven, hrest, heq]
    simp [hden]

/-- Rounding stays finite up to the magnitude of a double. -/
theorem Double.exists_round_eq_finite_of_le (negative : Bool) {num den : Nat} (hden : 0 < den)
    {x : Binary64} (hle : (num / den : ℚ) ≤ x.magnitude) :
    ∃ y, Double.round negative num den = .finite y := by
  obtain ⟨hsize, -, hexponent, -⟩ := x.canonical
  rcases Nat.eq_zero_or_pos num with rfl | hnum
  · exact ⟨.zero negative, rfl⟩
  · have hmagnitude : x.magnitude ≤ (2 * leadingBit - 1 : ℕ) * 2 ^ (971 : ℤ) := by
      have hnat : x.significand ≤ 2 * leadingBit - 1 := by omega
      calc x.magnitude = x.significand * 2 ^ x.exponent := rfl
        _ ≤ (2 * leadingBit - 1 : ℕ) * 2 ^ (971 : ℤ) := by
          gcongr
          exact one_le_two
    have hscale : binaryScale num den < 1024 := by
      refine (zpow_lt_zpow_iff_right₀ (one_lt_two (α := ℚ))).mp
        (((zpow_le_binaryScale hnum hden).1.trans (hle.trans hmagnitude)).trans_lt ?_)
      rw [show (1024 : ℤ) = 53 + 971 by rfl, zpow_add₀ two_ne_zero]
      gcongr
      norm_num
    simp only [Double.round, if_neg hnum.ne']
    generalize he : max (binaryScale num den - 52) (-1074) = e
    have hscaled : 0 < den * Nat.pow 2 e.toNat := Nat.mul_pos hden (Nat.pow_pos two_pos)
    obtain ⟨hmost, hleast⟩ := scaled_quotient_bounds hnum hden he
    obtain ⟨hrounded, hrounded'⟩ :=
      roundHalfEven_bounds (num * Nat.pow 2 (-e).toNat) (den * Nat.pow 2 e.toNat)
    -- at the largest exponent nothing is carried
    have hlast : e = 971 → roundHalfEven (num * Nat.pow 2 (-e).toNat)
        (den * Nat.pow 2 e.toNat) ≤ 2 * leadingBit - 1 := by
      intro he971
      refine roundHalfEven_le hscaled ?_
      rw [← Nat.cast_le (α := ℚ), Nat.cast_mul (2 * leadingBit - 1),
        ← div_le_iff₀ (Nat.cast_pos.mpr hscaled), scaled_quotient, div_le_iff₀ (by positivity),
        he971]
      exact hle.trans hmagnitude
    generalize roundHalfEven _ _ = m at hrounded hrounded' hlast ⊢
    by_cases hcarry : m = 2 * leadingBit
    · have hcanonical : Canonical leadingBit (e + 1) :=
        ⟨by decide, by omega, by omega, .inl le_rfl⟩
      simp only [if_pos hcarry, dif_pos hcanonical]
      exact ⟨_, rfl⟩
    · have hcanonical : Canonical m e := ⟨by omega, by omega, by omega, by omega⟩
      simp only [if_neg hcarry, dif_pos hcanonical]
      exact ⟨_, rfl⟩

/-- Rounding keeps the sign, and what is at least one stays at least one. -/
theorem Double.one_le_of_round {negative : Bool} {num den : Nat} {x : Binary64} (hden : 0 < den)
    (hle : den ≤ num) (h : Double.round negative num den = .finite x) :
    x.negative = negative ∧ 1 ≤ x.magnitude := by
  have hnum : 0 < num := hden.trans_le hle
  have hscale : -1 < binaryScale num den := by
    have hone : (2 : ℚ) ^ (0 : ℤ) ≤ num / den := by
      rw [zpow_zero, one_le_div (Nat.cast_pos.mpr hden), Nat.cast_le]
      exact hle
    have := (zpow_lt_zpow_iff_right₀ (one_lt_two (α := ℚ))).mp
      (hone.trans_lt (zpow_le_binaryScale hnum hden).2)
    omega
  simp only [Double.round, if_neg hnum.ne'] at h
  generalize he : max (binaryScale num den - 52) (-1074) = e at h
  obtain ⟨-, hfull⟩ := scaled_quotient_bounds hnum hden he
  obtain ⟨hrounded, -⟩ :=
    roundHalfEven_bounds (num * Nat.pow 2 (-e).toNat) (den * Nat.pow 2 e.toNat)
  generalize roundHalfEven _ _ = m at h hrounded
  -- the leading bit is in place, and it does not count less than one
  have hone : ∀ (n : Nat) (i : Int), leadingBit ≤ n → -52 ≤ i → (1 : ℚ) ≤ n * 2 ^ i := by
    intro n i hn hi
    calc (1 : ℚ) = leadingBit * 2 ^ (-52 : ℤ) := by norm_num
      _ ≤ n * 2 ^ i := by
        gcongr
        exact one_le_two
  by_cases hcarry : m = 2 * leadingBit
  · simp only [if_pos hcarry] at h
    split at h <;> cases h
    exact ⟨rfl, hone leadingBit (e + 1) le_rfl (by omega)⟩
  · simp only [if_neg hcarry] at h
    split at h <;> cases h
    exact ⟨rfl, hone m e (by omega) (by omega)⟩

/-- A quotient by a double that is at least one stays finite. -/
theorem Double.exists_div_eq_finite (x : Binary64) {y : Binary64} (hy : 1 ≤ y.magnitude) :
    ∃ q, Double.div x y = .finite q := by
  have hsignificand : y.significand ≠ 0 := by
    intro hzero
    rw [Binary64.magnitude, hzero, Nat.cast_zero, zero_mul] at hy
    exact absurd hy (by norm_num)
  have hden : 0 < x.denominator * y.numerator :=
    Nat.mul_pos (Nat.pow_pos two_pos)
      (Nat.mul_pos (Nat.pos_of_ne_zero hsignificand) (Nat.pow_pos two_pos))
  rw [div, if_neg (by simpa [Binary64.isZero] using hsignificand)]
  refine exists_round_eq_finite_of_le _ hden (x := x) ?_
  have hmagnitude : 0 ≤ x.magnitude := by
    rw [Binary64.magnitude]
    positivity
  calc ((x.numerator * y.denominator : ℕ) / (x.denominator * y.numerator : ℕ) : ℚ)
      = (x.numerator / x.denominator) / (y.numerator / y.denominator) := by
        push_cast
        rw [div_div_div_eq]
    _ = x.magnitude / y.magnitude := by
        rw [x.numerator_div_denominator, y.numerator_div_denominator]
    _ ≤ x.magnitude := div_le_self hmagnitude hy

end ReportSql.Decimal
