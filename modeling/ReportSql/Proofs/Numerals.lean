import Mathlib.Data.List.TakeWhile
import ReportSql.Decimal.Text
import ReportSql.Proofs.Rounding

/-!
# Reading numerals

A numeral has a sign, digits, a fraction behind a point and an exponent behind its mark.
`readNumeral` reads as long a numeral as a text begins with. The texts of integers and of doubles
are numerals, and reading them gives the same integer and the same double.
-/

namespace ReportSql.Decimal

/-! ## Numerals -/

/-- The parts of a numeral as they are written. -/
structure Numeral where
  negative : Bool
  whole : List Char
  /-- The digits behind the point, if there is one. -/
  fraction : Option (List Char)
  /-- The exponent, if there is one. -/
  exponent : Option Int

/-- The natural number that digits stand for. -/
def digitsValue (ds : List Char) : Nat :=
  Nat.ofDigitChars 10 ds 0

namespace Numeral

/-- Is the numeral written without a point and an exponent? -/
def isInteger (n : Numeral) : Bool :=
  n.fraction.isNone && n.exponent.isNone

/-- The integer of a numeral without a point and an exponent. -/
def toInt (n : Numeral) : Int :=
  if n.negative then -digitsValue n.whole else digitsValue n.whole

/-- The magnitude of the numeral: its digits without the point. -/
def digits (n : Numeral) : Digits :=
  ⟨digitsValue (n.whole ++ n.fraction.getD []), n.exponent.getD 0 - (n.fraction.getD []).length⟩

/-- The double nearest to the numeral. -/
def toDouble (n : Numeral) : Double :=
  .round n.negative (n.digits.digits * Nat.pow 10 n.digits.scale.toNat)
    (Nat.pow 10 (-n.digits.scale).toNat)

/-- The point with the digits behind it. -/
def fractionText : Option (List Char) → List Char
  | some f => '.' :: f
  | none => []

/-- The exponent behind its mark. -/
def exponentText : Option Int → List Char
  | some e => 'e' :: intText e
  | none => []

def text (n : Numeral) : List Char :=
  (if n.negative then ['-'] else [])
    ++ (n.whole ++ (fractionText n.fraction ++ exponentText n.exponent))

end Numeral

/-! ## The reader -/

/-- Whether a text starts with a minus sign, and what is behind it. -/
def readSign : List Char → Bool × List Char
  | '-' :: s => (true, s)
  | s => (false, s)

/-- The digits that a text starts with, and what is behind them. -/
def readDigits (s : List Char) : List Char × List Char :=
  (s.takeWhile Char.isDigit, s.dropWhile Char.isDigit)

def readFraction : List Char → Option (List Char) × List Char
  | '.' :: s => (some (readDigits s).1, (readDigits s).2)
  | s => (none, s)

def readExponent : List Char → Option Int × List Char
  | 'e' :: s =>
    let (negative, s) := readSign s
    let (ds, s) := readDigits s
    (some (if negative then -digitsValue ds else digitsValue ds), s)
  | s => (none, s)

/-- The numeral that a text starts with, and what is behind it. -/
def readNumeral (s : List Char) : Numeral × List Char :=
  let (negative, s) := readSign s
  let (whole, s) := readDigits s
  let (fraction, s) := readFraction s
  let (exponent, s) := readExponent s
  (⟨negative, whole, fraction, exponent⟩, s)

/-! ## Reading what is written -/

/-- The text does not start with such a character. -/
def StartsWithout (p : Char → Bool) (s : List Char) : Prop :=
  ∀ c ∈ s.head?, p c = false

theorem startsWithout_nil (p : Char → Bool) : StartsWithout p [] :=
  fun _ hc => nomatch hc

theorem startsWithout_cons {p : Char → Bool} {c : Char} (hc : p c = false) (s : List Char) :
    StartsWithout p (c :: s) := by
  rintro d ⟨⟩
  exact hc

theorem startsWithout_append {p : Char → Bool} {part : List Char} (hne : part ≠ [])
    (hpart : ∀ c ∈ part, p c = false) (s : List Char) : StartsWithout p (part ++ s) := by
  obtain ⟨c, rest, rfl⟩ := List.exists_cons_of_ne_nil hne
  exact startsWithout_cons (hpart c (List.mem_cons_self ..)) _

theorem StartsWithout.takeWhile_eq {p : Char → Bool} {s : List Char} (h : StartsWithout p s) :
    s.takeWhile p = [] := by
  cases s with
  | nil => rfl
  | cons c rest => exact List.takeWhile_cons_of_neg (by simp [h c rfl])

theorem StartsWithout.dropWhile_eq {p : Char → Bool} {s : List Char} (h : StartsWithout p s) :
    s.dropWhile p = s := by
  cases s with
  | nil => rfl
  | cons c rest => exact List.dropWhile_cons_of_neg (by simp [h c rfl])

theorem StartsWithout.takeWhile_append {p : Char → Bool} {part s : List Char}
    (hs : StartsWithout p s) (hpart : ∀ c ∈ part, p c = true) :
    (part ++ s).takeWhile p = part := by
  rw [List.takeWhile_append_of_pos hpart, hs.takeWhile_eq, List.append_nil]

theorem StartsWithout.dropWhile_append {p : Char → Bool} {part s : List Char}
    (hs : StartsWithout p s) (hpart : ∀ c ∈ part, p c = true) :
    (part ++ s).dropWhile p = s := by
  rw [List.dropWhile_append_of_pos hpart, hs.dropWhile_eq]

theorem startsWithout_of_takeWhile {p : Char → Bool} {s : List Char} (h : s.takeWhile p = []) :
    StartsWithout p s := by
  intro c hc
  obtain ⟨rest, rfl⟩ := List.head?_eq_some_iff.mp hc
  by_contra hne
  rw [List.takeWhile_cons_of_pos (Bool.not_eq_false _ ▸ hne)] at h
  cases h

theorem startsWithout_dropWhile (p : Char → Bool) (s : List Char) :
    StartsWithout p (s.dropWhile p) := by
  intro c hc
  have h := List.head?_dropWhile_not p s
  rw [Option.mem_def.mp hc] at h
  simpa using h

/-- May the character continue a numeral? -/
def continuesNumeral (c : Char) : Bool :=
  c.isDigit || c == '.' || c == 'e'

theorem StartsWithout.isDigit {s : List Char} (h : StartsWithout continuesNumeral s) :
    StartsWithout Char.isDigit s := by
  intro c hc
  have hcontinues := h c hc
  rw [continuesNumeral, Bool.or_eq_false_iff, Bool.or_eq_false_iff] at hcontinues
  exact hcontinues.1.1

theorem readDigits_append {ds s : List Char} (hds : ∀ c ∈ ds, c.isDigit = true)
    (hs : StartsWithout Char.isDigit s) : readDigits (ds ++ s) = (ds, s) := by
  rw [readDigits, hs.takeWhile_append hds, hs.dropWhile_append hds]

theorem isDigit_natText {n : Nat} : ∀ c ∈ natText n, c.isDigit = true :=
  fun _ hc => Nat.isDigit_of_mem_toDigits (by decide) (by decide) hc

theorem digitsValue_append (ds es : List Char) :
    digitsValue (ds ++ es) = digitsValue ds * 10 ^ es.length + digitsValue es := by
  rw [digitsValue, Nat.ofDigitChars_append, Nat.ofDigitChars_eq_ofDigitChars_zero, Nat.mul_comm]
  rfl

theorem digitsValue_zeros (n : Nat) : digitsValue (List.replicate n '0') = 0 := by
  rw [digitsValue, Nat.ofDigitChars_replicate_zero, Nat.mul_zero]

theorem digitsValue_natText (n : Nat) : digitsValue (natText n) = n :=
  Nat.ofDigitChars_ten_toDigits

theorem natText_ne_nil (n : Nat) : natText n ≠ [] :=
  Nat.toDigits_ne_nil

theorem intText_eq (n : Int) :
    intText n = (if decide (n < 0) then ['-'] else []) ++ natText n.natAbs := by
  rw [intText]
  split <;> simp [*]

theorem natAbs_with_sign (n : Int) :
    (if decide (n < 0) then -(n.natAbs : Int) else n.natAbs) = n := by
  split <;> rename_i h
  · have hneg := of_decide_eq_true h
    omega
  · have hpos := of_decide_eq_false (Bool.not_eq_true _ ▸ h)
    omega

/-- A sign is read off if digits are behind it. -/
theorem readSign_append {negative : Bool} {ds s : List Char} (hds : ∀ c ∈ ds, c.isDigit = true)
    (hne : ds ≠ []) :
    readSign ((if negative then ['-'] else []) ++ (ds ++ s)) = (negative, ds ++ s) := by
  obtain ⟨d, ds, rfl⟩ := List.exists_cons_of_ne_nil hne
  cases negative with
  | true => rfl
  | false =>
    have hd : d ≠ '-' := by
      rintro rfl
      exact absurd (hds '-' (List.mem_cons_self ..)) (by decide)
    simp [readSign, hd]

theorem readExponent_intText (e : Int) {s : List Char} (hs : StartsWithout continuesNumeral s) :
    readExponent ('e' :: (intText e ++ s)) = (some e, s) := by
  rw [intText_eq, List.append_assoc, readExponent]
  simp only [readSign_append isDigit_natText (natText_ne_nil _),
    readDigits_append isDigit_natText hs.isDigit, digitsValue_natText, natAbs_with_sign]

namespace Numeral

theorem readExponent_exponentText (e : Option Int) {s : List Char}
    (hs : StartsWithout continuesNumeral s) : readExponent (exponentText e ++ s) = (e, s) := by
  cases e with
  | some e => exact readExponent_intText e hs
  | none =>
    cases s with
    | nil => rfl
    | cons c rest =>
      have hc : c ≠ 'e' := by
        rintro rfl
        exact absurd (hs 'e' rfl) (by decide)
      simp [exponentText, readExponent, hc]

theorem startsWithout_exponentText (e : Option Int) {s : List Char}
    (hs : StartsWithout continuesNumeral s) :
    StartsWithout (fun c => c.isDigit || c == '.') (exponentText e ++ s) := by
  intro c hc
  cases e with
  | some e =>
    obtain rfl : 'e' = c := by simpa [exponentText] using hc
    decide
  | none =>
    have hcontinues := hs c (by simpa [exponentText] using hc)
    rw [continuesNumeral, Bool.or_eq_false_iff] at hcontinues
    exact hcontinues.1

theorem readFraction_fractionText {f : Option (List Char)}
    (hf : ∀ ds ∈ f, ∀ c ∈ ds, c.isDigit = true) {s : List Char}
    (hs : StartsWithout (fun c => c.isDigit || c == '.') s) :
    readFraction (fractionText f ++ s) = (f, s) := by
  cases f with
  | some ds =>
    have hdigit : StartsWithout Char.isDigit s :=
      fun c hc => (Bool.or_eq_false_iff.mp (hs c hc)).1
    rw [fractionText, List.cons_append, readFraction, readDigits_append (hf ds rfl) hdigit]
  | none =>
    cases s with
    | nil => rfl
    | cons c rest =>
      have hc : c ≠ '.' := by
        rintro rfl
        exact absurd (hs '.' rfl) (by decide)
      simp [fractionText, readFraction, hc]

theorem startsWithout_fractionText (f : Option (List Char)) {s : List Char}
    (hs : StartsWithout (fun c => c.isDigit || c == '.') s) :
    StartsWithout Char.isDigit (fractionText f ++ s) := by
  intro c hc
  cases f with
  | some ds =>
    obtain rfl : '.' = c := by simpa [fractionText] using hc
    decide
  | none => exact (Bool.or_eq_false_iff.mp (hs c (by simpa [fractionText] using hc))).1

/-- The numeral consists of digits where it should, and of at least one. -/
structure Proper (n : Numeral) : Prop where
  whole_ne_nil : n.whole ≠ []
  whole : ∀ c ∈ n.whole, c.isDigit = true
  fraction : ∀ f ∈ n.fraction, ∀ c ∈ f, c.isDigit = true

/-- **A numeral is read back.** -/
theorem readNumeral_text {n : Numeral} (hn : n.Proper) {s : List Char}
    (hs : StartsWithout continuesNumeral s) : readNumeral (n.text ++ s) = (n, s) := by
  have hexponent := startsWithout_exponentText n.exponent hs
  rw [text, List.append_assoc, List.append_assoc, List.append_assoc, readNumeral]
  simp only [readSign_append hn.whole hn.whole_ne_nil,
    readDigits_append hn.whole (startsWithout_fractionText n.fraction hexponent),
    readFraction_fractionText hn.fraction hexponent, readExponent_exponentText n.exponent hs]

theorem exists_cons_text {n : Numeral} (hn : n.Proper) :
    ∃ c s, n.text = c :: s ∧ (c.isDigit || c == '-') = true := by
  obtain ⟨d, ds, hd⟩ := List.exists_cons_of_ne_nil hn.whole_ne_nil
  have hdigit := hn.whole d (hd ▸ List.mem_cons_self ..)
  rw [text, hd]
  cases n.negative with
  | true => exact ⟨'-', _, rfl, rfl⟩
  | false => exact ⟨d, _, rfl, by rw [hdigit]; rfl⟩

theorem Proper.text_ne_nil {n : Numeral} (hn : n.Proper) : n.text ≠ [] := by
  obtain ⟨c, s, htext, -⟩ := exists_cons_text hn
  exact htext ▸ List.cons_ne_nil c s

end Numeral

/-! ## The texts of numbers -/

/-- The text of an integer is a numeral without a point and an exponent. -/
theorem exists_numeral_intText (n : Int) :
    ∃ m : Numeral, intText n = m.text ∧ m.Proper ∧ m.isInteger = true ∧ m.toInt = n := by
  refine ⟨⟨decide (n < 0), natText n.natAbs, none, none⟩, ?_,
    ⟨natText_ne_nil _, isDigit_natText, by simp⟩, rfl, ?_⟩
  · rw [intText_eq, Numeral.text]
    simp [Numeral.fractionText, Numeral.exponentText]
  · rw [Numeral.toInt, digitsValue_natText]
    exact natAbs_with_sign n

/-- The numeral is written as the text, without a sign but with a point or an exponent, and has the
value. -/
structure Numeral.Denotes (m : Numeral) (text : List Char) (value : ℚ) : Prop where
  text_eq : text = m.text
  proper : m.Proper
  not_negative : m.negative = false
  not_integer : m.isInteger = false
  value_eq : m.digits.value = value

/-- Digits with a point between them. -/
theorem denotes_positional {whole fraction : List Char} (hne : whole ≠ [])
    (hwhole : ∀ c ∈ whole, c.isDigit = true) (hfraction : ∀ c ∈ fraction, c.isDigit = true)
    {value : ℚ} (hvalue : digitsValue (whole ++ fraction) * 10 ^ (-(fraction.length : ℤ)) = value) :
    Numeral.Denotes ⟨false, whole, some fraction, none⟩ (whole ++ '.' :: fraction) value where
  text_eq := by simp [Numeral.text, Numeral.fractionText, Numeral.exponentText]
  proper := ⟨hne, hwhole, by rintro f ⟨⟩; exact hfraction⟩
  not_negative := rfl
  not_integer := rfl
  value_eq := by
    rw [← hvalue, Digits.value, Numeral.digits]
    simp only [Option.getD_some, Option.getD_none, zero_sub]

theorem isDigit_zeros {n : Nat} : ∀ c ∈ List.replicate n '0', c.isDigit = true := by
  intro c hc
  rw [List.eq_of_mem_replicate hc]
  rfl

section

variable {ds : List Char} {point : Int}

/-- All digits stand before the point, with zeros behind them. -/
theorem denotes_whole (hne : ds ≠ []) (hds : ∀ c ∈ ds, c.isDigit = true)
    (hlength : ds.length ≤ point) :
    ∃ m : Numeral, m.Denotes (ds ++ List.replicate (point.toNat - ds.length) '0' ++ ['.', '0'])
      (digitsValue ds * 10 ^ (point - ds.length)) := by
  have hscale : point - ds.length = (point.toNat - ds.length : ℕ) := by omega
  have hzero : digitsValue ['0'] = 0 := rfl
  refine ⟨_, denotes_positional (by simp [hne]) ?_ (by simp) ?_⟩
  · intro c hc
    exact (List.mem_append.mp hc).elim (hds c) (isDigit_zeros c)
  · simp only [digitsValue_append, digitsValue_zeros, hzero, hscale, zpow_natCast,
      List.length_replicate, List.length_singleton]
    push_cast
    rw [zpow_neg_one]
    ring

/-- The point stands between the digits. -/
theorem denotes_split (hds : ∀ c ∈ ds, c.isDigit = true) (hpoint : 0 < point)
    (hlength : point < ds.length) :
    ∃ m : Numeral, m.Denotes (ds.take point.toNat ++ '.' :: ds.drop point.toNat)
      (digitsValue ds * 10 ^ (point - ds.length)) := by
  have hscale : -((ds.length - point.toNat : ℕ) : ℤ) = point - ds.length := by omega
  refine ⟨_, denotes_positional ?_ (fun c hc => hds c (List.mem_of_mem_take hc))
    (fun c hc => hds c (List.mem_of_mem_drop hc)) ?_⟩
  · apply List.ne_nil_of_length_pos
    rw [List.length_take]
    omega
  · rw [List.take_append_drop, List.length_drop, hscale]

/-- Zeros stand between the point and the digits. -/
theorem denotes_fraction (hds : ∀ c ∈ ds, c.isDigit = true) (hpoint : point ≤ 0) :
    ∃ m : Numeral, m.Denotes ('0' :: '.' :: List.replicate (-point).toNat '0' ++ ds)
      (digitsValue ds * 10 ^ (point - ds.length)) := by
  have hscale : -(((-point).toNat + ds.length : ℕ) : ℤ) = point - ds.length := by omega
  have hzero : digitsValue ['0'] = 0 := rfl
  refine ⟨⟨false, ['0'], some (List.replicate (-point).toNat '0' ++ ds), none⟩,
    denotes_positional (List.cons_ne_nil '0' []) (by simp) ?_ ?_⟩
  · intro c hc
    exact (List.mem_append.mp hc).elim (isDigit_zeros c) (hds c)
  · simp only [digitsValue_append, digitsValue_zeros, hzero, List.length_append,
      List.length_replicate, hscale, Nat.zero_mul, Nat.zero_add]

/-- One digit stands before the point, and an exponent behind the others. -/
theorem denotes_scientific {d : Char} {more : List Char}
    (hds : ∀ c ∈ d :: more, c.isDigit = true) (point : Int) :
    ∃ m : Numeral, m.Denotes
      (match more with
        | [] => d :: statementStyle.exponentText (point - 1)
        | e :: more => d :: '.' :: (e :: more) ++ statementStyle.exponentText (point - 1))
      (digitsValue (d :: more) * 10 ^ (point - (d :: more).length)) := by
  obtain ⟨hd, hmore⟩ := List.forall_mem_cons.mp hds
  have hscale : point - 1 - (more.length : ℤ) = point - (d :: more).length := by
    rw [List.length_cons]
    omega
  cases more with
  | nil =>
    refine ⟨⟨false, [d], none, some (point - 1)⟩, rfl, ⟨by simp, by simpa using hd, by simp⟩,
      rfl, rfl, ?_⟩
    simp [Digits.value, Numeral.digits]
  | cons e more =>
    refine ⟨⟨false, [d], some (e :: more), some (point - 1)⟩, rfl,
      ⟨by simp, by simpa using hd, by rintro f ⟨⟩; exact hmore⟩, rfl, rfl, ?_⟩
    simp only [Digits.value, Numeral.digits, Option.getD_some, hscale, List.singleton_append]

/-- Digits laid out around a point form a numeral of the same value. -/
theorem exists_numeral_layout (hne : ds ≠ []) (hds : ∀ c ∈ ds, c.isDigit = true) (point : Int) :
    ∃ m : Numeral, m.Denotes (statementStyle.layout ds point)
      (digitsValue ds * 10 ^ (point - ds.length)) := by
  unfold Style.layout
  split
  · rename_i hpoint
    simp only
    split
    · exact denotes_whole hne hds (by omega)
    · exact denotes_split hds hpoint.1 (by omega)
  · split
    · rename_i hpoint
      exact denotes_fraction hds hpoint.2
    · obtain ⟨d, more, rfl⟩ := List.exists_cons_of_ne_nil hne
      obtain ⟨m, hm⟩ := denotes_scientific hds point
      refine ⟨m, ?_⟩
      cases more with
      | nil => exact hm
      | cons e more => exact hm

end

/-- The text of a double without its sign. -/
theorem exists_numeral_body (x : Binary64) :
    ∃ m : Numeral, m.Denotes
      (if x.isZero then ['0', '.', '0']
        else statementStyle.layout (natText (shortest x).digits)
          ((natText (shortest x).digits).length + (shortest x).scale))
      (shortest x).value := by
  split
  · rename_i hzero
    have hvalue : (shortest x).value = 0 := by simp [Digits.value, shortest, hzero]
    refine ⟨_, denotes_positional (List.cons_ne_nil '0' []) (by simp) (by simp) ?_⟩
    simp [hvalue, digitsValue, Nat.ofDigitChars]
  · have h := exists_numeral_layout (natText_ne_nil (shortest x).digits) isDigit_natText
      ((natText (shortest x).digits).length + (shortest x).scale)
    rwa [add_sub_cancel_left, digitsValue_natText] at h

/-- The text of a double is a numeral with the value of its shortest digits. -/
theorem exists_numeral_shortest (x : Binary64) :
    ∃ m : Numeral, statementStyle.write x = m.text ∧ m.Proper ∧ m.negative = x.negative ∧
      m.isInteger = false ∧ m.digits.value = (shortest x).value := by
  obtain ⟨m, hm⟩ := exists_numeral_body x
  have hproper := hm.proper
  refine ⟨{ m with negative := x.negative }, ?_, ⟨hproper.1, hproper.2, hproper.3⟩, rfl,
    hm.not_integer, hm.value_eq⟩
  rw [Style.write]
  simp only [hm.text_eq, Numeral.text, hm.not_negative]
  split <;> rfl

/-- The text of a double is a numeral that is nearest to the double. -/
theorem exists_numeral_write (x : Binary64) :
    ∃ m : Numeral, statementStyle.write x = m.text ∧ m.Proper ∧ m.isInteger = false ∧
      m.toDouble = .finite x := by
  obtain ⟨m, htext, hproper, hsign, hinteger, hvalue⟩ := exists_numeral_shortest x
  refine ⟨m, htext, hproper, hinteger, ?_⟩
  have hden : 0 < Nat.pow 10 (-m.digits.scale).toNat := Nat.pow_pos (by decide)
  rw [Numeral.toDouble, hsign]
  refine Binary64.round_shortest x hden ?_
  rw [← hvalue, Digits.value, div_eq_iff (Nat.cast_ne_zero.mpr hden.ne')]
  have h := Binary64.zpow_mul_pow_toNat_neg (b := 10) (by norm_num) m.digits.scale
  push_cast [Nat.pow_eq]
  rw [mul_assoc, h]

end ReportSql.Decimal
