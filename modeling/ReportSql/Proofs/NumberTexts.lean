import ReportSql.Json.Tree
import ReportSql.Proofs.Numerals

/-!
# Texts of numbers

A number inside a document is written in the one form that documents have for it: a whole part, a
fraction and an exponent. Such a text is followed to its end wherever it stands, unless what stands
behind it goes on with the number.
-/

namespace ReportSql.Json

open ReportSql.Decimal

/-- Digits, and at least one of them. -/
structure AreDigits (ds : List Char) : Prop where
  ne_nil : ds ≠ []
  isDigit : ∀ c ∈ ds, c.isDigit = true

/-- The digits of a whole number: only a zero alone starts with a zero. -/
structure IsWhole (ds : List Char) : Prop extends AreDigits ds where
  zero : ds.head? = some '0' → ds = ['0']

/-- Nothing, or a point with digits behind it. -/
inductive IsFraction : List Char → Prop where
  | none : IsFraction []
  | some {ds : List Char} : AreDigits ds → IsFraction ('.' :: ds)

/-- Nothing, or the mark of an exponent with digits behind it, which may have a sign. -/
inductive IsExponent : List Char → Prop where
  | none : IsExponent []
  | plain {ds : List Char} : AreDigits ds → IsExponent ('e' :: ds)
  | minus {ds : List Char} : AreDigits ds → IsExponent ('e' :: '-' :: ds)
  | plus {ds : List Char} : AreDigits ds → IsExponent ('e' :: '+' :: ds)

/-- The text of a number without its sign. -/
inductive IsUnsigned : List Char → Prop where
  | mk {whole fraction exponent : List Char} : IsWhole whole → IsFraction fraction →
      IsExponent exponent → IsUnsigned (whole ++ (fraction ++ exponent))

/-- The text of a number. -/
inductive IsNumber : List Char → Prop where
  | unsigned {s : List Char} : IsUnsigned s → IsNumber s
  | negative {s : List Char} : IsUnsigned s → IsNumber ('-' :: s)

/-- May the character continue a number? -/
def continuesNumber (c : Char) : Bool :=
  c.isDigit || c == '.' || c == 'e' || c == 'E'

/-! ## Following numbers -/

section

theorem StartsWithout.digits {s : List Char} (h : StartsWithout continuesNumber s) :
    StartsWithout Char.isDigit s := by
  intro c hc
  have hcontinues := h c hc
  simp only [continuesNumber, Bool.or_eq_false_iff] at hcontinues
  exact hcontinues.1.1.1

variable {ds s : List Char}

theorem requiredDigits_append (hds : AreDigits ds) (hs : StartsWithout Char.isDigit s) :
    requiredDigits (ds ++ s) = .ok (ds.map digitValue, s) := by
  have hread := readDigits_append hds.isDigit hs
  rw [readDigits, Prod.mk.injEq] at hread
  obtain ⟨d, ds, rfl⟩ := List.exists_cons_of_ne_nil hds.ne_nil
  rw [requiredDigits, leadingDigits, hread.1, hread.2]
  rfl

theorem eq_zero_of_digitValue {c : Char} (hc : c.isDigit = true) (h : digitValue c = 0) :
    c = '0' := by
  have hrange : '0'.toNat ≤ c.toNat := by
    simp only [Char.isDigit, Bool.and_eq_true, decide_eq_true_eq] at hc
    exact hc.1
  have hvalue : c.toNat - '0'.toNat = 0 := h
  exact Char.toNat_inj.mp (by omega)

theorem wholeDigits_append (hds : IsWhole ds) (hs : StartsWithout Char.isDigit s) :
    wholeDigits (ds ++ s) = .ok (ds.map digitValue, s) := by
  have hzero : ((ds.map digitValue).head? == some 0 && decide (1 < (ds.map digitValue).length))
      = false := by
    rw [Bool.and_eq_false_imp, beq_iff_eq, List.head?_map, Option.map_eq_some_iff]
    rintro ⟨d, hhead, hvalue⟩
    have hd := hds.isDigit d (List.mem_of_head? hhead)
    rw [eq_zero_of_digitValue hd hvalue] at hhead
    rw [hds.zero hhead]
    rfl
  rw [wholeDigits, requiredDigits_append hds.toAreDigits hs]
  show (if _ then _ else _) = _
  rw [hzero]
  rfl

theorem exists_fractionDigits {fraction : List Char} (h : IsFraction fraction) :
    ∃ f, ∀ s, StartsWithout (fun c => c.isDigit || c == '.') s →
      fractionDigits (fraction ++ s) = .ok (f, s) := by
  cases h with
  | none =>
    refine ⟨.none, fun s hs => ?_⟩
    cases s with
    | nil => rfl
    | cons c s =>
      have hc : c ≠ '.' := by
        rintro rfl
        exact absurd (hs '.' rfl) (by decide)
      rw [List.nil_append, fractionDigits]
      exact fun _ h => hc (List.cons.inj h).1
  | @some ds hds =>
    refine ⟨.some (ds.map digitValue), fun s hs => ?_⟩
    have hdigit : StartsWithout Char.isDigit s :=
      fun c hc => (Bool.or_eq_false_iff.mp (hs c hc)).1
    rw [List.cons_append, fractionDigits, requiredDigits_append hds hdigit]
    rfl

theorem exists_exponentDigits {exponent : List Char} (h : IsExponent exponent) :
    ∃ e, ∀ s, StartsWithout continuesNumber s →
      exponentDigits (exponent ++ s) = .ok (e, s) := by
  cases h with
  | none =>
    refine ⟨none, fun s hs => ?_⟩
    cases s with
    | nil => rfl
    | cons c s =>
      have hc := hs c rfl
      simp only [continuesNumber, Bool.or_eq_false_iff] at hc
      simp [exponentDigits, hc]
  | @plain ds hds =>
    refine ⟨some (false, ds.map digitValue), fun s hs => ?_⟩
    have hdigits := requiredDigits_append hds (StartsWithout.digits hs)
    obtain ⟨d, ds, rfl⟩ := List.exists_cons_of_ne_nil hds.ne_nil
    have hd := hds.isDigit d (List.mem_cons_self ..)
    have hminus : d ≠ '-' := fun h => absurd (h ▸ hd) (by decide)
    have hplus : d ≠ '+' := fun h => absurd (h ▸ hd) (by decide)
    rw [List.cons_append] at hdigits
    simp [exponentDigits, hminus, hplus, hdigits]
    rfl
  | @minus ds hds =>
    refine ⟨some (true, ds.map digitValue), fun s hs => ?_⟩
    have hdigits := requiredDigits_append hds (StartsWithout.digits hs)
    simp [exponentDigits, hdigits]
    rfl
  | @plus ds hds =>
    refine ⟨some (false, ds.map digitValue), fun s hs => ?_⟩
    have hdigits := requiredDigits_append hds (StartsWithout.digits hs)
    simp [exponentDigits, hdigits]
    rfl

theorem startsWithout_exponent {exponent : List Char} (h : IsExponent exponent)
    (hs : StartsWithout continuesNumber s) :
    StartsWithout (fun c => c.isDigit || c == '.') (exponent ++ s) := by
  cases h with
  | none =>
    intro c hc
    have hcontinues := hs c hc
    simp only [continuesNumber, Bool.or_eq_false_iff] at hcontinues
    exact Bool.or_eq_false_iff.mpr hcontinues.1.1
  | plain | minus | plus =>
    rintro c ⟨⟩
    rfl

theorem startsWithout_fraction {fraction : List Char} (h : IsFraction fraction)
    (hs : StartsWithout (fun c => c.isDigit || c == '.') s) :
    StartsWithout Char.isDigit (fraction ++ s) := by
  cases h with
  | none => exact fun c hc => (Bool.or_eq_false_iff.mp (hs c hc)).1
  | some =>
    rintro c ⟨⟩
    rfl

theorem exists_followNumber (h : IsUnsigned ds) (negative : Bool) :
    ∃ n, ∀ s, StartsWithout continuesNumber s →
      followNumber negative (ds ++ s) = ⟨.number n, some s⟩ := by
  obtain @⟨whole, fraction, exponent, hwhole, hfraction, hexponent⟩ := h
  obtain ⟨f, hf⟩ := exists_fractionDigits hfraction
  obtain ⟨e, he⟩ := exists_exponentDigits hexponent
  refine ⟨⟨negative, whole.map digitValue, f, e⟩, fun s hs => ?_⟩
  have hbehind := startsWithout_exponent hexponent hs
  rw [List.append_assoc, List.append_assoc, followNumber,
    wholeDigits_append hwhole (startsWithout_fraction hfraction hbehind)]
  simp only [bind, Except.bind, hf _ hbehind, he s hs]

end

theorem exists_cons_of_isUnsigned {text : List Char} (h : IsUnsigned text) :
    ∃ d more, text = d :: more ∧ d.isDigit = true := by
  obtain ⟨hwhole, -, -⟩ := h
  obtain ⟨d, more, rfl⟩ := List.exists_cons_of_ne_nil hwhole.ne_nil
  exact ⟨d, _, rfl, hwhole.isDigit d (List.mem_cons_self ..)⟩

theorem skipSpace_cons {c : Char} {s : List Char} (h : isSpace c = false) :
    skipSpace (c :: s) = c :: s := by
  rw [skipSpace, List.dropWhile_cons, h]
  rfl

theorem ne_of_isDigit {c d : Char} (hc : c.isDigit = true) (hd : d.isDigit = false) : c ≠ d := by
  rintro rfl
  rw [hc] at hd
  cases hd

theorem isSpace_of_isDigit {c : Char} (h : c.isDigit = true) : isSpace c = false := by
  have hne := fun d hd => beq_false_of_ne (ne_of_isDigit (d := d) h hd)
  simp only [isSpace, hne ' ' rfl, hne '\n' rfl, hne '\t' rfl, hne '\r' rfl, Bool.or_false]

/-- The text of a number is followed to its end, wherever it stands. -/
theorem exists_followValue_number {text : List Char} (h : IsNumber text) :
    ∃ n, ∀ fuel s, StartsWithout continuesNumber s →
      followValue (fuel + 1) (text ++ s) = ⟨.number n, some s⟩ := by
  cases h with
  | @unsigned text h =>
    obtain ⟨n, hn⟩ := exists_followNumber h false
    refine ⟨n, fun fuel s hs => ?_⟩
    obtain ⟨d, more, rfl, hd⟩ := exists_cons_of_isUnsigned h
    have hfollow := hn s hs
    rw [List.cons_append] at hfollow ⊢
    have hne := fun c hc => beq_false_of_ne (ne_of_isDigit (d := c) hd hc)
    rw [followValue, skipSpace_cons (isSpace_of_isDigit hd)]
    simp only [hne 'n' rfl, hne 't' rfl, hne 'f' rfl, hne '-' rfl, hd, Bool.false_eq_true,
      if_false, if_true]
    exact hfollow
  | @negative text h =>
    obtain ⟨n, hn⟩ := exists_followNumber h true
    exact ⟨n, fun fuel s hs => hn s hs⟩

/-! ## The texts of numbers -/

theorem areDigits_natText (n : Nat) : AreDigits (natText n) :=
  ⟨natText_ne_nil n, isDigit_natText⟩

/-- The digits of a positive number start with another one than zero. -/
theorem head?_natText {n : Nat} (hn : 0 < n) : (natText n).head? ≠ some '0' := by
  induction n using Nat.strongRecOn with
  | ind n ih =>
    by_cases hsmall : n < 10
    · have hdigit : ∀ d < 10, 0 < d → Nat.digitChar d ≠ '0' := by decide
      rw [natText, Nat.toDigits_of_lt_base hsmall, List.head?_cons]
      exact fun h => hdigit n hsmall hn (Option.some.inj h)
    · have hlast : natText n = natText (n / 10) ++ [(n % 10).digitChar] :=
        Nat.toDigits_of_base_le (by decide) (by omega)
      rw [hlast, List.head?_append_of_ne_nil _ (natText_ne_nil _)]
      exact ih (n / 10) (by omega) (by omega)

theorem isWhole_of_head? {ds : List Char} (h : AreDigits ds) (hhead : ds.head? ≠ some '0') :
    IsWhole ds :=
  ⟨h, fun hzero => absurd hzero hhead⟩

theorem isWhole_natText (n : Nat) : IsWhole (natText n) := by
  rcases Nat.eq_zero_or_pos n with rfl | hn
  · exact ⟨areDigits_natText 0, fun _ => rfl⟩
  · exact isWhole_of_head? (areDigits_natText n) (head?_natText hn)

theorem isUnsigned_whole {ds : List Char} (h : IsWhole ds) : IsUnsigned ds := by
  simpa using IsUnsigned.mk h .none .none

theorem isNumber_intText (n : Int) : IsNumber (intText n) := by
  have h := isUnsigned_whole (isWhole_natText n.natAbs)
  rw [intText]
  split
  · exact .negative h
  · exact .unsigned h

theorem isExponent_exponentText (e : Int) : IsExponent (documentStyle.exponentText e) := by
  have hdigits := areDigits_natText e.natAbs
  by_cases he : 0 ≤ e
  · have htext : documentStyle.exponentText e = 'e' :: '+' :: natText e.natAbs := by
      simp [Style.exponentText, documentStyle, he, intText, Int.not_lt.mpr he]
    exact htext ▸ .plus hdigits
  · have htext : documentStyle.exponentText e = 'e' :: '-' :: natText e.natAbs := by
      simp [Style.exponentText, he, intText, Int.not_le.mp he]
    exact htext ▸ .minus hdigits

theorem AreDigits.append_zeros {ds : List Char} (h : AreDigits ds) (n : Nat) :
    AreDigits (ds ++ List.replicate n '0') :=
  ⟨List.append_ne_nil_of_left_ne_nil h.ne_nil _,
    fun c hc => (List.mem_append.mp hc).elim (h.isDigit c) (isDigit_zeros c)⟩

/-- Digits laid out around a point are a number, wherever the point stands. -/
theorem isUnsigned_layout {ds : List Char} (hds : AreDigits ds) (hhead : ds.head? ≠ some '0')
    (point : Int) : IsUnsigned (documentStyle.layout ds point) := by
  obtain ⟨d, more, rfl⟩ := List.exists_cons_of_ne_nil hds.ne_nil
  have hzero : AreDigits ['0'] := ⟨List.cons_ne_nil _ _, by simp⟩
  unfold Style.layout
  split
  · rename_i hpoint
    obtain ⟨n, hn⟩ := Nat.exists_eq_succ_of_ne_zero (n := point.toNat) (by omega)
    simp only
    split
    · have hwhole : IsWhole (d :: more ++ List.replicate (point.toNat - (d :: more).length) '0') :=
        isWhole_of_head? (hds.append_zeros _) hhead
      exact .mk hwhole (.some hzero) .none
    · rename_i hlength
      have hwhole : IsWhole ((d :: more).take point.toNat) := by
        refine isWhole_of_head? ⟨?_, fun c hc => hds.isDigit c (List.mem_of_mem_take hc)⟩ ?_
        · rw [hn, List.take_succ_cons]
          exact List.cons_ne_nil _ _
        · rwa [hn, List.take_succ_cons]
      have hfraction : AreDigits ((d :: more).drop point.toNat) := by
        refine ⟨fun hnil => hlength ?_, fun c hc => hds.isDigit c (List.mem_of_mem_drop hc)⟩
        exact List.drop_eq_nil_iff.mp hnil
      have h := IsUnsigned.mk hwhole (.some hfraction) .none
      rwa [List.append_nil] at h
  · split
    · have hwhole : IsWhole ['0'] := ⟨hzero, fun _ => rfl⟩
      have hfraction : AreDigits (List.replicate (-point).toNat '0' ++ d :: more) :=
        ⟨by simp, fun c hc => (List.mem_append.mp hc).elim (isDigit_zeros c) (hds.isDigit c)⟩
      have h := IsUnsigned.mk hwhole (.some hfraction) .none
      rwa [List.append_nil] at h
    · obtain ⟨hd, hmore⟩ := List.forall_mem_cons.mp hds.isDigit
      have hwhole : IsWhole [d] :=
        isWhole_of_head? ⟨List.cons_ne_nil _ _, by simpa using hd⟩ hhead
      have hexponent := isExponent_exponentText (point - 1)
      cases more with
      | nil => exact .mk hwhole .none hexponent
      | cons e more => exact .mk hwhole (.some ⟨List.cons_ne_nil _ _, hmore⟩) hexponent

theorem shortest_digits_pos {x : Binary64} (hx : x.isZero = false) : 0 < (shortest x).digits := by
  have hsignificand : x.significand ≠ 0 := by simpa [Binary64.isZero] using hx
  have hpos := (Binary64.absorbs_shortest hsignificand).pos hsignificand
  rw [Nat.pos_iff_ne_zero]
  intro hzero
  rw [Digits.value, hzero] at hpos
  simp at hpos

theorem isNumber_write (x : Binary64) : IsNumber (documentStyle.write x) := by
  have hbody : IsUnsigned (if x.isZero then ['0', '.', '0']
      else documentStyle.layout (natText (shortest x).digits)
        ((natText (shortest x).digits).length + (shortest x).scale)) := by
    cases hx : x.isZero with
    | true =>
      have hzero : AreDigits ['0'] := ⟨List.cons_ne_nil _ _, by simp⟩
      exact .mk ⟨hzero, fun _ => rfl⟩ (.some hzero) .none
    | false =>
      have hhead := head?_natText (shortest_digits_pos hx)
      exact isUnsigned_layout (areDigits_natText _) hhead _
  rw [Style.write]
  split
  · exact .negative hbody
  · exact .unsigned hbody

theorem isNumber_text (n : Number) : IsNumber n.text := by
  cases n with
  | integer n => exact isNumber_intText n.value
  | real x => exact isNumber_write x

end ReportSql.Json
