import ReportSql.Proofs.Decoding
import ReportSql.Proofs.Quoting
import ReportSql.Statement.Literal

/-!
# Statements with their values in place

A statement for showing to people is the statement that is run with one literal in place of each
placeholder, and nothing else changed. Which literal stands where is what `Filled` says; a text
among the values is read back from its quotes, whatever marks it holds, and no piece of either
statement is without a text.
-/

namespace ReportSql.Statement

open ReportSql.Decimal (Binary64 Double StartsWithout)
open ReportSql.Json (Integer Number Value)
open ReportSql.Report
open ReportSql.Sql

/-! ## Literals -/

/-- The literal of a value that can be bound. An integer beyond a signed word is written as the
double next to it. -/
inductive LiteralOf : Value → Token → Prop where
  | truth (b : Bool) : LiteralOf (.bool b) (.boolean b)
  | integer {n : Integer} : n.value < 2 ^ 63 → LiteralOf (.number (.integer n)) (.integer n.value)
  | large {n : Integer} {x : Binary64} : 2 ^ 63 ≤ n.value → Double.ofInt n.value = .finite x →
      LiteralOf (.number (.integer n)) (.real (.finite x))
  | real (x : Binary64) : LiteralOf (.number (.real x)) (.real (.finite x))
  | text (s : String) : LiteralOf (.string s) (.string s)

theorem literalOf_literal {v : Value} (h : v.isScalar = true) : LiteralOf v (literal v) := by
  cases v with
  | null | array _ | object _ => cases h
  | bool b => exact .truth b
  | string s => exact .text s
  | number n =>
    cases n with
    | real x => exact .real x
    | integer n =>
      rw [literal, Integer.toInt64?]
      split
      · rename_i hsize
        exact .integer hsize
      · rename_i hsize
        obtain ⟨x, hx⟩ := Catalog.exists_toDouble_eq_finite (.integer n)
        rw [if_neg (by simp), hx]
        exact .large (Int.not_lt.mp hsize) hx

namespace LiteralOf

variable {v : Value} {t : Token}

theorem position? (h : LiteralOf v t) : t.position? = none := by
  cases h <;> rfl

theorem unwritable? (h : LiteralOf v t) : t.unwritable? = none := by
  cases h <;> rfl

end LiteralOf

/-! ## Values in place of placeholders -/

/-- The second pieces are the first ones with the literals of the values in place of their
placeholders, which are numbered on behind `n`. No value is left over. -/
inductive Filled : Nat → List Value → List Token → List Token → Prop where
  | nil {n : Nat} : Filled n [] [] []
  | placeholder {n : Nat} {v : Value} {vs : List Value} {t : Token} {ts us : List Token} :
      LiteralOf v t → Filled (n + 1) vs ts us →
      Filled n (v :: vs) (.placeholder (n + 1) :: ts) (t :: us)
  | other {n : Nat} {vs : List Value} {t : Token} {ts us : List Token} :
      t.position? = none → Filled n vs ts us → Filled n vs (t :: ts) (t :: us)

theorem inlined_of_position?_eq_none {values : List Value} {t : Token}
    (h : t.position? = none) : inlined values t = t := by
  cases t with
  | placeholder index => cases h
  | _ => rfl

/-- Placeholders that are numbered in the order of reading are filled one value after the other. -/
theorem filled_inlined {values : List Value} (hscalar : ∀ v ∈ values, v.isScalar = true) {n : Nat}
    {ts : List Token}
    (h : placeholders ts = List.range' (n + 1) (values.drop n).length) :
    Filled n (values.drop n) ts (ts.map (inlined values)) := by
  induction ts generalizing n with
  | nil =>
    have hnone : values.drop n = [] := by
      rw [← List.length_eq_zero_iff, ← List.range'_eq_nil_iff]
      exact h.symm
    rw [hnone]
    exact .nil
  | cons t rest ih =>
    rw [placeholders_cons] at h
    cases hposition : t.position? with
    | none =>
      rw [hposition] at h
      rw [List.map_cons, inlined_of_position?_eq_none hposition]
      exact .other hposition (ih h)
    | some index =>
      obtain rfl : t = .placeholder index := by
        cases t with
        | placeholder i => exact congrArg _ (Option.some.inj hposition)
        | _ => cases hposition
      cases hvalues : values.drop n with
      | nil =>
        rw [hvalues] at h
        cases h
      | cons v vs =>
        have hvs : values.drop (n + 1) = vs := by
          rw [← List.drop_drop, hvalues, List.drop_one, List.tail_cons]
        have hv : values[n]? = some v := by
          rw [← List.head?_drop, hvalues, List.head?_cons]
        rw [hvalues] at h
        obtain ⟨rfl, hrest⟩ := List.cons.inj h
        rw [List.map_cons, inlined, hv]
        refine .placeholder (literalOf_literal (hscalar v (List.mem_of_getElem? hv))) ?_
        rw [← hvs]
        exact ih (by rw [hvs]; exact hrest)

namespace Filled

variable {n : Nat} {vs : List Value} {ts us : List Token}

theorem placeholders_eq_nil (h : Filled n vs ts us) : placeholders us = [] := by
  induction h with
  | nil => rfl
  | placeholder hv _ ih => rw [placeholders_cons, hv.position?, ih]; rfl
  | other ht _ ih => rw [placeholders_cons, ht, ih]; rfl

/-- Where the statement can be written, it can be written with the values in place. -/
theorem unwritable?_eq_none (h : Filled n vs ts us) (hts : ∀ t ∈ ts, t.unwritable? = none) :
    ∀ t ∈ us, t.unwritable? = none := by
  induction h with
  | nil => exact hts
  | placeholder hv _ ih =>
    exact List.forall_mem_cons.mpr ⟨hv.unwritable?, ih (List.forall_mem_cons.mp hts).2⟩
  | other _ _ ih =>
    obtain ⟨ht, hts⟩ := List.forall_mem_cons.mp hts
    exact List.forall_mem_cons.mpr ⟨ht, ih hts⟩

/-- The place of a value, with the values before and behind it in theirs. -/
theorem exists_place (h : Filled n vs ts us) {i : Nat} {v : Value} (hv : vs[i]? = some v) :
    ∃ ts₁ ts₂ us₁ us₂ t, ts = ts₁ ++ .placeholder (n + i + 1) :: ts₂ ∧ us = us₁ ++ t :: us₂ ∧
      LiteralOf v t ∧ Filled n (vs.take i) ts₁ us₁ ∧
      Filled (n + i + 1) (vs.drop (i + 1)) ts₂ us₂ := by
  induction h generalizing i with
  | nil => simp at hv
  | @placeholder n w vs t ts us hw hrest ih =>
    cases i with
    | zero =>
      obtain rfl : w = v := by simpa using hv
      exact ⟨[], ts, [], us, t, rfl, rfl, hw, .nil, hrest⟩
    | succ i =>
      obtain ⟨ts₁, ts₂, us₁, us₂, u, rfl, rfl, hu, hbefore, hbehind⟩ := ih (by simpa using hv)
      refine ⟨_ :: ts₁, ts₂, t :: us₁, us₂, u, ?_, rfl, hu, .placeholder hw hbefore, ?_⟩
      · rw [List.cons_append, Nat.add_right_comm n 1 i, Nat.add_assoc n i 1]
      · rwa [Nat.add_right_comm n 1 i, Nat.add_assoc n i 1] at hbehind
  | @other n vs t ts us ht _ ih =>
    obtain ⟨ts₁, ts₂, us₁, us₂, u, rfl, rfl, hu, hbefore, hbehind⟩ := ih hv
    exact ⟨t :: ts₁, ts₂, t :: us₁, us₂, u, rfl, rfl, hu, .other ht hbefore, hbehind⟩

end Filled

/-! ## The pieces stand apart -/

theorem inlined_of_isBreak {values : List Value} {t : Token} (h : t.isBreak = true) :
    inlined values t = t :=
  inlined_of_position?_eq_none (by cases t <;> first | rfl | cases h)

theorem spaced_inlined {values : List Value} {ts : List Token} (h : Spaced ts) :
    Spaced (ts.map (inlined values)) := by
  refine List.isChain_map_of_isChain (inlined values) ?_ h
  rintro t u (ht | hu | rfl | ⟨rfl, name, rfl⟩)
  · exact .inl (by rwa [inlined_of_isBreak ht])
  · exact .inr (.inl (by rwa [inlined_of_isBreak hu]))
  · exact .inr (.inr (.inl rfl))
  · exact .inr (.inr (.inr ⟨rfl, name, rfl⟩))

/-- A text among pieces that stand apart is read back from its quotes. -/
theorem readQuoted_of_spaced {d : Dialect} {before behind : List Token} {s : String}
    (h : Spaced (before ++ .string s :: behind)) :
    ∃ rest, (before ++ .string s :: behind).flatMap (tokenText d) =
        before.flatMap (tokenText d) ++ '\x27' :: rest ∧
      readQuoted '\x27' rest = some (s.toList, behind.flatMap (tokenText d)) := by
  have hbehind : StartsWithout (· == '\x27') (behind.flatMap (tokenText d)) :=
    startsWithout_of_apart (t := .string s) h.right_of_append
  refine ⟨_, ?_, readQuoted_double s.toList hbehind⟩
  simp [tokenText, Dialect.quoteString, quoted]

theorem render_eq_ok {d : Dialect} {ts : List Token} (h : ∀ t ∈ ts, t.unwritable? = none) :
    render d ts = .ok (statementText d ts) := by
  rw [render, List.findSome?_eq_none_iff.mpr h]

theorem unwritable?_of_plain {t : Token} (h : t.Plain) : t.unwritable? = none := by
  cases t with
  | real x =>
    obtain ⟨y, rfl⟩ := h
    rfl
  | _ => rfl

/-- The placeholders of a compiled statement are filled with the values that are bound. -/
theorem filled_of_compile {r : Catalog.Registry} {c : Config} {o : Options} {k : Compiled}
    (h : compile r c o = .ok k) :
    Filled 0 k.parameters k.query.tokens (k.query.tokens.map (inlined k.parameters)) := by
  obtain ⟨v, joins, window, hc⟩ := compile_eq_ok_iff.mp h
  exact filled_inlined hc.isScalar_parameters (n := 0) hc.placeholders_eq

/-- **The statement for showing to people is the compiled one with its values in place.** Each
placeholder is replaced by the literal of its value, and nothing else changes; no placeholder
remains, and both statements can be written. A text among the values stands in quotes from which it
is read back, between what is before and behind its placeholder, whatever characters it holds. -/
theorem preview_fills_placeholders {r : Catalog.Registry} {c : Config} {o : Options} {k : Compiled}
    (h : compile r c o = .ok k) :
    ∃ us, Filled 0 k.parameters k.query.tokens us ∧ placeholders us = [] ∧
      render k.dialect k.query.tokens = .ok k.sql ∧ render k.dialect us = .ok k.preview ∧
      ∀ i s, k.parameters[i]? = some (.string s) →
        ∃ ts₁ ts₂ us₁ us₂ rest, k.query.tokens = ts₁ ++ .placeholder (i + 1) :: ts₂ ∧
          Filled 0 (k.parameters.take i) ts₁ us₁ ∧
          Filled (i + 1) (k.parameters.drop (i + 1)) ts₂ us₂ ∧
          k.preview.toList = us₁.flatMap (tokenText k.dialect) ++ '\x27' :: rest ∧
          readQuoted '\x27' rest = some (s.toList, us₂.flatMap (tokenText k.dialect)) := by
  obtain ⟨v, joins, window, hc⟩ := compile_eq_ok_iff.mp h
  have hwritable : ∀ t ∈ k.query.tokens, t.unwritable? = none :=
    fun t ht => unwritable?_of_plain (hc.plain t ht)
  have hfilled := filled_of_compile h
  have hspaced : Spaced (k.query.tokens.map (inlined k.parameters)) :=
    spaced_inlined k.query.spaced_tokens
  refine ⟨_, hfilled, hfilled.placeholders_eq_nil, render_eq_ok hwritable,
    render_eq_ok (hfilled.unwritable?_eq_none hwritable), fun i s hs => ?_⟩
  obtain ⟨ts₁, ts₂, us₁, us₂, t, hts, hus, ht, hbefore, hbehind⟩ := hfilled.exists_place hs
  cases ht
  rw [hus] at hspaced
  obtain ⟨rest, htext, hread⟩ := readQuoted_of_spaced (d := k.dialect) hspaced
  rw [Nat.zero_add] at hts hbehind
  refine ⟨ts₁, ts₂, us₁, us₂, rest, hts, hbefore, hbehind, ?_, hread⟩
  rw [Compiled.preview, statementText, String.toList_ofList, hus, htext]

/-- A network whose name holds a quote and marks of placeholders. -/
theorem fastDrives_preview :
    ∃ k us, compile .telematics (fastDrives "it\x27s $1 or ?" 2) newYearOptions = .ok k ∧
      Filled 0 k.parameters k.query.tokens us ∧ placeholders us = [] ∧
      ∃ before behind rest, k.preview.toList = before ++ '\x27' :: rest ∧
        readQuoted '\x27' rest = some ("%it\x27s $1 or ?%".toList, behind) := by
  have hcompiled :
      (compile .telematics (fastDrives "it\x27s $1 or ?" 2) newYearOptions).toOption.map
        (fun k => k.parameters[2]?) = some (some (.string "%it\x27s $1 or ?%")) := by
    decide +kernel
  obtain ⟨k, hk, hparam⟩ := exists_ok_of_map hcompiled
  obtain ⟨us, hfilled, hnone, -, -, htexts⟩ := preview_fills_placeholders hk
  obtain ⟨_, _, _, _, rest, -, -, -, htext, hread⟩ := htexts 2 _ hparam
  exact ⟨k, us, hk, hfilled, hnone, _, _, rest, htext, hread⟩

end ReportSql.Statement
