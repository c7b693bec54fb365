import ReportSql.Proofs.Compilation
import ReportSql.Proofs.Pieces

/-!
# Placeholders in the order of reading

The placeholders of a compiled statement, read from left to right over all its clauses, are one to
the number of bound values, each once. The bound values are the operands of the filters in order,
then the bounds of the time window, and all of them are plain values.

Only conditions hold placeholders; the other clauses are shown to have none. Within the conditions
each conjunct numbers its own values behind those of the conjuncts before it, and the conjunction is
read in the same order.
-/

namespace ReportSql.Sql

/-! ## Placeholders of pieces -/

/-- The position that a piece refers to, if it is a placeholder. -/
def Token.position? : Token → Option Nat
  | .placeholder index => some index
  | _ => none

/-- The positions that pieces refer to, in the order of reading. -/
def placeholders (ts : List Token) : List Nat :=
  ts.filterMap Token.position?

@[simp] theorem placeholders_nil : placeholders [] = [] := rfl

@[simp] theorem placeholders_append (ts us : List Token) :
    placeholders (ts ++ us) = placeholders ts ++ placeholders us :=
  List.filterMap_append

@[simp] theorem placeholders_cons (t : Token) (ts : List Token) :
    placeholders (t :: ts) = t.position?.toList ++ placeholders ts := by
  cases h : t.position? <;> simp [placeholders, h]

@[simp] theorem placeholders_negation (negated : Bool) :
    placeholders (Expr.negation negated) = [] := by
  cases negated <;> rfl

/-! ## Placeholders of expressions -/

namespace Expr

/-- No bound value is referred to. -/
def Unbound (e : Expr) : Prop :=
  placeholders e.tokens = []

theorem unbound_column (table : Option String) (name : String) : (column table name).Unbound := by
  cases table <;> rfl

theorem unbound_number (x : Decimal.Double) : (number x).Unbound := rfl

theorem placeholders_param (i : Nat) : placeholders (param i).tokens = [i] := rfl

theorem placeholders_binary (op : BinaryOp) (l r : Expr) :
    placeholders (binary op l r).tokens = placeholders l.tokens ++ placeholders r.tokens := by
  have hop : placeholders [.space, op.token, .space] = [] := by cases op <;> rfl
  rw [tokens, placeholders_append, placeholders_append, hop, List.append_nil]

theorem Unbound.binary {l r : Expr} (hl : l.Unbound) (hr : r.Unbound) (op : BinaryOp) :
    (Expr.binary op l r).Unbound := by
  rw [Unbound, placeholders_binary, hl, hr, List.append_nil]

theorem Unbound.call {e : Expr} (he : e.Unbound) (function : String) (distinct : Bool) :
    (Expr.call function distinct [e]).Unbound := by
  have he' : placeholders e.tokens = [] := he
  rw [Unbound, tokens_call_singleton]
  cases distinct <;> simp [he', Token.position?]

theorem placeholders_restTokens (is : List Nat) :
    placeholders (restTokens (is.map .param)) = is := by
  induction is with
  | nil => rfl
  | cons i rest ih =>
    simp only [List.map_cons, restTokens, placeholders_append, ih, placeholders_param]
    rfl

theorem placeholders_listTokens (is : List Nat) :
    placeholders (listTokens (is.map .param)) = is := by
  cases is with
  | nil => rfl
  | cons i rest =>
    rw [List.map_cons, listTokens, placeholders_append, placeholders_restTokens, placeholders_param]
    rfl

/-- A test for membership reads its list; behind an empty list nothing is left of it. -/
theorem placeholders_isIn {e : Expr} (he : e.Unbound) (negated : Bool) (is : List Nat) :
    placeholders (isIn e negated (is.map .param)).tokens = is := by
  have he' : placeholders e.tokens = [] := he
  cases is with
  | nil => cases negated <;> rfl
  | cons i rest =>
    have hlist := placeholders_listTokens (i :: rest)
    rw [List.map_cons] at hlist ⊢
    simp [tokens, he', hlist, Token.position?]

theorem placeholders_between {e : Expr} (he : e.Unbound) (negated : Bool) (low high : Expr) :
    placeholders (between e negated low high).tokens =
      placeholders low.tokens ++ placeholders high.tokens := by
  have he' : placeholders e.tokens = [] := he
  simp [tokens, he', Token.position?]

theorem placeholders_isNull {e : Expr} (he : e.Unbound) (negated : Bool) :
    placeholders (isNull e negated).tokens = [] := by
  have he' : placeholders e.tokens = [] := he
  simp [tokens, he', Token.position?]

theorem placeholders_like {e : Expr} (he : e.Unbound) (negated caseless : Bool) (escape : Char)
    (pattern : Expr) :
    placeholders (like e negated caseless escape pattern).tokens = placeholders pattern.tokens := by
  have he' : placeholders e.tokens = [] := he
  simp [tokens, he', Token.position?]

end Expr

/-! ## Placeholders of statements -/

theorem skipsFrame_position? : SkipsFrame Token.position? := by
  intro t ht
  cases t with
  | placeholder index => cases ht
  | _ => rfl

namespace Query

/-- A statement is read clause by clause; the tables and the limit refer to no bound value. -/
theorem placeholders_tokens (q : Query) :
    placeholders q.tokens =
      (q.select.flatMap fun s => placeholders s.expr.tokens)
        ++ (q.joins.flatMap fun j => placeholders j.condition.tokens)
        ++ (q.condition.toList.flatMap fun e => placeholders e.tokens)
        ++ (q.groupBy.flatMap fun e => placeholders e.tokens)
        ++ (q.orderBy.flatMap fun s => placeholders s.expr.tokens) := by
  have hgroup : [.keyword .groupBy].filterMap Token.position? = [] := rfl
  rw [placeholders, q.filterMap_tokens skipsFrame_position?, hgroup, ite_self, List.nil_append]
  rfl

/-- A statement that refers to bound values in its condition alone. -/
theorem placeholders_of_unbound {q : Query} (hselect : ∀ s ∈ q.select, s.expr.Unbound)
    (hjoins : ∀ j ∈ q.joins, j.condition.Unbound) (hgroup : ∀ e ∈ q.groupBy, e.Unbound)
    (horder : ∀ s ∈ q.orderBy, s.expr.Unbound) :
    placeholders q.tokens = q.condition.toList.flatMap fun e => placeholders e.tokens := by
  rw [placeholders_tokens, List.flatMap_eq_nil_iff.mpr hselect, List.flatMap_eq_nil_iff.mpr hjoins,
    List.flatMap_eq_nil_iff.mpr hgroup, List.flatMap_eq_nil_iff.mpr horder]
  simp only [List.nil_append, List.append_nil]

end Query

end ReportSql.Sql

namespace ReportSql.Statement

open ReportSql.Catalog
open ReportSql.Json (Value)
open ReportSql.Report
open ReportSql.Sql
open ReportSql.Time (Instant TimeRange WindowBounds)

/-! ## What the clauses of a report refer to -/

namespace Target

theorem unbound_valueExpr (infer : Bool) (t : Target) : (t.valueExpr infer).Unbound := by
  unfold valueExpr
  split
  · exact (Expr.unbound_column _ _).binary (Expr.unbound_number _) .div
  · exact Expr.unbound_column _ _

theorem unbound_aggregateExpr (infer : Bool) (a : Aggregation) (t : Target) :
    (t.aggregateExpr infer a).Unbound := by
  cases a
  case count | countDistinct => exact (Expr.unbound_column _ _).call _ _
  case sum | avg | min | max => exact (t.unbound_valueExpr infer).call _ _

end Target

theorem unbound_selectedExpr (infer : Bool) (s : Placed SelectedField) :
    (selectedExpr infer s).Unbound := by
  rcases selectedExpr_cases infer s with h | ⟨a, h⟩
  · rw [h]
    exact s.target.unbound_valueExpr infer
  · rw [h]
    exact s.target.unbound_aggregateExpr infer a

theorem unbound_sortExpr (infer : Bool) (v : Resolved) (t : Target) :
    (sortExpr infer v t).Unbound := by
  rcases sortExpr_cases infer v t with h | ⟨a, h⟩
  · rw [h]
    exact t.unbound_valueExpr infer
  · rw [h]
    exact t.unbound_aggregateExpr infer a

theorem unbound_of_joinOf {r : Registry} {c : Config} {e : Join.JoinEdge} {j : Sql.Join}
    (h : joinOf r c e = .ok j) : j.condition.Unbound := by
  obtain ⟨source, target, -, -, rfl⟩ := joinOf_eq_ok_iff.mp h
  exact (Expr.unbound_column _ _).binary (Expr.unbound_column _ _) .eq

/-! ## What the conditions refer to -/

/-- The conjunct refers to its own values, in order, behind those bound before. -/
def Conjunct.Numbered (p : Conjunct) : Prop :=
  ∀ n, placeholders (p.form n).tokens = List.range' (n + 1) p.values.length

theorem conditionBehind_numbered {e : Expr} (he : e.Unbound) (f : Filter) :
    Conjunct.Numbered ⟨conditionBehind e f, operandValues f⟩ := by
  intro n
  have he' : placeholders e.tokens = [] := he
  simp only [conditionBehind]
  cases hop : f.operator
  case equals | notEquals | greaterThan | greaterEqual | lessThan | lessEqual =>
    simp [operandValues, hop, Expr.placeholders_binary, Expr.placeholders_param, he']
  case between =>
    simp [operandValues, hop, Expr.placeholders_between he, Expr.placeholders_param,
      List.range'_succ]
  case isIn | notIn => exact Expr.placeholders_isIn he _ _
  case contains | notContains | startsWith | endsWith =>
    simp [operandValues, hop, Expr.placeholders_like he, Expr.placeholders_param]
  case isNull | isNotNull =>
    simp [operandValues, hop, Expr.placeholders_isNull he]

theorem boundConjunct_numbered {e : Expr} (he : e.Unbound) (op : BinaryOp) (s : String) :
    (boundConjunct op e s).Numbered := by
  intro n
  have he' : placeholders e.tokens = [] := he
  simp [boundConjunct, Expr.placeholders_binary, Expr.placeholders_param, he']

theorem conjuncts_numbered (infer : Bool) (fs : List (Placed Filter))
    (window : Option (WindowBounds × Target)) : ∀ p ∈ conjuncts infer fs window, p.Numbered := by
  intro p hp
  rcases List.mem_append.mp hp with hp | hp
  · obtain ⟨f, -, rfl⟩ := List.mem_map.mp hp
    exact conditionBehind_numbered (f.target.unbound_valueExpr infer) f.part
  · cases window with
    | none => cases hp
    | some w =>
      obtain ⟨bounds, t⟩ := w
      simp only [windowConjuncts, List.mem_append, Option.mem_toList, Option.map_eq_some_iff] at hp
      rcases hp with ⟨s, -, rfl⟩ | ⟨s, -, rfl⟩
      · exact boundConjunct_numbered (t.unbound_valueExpr infer) .ge s
      · exact boundConjunct_numbered (t.unbound_valueExpr infer) .le s

/-- **Numbering**: conjuncts one after another are numbered without a gap. -/
theorem placeholders_formsFrom {ps : List Conjunct} (h : ∀ p ∈ ps, p.Numbered) (n : Nat) :
    ((formsFrom n ps).flatMap fun e => placeholders e.tokens) =
      List.range' (n + 1) (valuesOf ps).length := by
  -- the positions of the rest continue where those of the first conjunct end
  induction ps generalizing n with
  | nil => rfl
  | cons p rest ih =>
    have hrest := ih (fun q hq => h q (List.mem_cons_of_mem _ hq)) (n + p.values.length)
    rw [formsFrom, List.flatMap_cons, h p (List.mem_cons_self ..) n, hrest, valuesOf_cons,
      List.length_append, ← List.range'_append_1, Nat.add_right_comm]

/-! ## Compiled reports -/

section

variable {r : Registry} {c : Config} {o : Options} {v : Resolved} {joins : List Sql.Join}
  {window : Option (WindowBounds × Target)} {k : Compiled}

theorem Compilation.placeholders_eq (h : Compilation r c o v joins window k) :
    placeholders k.query.tokens = List.range' 1 k.parameters.length := by
  have hjoins : ∀ j ∈ joins, j.condition.Unbound := by
    intro j hj
    obtain ⟨e, -, he⟩ := exists_hop_of_mem h.joined hj
    exact unbound_of_joinOf he
  rw [h.result, assembled, Query.placeholders_of_unbound]
  · rw [flatMap_conjunction (Expr.placeholders_binary .and),
      placeholders_formsFrom (conjuncts_numbered o.inferEncodings v.filters window)]
  · intro s hs
    obtain ⟨p, -, rfl⟩ := List.mem_map.mp hs
    exact unbound_selectedExpr o.inferEncodings p
  · exact hjoins
  · intro e he
    obtain ⟨p, -, rfl⟩ := List.mem_map.mp he
    exact p.target.unbound_valueExpr o.inferEncodings
  · intro s hs
    obtain ⟨p, -, rfl⟩ := List.mem_map.mp hs
    exact unbound_sortExpr o.inferEncodings v p.target

/-- The values bound for the time window of a report: the start, then the end, each if there is
one. -/
inductive WindowValues (now : Instant) : Option TimeRange → List Value → Prop where
  | none : WindowValues now none []
  | some {range : TimeRange} {bounds : WindowBounds} : range.resolve now = .ok bounds →
      WindowValues now (some range) ((bounds.start.toList ++ bounds.finish.toList).map .string)

theorem valuesOf_windowConjuncts (e : Expr) (bounds : WindowBounds) :
    valuesOf (windowConjuncts e bounds) =
      (bounds.start.toList ++ bounds.finish.toList).map Value.string := by
  obtain ⟨start, finish⟩ := bounds
  cases start <;> cases finish <;> rfl

theorem Compilation.windowValues (h : Compilation r c o v joins window k) :
    ∃ vs, WindowValues o.now c.timeRange vs ∧
      k.parameters = (v.filters.map fun f => operandValues f.part).flatten ++ vs := by
  have hfilters : valuesOf (v.filters.map (filterConjunct o.inferEncodings)) =
      (v.filters.map fun f => operandValues f.part).flatten := by
    rw [valuesOf, List.flatMap_map, List.flatMap_def]
    rfl
  cases window with
  | none =>
    refine ⟨[], ?_, ?_⟩
    · rw [h.timeRange_eq_none]
      exact .none
    · rw [h.result, assembled, conjuncts, List.append_nil, List.append_nil, hfilters]
  | some w =>
    obtain ⟨bounds, t⟩ := w
    obtain ⟨range, asked, hrange, hr, -⟩ := h.window_named
    refine ⟨(bounds.start.toList ++ bounds.finish.toList).map Value.string, ?_, ?_⟩
    · rw [hrange]
      exact .some hr
    · rw [h.result, assembled, conjuncts, valuesOf_append, hfilters, valuesOf_windowConjuncts]

/-- The filters of a resolved report with the values that they bind. -/
theorem Resolution.operands (h : Resolution r c v) :
    List.Forall₂ OperandsOf c.filters (v.filters.map fun f => operandValues f.part) := by
  rw [← h.filters_parts, List.forall₂_map_left_iff, List.forall₂_map_right_iff,
    List.forall₂_same]
  intro f hf
  exact (operandValues_of_sound (h.filters_sound f hf)).1

theorem WindowValues.isScalar {now : Instant} {range : Option TimeRange} {vs : List Value}
    (h : WindowValues now range vs) : ∀ v ∈ vs, v.isScalar = true := by
  cases h with
  | none => simp
  | some _ =>
    intro v hv
    obtain ⟨s, -, rfl⟩ := List.mem_map.mp hv
    rfl

/-- Whatever is bound is a truth value, a number or a text. -/
theorem Compilation.isScalar_parameters (h : Compilation r c o v joins window k) :
    ∀ x ∈ k.parameters, x.isScalar = true := by
  obtain ⟨vs, hvs, hparams⟩ := h.windowValues
  rw [hparams]
  intro x hx
  rcases List.mem_append.mp hx with hx | hx
  · simp only [List.mem_flatten, List.mem_map] at hx
    obtain ⟨_, ⟨f, hf, rfl⟩, hx⟩ := hx
    exact (operandValues_of_sound (h.resolved.filters_sound f hf)).2 x hx
  · exact hvs.isScalar x hx

end

/-- **Bound values are read in order.** The placeholders of a compiled statement are one to the
number of bound values, each once and from left to right, so that positional and numbered
placeholders bind alike. The bound values are the operands of the filters, in order, and then the
bounds of the time window; every one of them is a truth value, a number or a text. -/
theorem placeholders_in_reading_order {r : Registry} {c : Config} {o : Options} {k : Compiled}
    (h : compile r c o = .ok k) :
    placeholders k.query.tokens = List.range' 1 k.parameters.length ∧
      (∃ operands window, List.Forall₂ OperandsOf c.filters operands ∧
        WindowValues o.now c.timeRange window ∧
        k.parameters = operands.flatten ++ window) ∧
      ∀ v ∈ k.parameters, v.isScalar = true := by
  obtain ⟨v, joins, window, hc⟩ := compile_eq_ok_iff.mp h
  obtain ⟨vs, hvs, hparams⟩ := hc.windowValues
  exact ⟨hc.placeholders_eq, ⟨_, vs, hc.resolved.operands, hvs, hparams⟩, hc.isScalar_parameters⟩

theorem fastDrives_placeholders :
    ∃ k, compile .telematics (fastDrives "100%" 2) newYearOptions = .ok k ∧
      placeholders k.query.tokens = [1, 2, 3, 4, 5, 6, 7] ∧
      ∀ v ∈ k.parameters, v.isScalar = true := by
  obtain ⟨k, hk, hlength⟩ := exists_compiled_fastDrives
  obtain ⟨hread, -, hscalar⟩ := placeholders_in_reading_order hk
  refine ⟨k, hk, ?_, hscalar⟩
  rw [hread, hlength]
  rfl

end ReportSql.Statement
