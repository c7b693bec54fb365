import ReportSql.Statement.Compiled

/-!
# Conditions and the values that they bind

Building a condition appends values to those bound before, and the condition depends on these only
through their number. `Binds` says so of any construction. It turns the conditions of a report into
a list of conjuncts, each a condition with the values that are its own; positions come from counting
the values of the conjuncts before.

The values of a filter are its operands as it has them, `OperandsOf`. Only what a pattern operator
looks for is bound in another form: `PatternOf` says which, character by character.
-/

namespace ReportSql.Statement

open ReportSql.Json (Value)
open ReportSql.Report (Filter Operator)
open ReportSql.Sql (BinaryOp Expr Query)
open ReportSql.Time (WindowBounds)

/-! ## Constructions that bind -/

/-- The construction binds the values `vs`, and what it builds depends only on how many values are
bound before. -/
def Binds {α : Type} (m : Binding α) (build : Nat → α) (vs : List Value) : Prop :=
  ∀ b : Bound, m b = (build b.values.length, ⟨b.values ++ vs⟩)

namespace Binds

variable {α β : Type}

theorem pure (a : α) : Binds (Pure.pure a) (fun _ => a) [] := by
  intro b
  rw [List.append_nil]
  rfl

/-- One construction after another: the second one counts the values of the first as bound. -/
theorem andThen {m : Binding α} {k : α → Binding β} {build : Nat → α} {next : α → Nat → β}
    {vs ws : List Value} (hm : Binds m build vs) (hk : ∀ a, Binds (k a) (next a) ws) :
    Binds (m >>= k) (fun n => next (build n) (n + vs.length)) (vs ++ ws) := by
  intro b
  show k (m b).1 (m b).2 = _
  rw [hm b, hk]
  simp only [List.length_append, List.append_assoc]

theorem thenPure {m : Binding α} {build : Nat → α} {vs : List Value} (hm : Binds m build vs)
    (f : α → β) : Binds (m >>= fun a => Pure.pure (f a)) (fun n => f (build n)) vs := by
  have h := hm.andThen fun a => Binds.pure (f a)
  rwa [List.append_nil] at h

end Binds

theorem bind_binds (v : Value) : Binds (bind v) (fun n => .param (n + 1)) [v] :=
  fun _ => rfl

/-- The references to `count` values behind the first `n`. -/
def paramsFrom (n count : Nat) : List Expr :=
  (List.range' (n + 1) count).map .param

theorem bindAll_binds (vs : List Value) :
    Binds (bindAll vs) (fun n => paramsFrom n vs.length) vs := by
  induction vs with
  | nil => exact .pure []
  | cons v rest ih => exact (bind_binds v).andThen fun e => ih.thenPure (e :: ·)

/-! ## Conjuncts -/

/-- A condition together with the values that it binds. -/
structure Conjunct where
  /-- The condition where so many values are bound before its own. -/
  form : Nat → Expr
  values : List Value

/-- The conditions of conjuncts one after another, behind `n` other values. -/
def formsFrom : Nat → List Conjunct → List Expr
  | _, [] => []
  | n, p :: rest => p.form n :: formsFrom (n + p.values.length) rest

/-- The values of conjuncts one after another. -/
def valuesOf (ps : List Conjunct) : List Value :=
  ps.flatMap Conjunct.values

@[simp] theorem valuesOf_nil : valuesOf [] = [] := rfl

@[simp] theorem valuesOf_cons (p : Conjunct) (rest : List Conjunct) :
    valuesOf (p :: rest) = p.values ++ valuesOf rest := rfl

@[simp] theorem valuesOf_append (ps qs : List Conjunct) :
    valuesOf (ps ++ qs) = valuesOf ps ++ valuesOf qs :=
  List.flatMap_append

theorem formsFrom_append (n : Nat) (ps qs : List Conjunct) :
    formsFrom n (ps ++ qs) = formsFrom n ps ++ formsFrom (n + (valuesOf ps).length) qs := by
  induction ps generalizing n with
  | nil => rfl
  | cons p rest ih =>
    simp only [List.cons_append, formsFrom, ih, valuesOf_cons, List.length_append, Nat.add_assoc]

theorem mem_formsFrom {n : Nat} {ps : List Conjunct} {e : Expr} (h : e ∈ formsFrom n ps) :
    ∃ p ∈ ps, ∃ m, e = p.form m := by
  induction ps generalizing n with
  | nil => cases h
  | cons p rest ih =>
    rcases List.mem_cons.mp h with rfl | h
    · exact ⟨p, List.mem_cons_self .., n, rfl⟩
    · obtain ⟨q, hq, m, rfl⟩ := ih h
      exact ⟨q, List.mem_cons_of_mem _ hq, m, rfl⟩

/-! ## Filters -/

/-- The values that a filter binds for its operands. -/
def operandValues (f : Filter) : List Value :=
  match f.operator with
  | .equals | .notEquals | .greaterThan | .greaterEqual | .lessThan | .lessEqual =>
    [operand f.value]
  | .between => [operand f.value, operand f.upper]
  | .isIn | .notIn => listOperand f.value
  | .contains | .notContains | .startsWith | .endsWith =>
    [.string (.ofList (pattern f.operator (soughtText (operand f.value))))]
  | .isNull | .isNotNull => []

/-- The condition of a filter on an expression, behind `n` values. -/
def conditionBehind (e : Expr) (f : Filter) (n : Nat) : Expr :=
  match f.operator with
  | .equals => .binary .eq e (.param (n + 1))
  | .notEquals => .binary .ne e (.param (n + 1))
  | .greaterThan => .binary .gt e (.param (n + 1))
  | .greaterEqual => .binary .ge e (.param (n + 1))
  | .lessThan => .binary .lt e (.param (n + 1))
  | .lessEqual => .binary .le e (.param (n + 1))
  | .between => .between e false (.param (n + 1)) (.param (n + 2))
  | .isIn => .isIn e false (paramsFrom n (operandValues f).length)
  | .notIn => .isIn e true (paramsFrom n (operandValues f).length)
  | .contains | .startsWith | .endsWith => .like e false true escapeMark (.param (n + 1))
  | .notContains => .like e true true escapeMark (.param (n + 1))
  | .isNull => .isNull e false
  | .isNotNull => .isNull e true

theorem comparison_binds (op : BinaryOp) (e : Expr) (f : Filter) :
    Binds (comparison op e f) (fun n => .binary op e (.param (n + 1))) [operand f.value] :=
  (bind_binds _).thenPure (Expr.binary op e)

theorem patternMatch_binds (negated : Bool) (e : Expr) (f : Filter) :
    Binds (patternMatch negated e f)
      (fun n => .like e negated true escapeMark (.param (n + 1)))
      [.string (.ofList (pattern f.operator (soughtText (operand f.value))))] :=
  (bind_binds _).thenPure (Expr.like e negated true escapeMark)

theorem filterCondition_binds (e : Expr) (f : Filter) :
    Binds (filterCondition e f) (conditionBehind e f) (operandValues f) := by
  obtain ⟨id, entity, field, op, value, upper⟩ := f
  cases op
  case equals | notEquals | greaterThan | greaterEqual | lessThan | lessEqual =>
    exact comparison_binds _ e _
  case between =>
    exact (bind_binds _).andThen fun low => (bind_binds _).thenPure (Expr.between e false low)
  case isIn => exact (bindAll_binds _).thenPure (Expr.isIn e false)
  case notIn => exact (bindAll_binds _).thenPure (Expr.isIn e true)
  case contains | startsWith | endsWith => exact patternMatch_binds false e _
  case notContains => exact patternMatch_binds true e _
  case isNull => exact .pure (Expr.isNull e false)
  case isNotNull => exact .pure (Expr.isNull e true)

/-- The conjunct of a filter. -/
def filterConjunct (infer : Bool) (f : Placed Filter) : Conjunct :=
  ⟨conditionBehind (f.target.valueExpr infer) f.part, operandValues f.part⟩

theorem filterConditions_binds (infer : Bool) (fs : List (Placed Filter)) :
    Binds (filterConditions infer fs) (formsFrom · (fs.map (filterConjunct infer)))
      (valuesOf (fs.map (filterConjunct infer))) := by
  induction fs with
  | nil => exact .pure []
  | cons f rest ih =>
    exact (filterCondition_binds (f.target.valueExpr infer) f.part).andThen
      fun e => ih.thenPure (e :: ·)

/-! ## The time window -/

/-- The conjunct of a bound of a time window. -/
def boundConjunct (op : BinaryOp) (e : Expr) (s : String) : Conjunct :=
  ⟨fun n => .binary op e (.param (n + 1)), [.string s]⟩

theorem boundCondition_binds (op : BinaryOp) (e : Expr) (s : Option String) :
    Binds (boundCondition op e s) (formsFrom · (s.map (boundConjunct op e)).toList)
      (valuesOf (s.map (boundConjunct op e)).toList) := by
  cases s with
  | none => exact .pure []
  | some s => exact (bind_binds (.string s)).thenPure fun v => [Expr.binary op e v]

/-- The conjuncts of a time window on an expression: the start, then the end. -/
def windowConjuncts (e : Expr) (bounds : WindowBounds) : List Conjunct :=
  (bounds.start.map (boundConjunct .ge e)).toList ++
    (bounds.finish.map (boundConjunct .le e)).toList

theorem windowConditions_binds (e : Expr) (bounds : WindowBounds) :
    Binds (windowConditions e bounds) (formsFrom · (windowConjuncts e bounds))
      (valuesOf (windowConjuncts e bounds)) := by
  have h := (boundCondition_binds .ge e bounds.start).andThen fun start =>
    (boundCondition_binds .le e bounds.finish).thenPure (start ++ ·)
  simp only [windowConjuncts, formsFrom_append, valuesOf_append]
  exact h

/-! ## All conditions -/

/-- The conjuncts of a report: those of its filters, then those of its time window. -/
def conjuncts (infer : Bool) (fs : List (Placed Filter))
    (window : Option (WindowBounds × Target)) : List Conjunct :=
  fs.map (filterConjunct infer) ++
    match window with
    | none => []
    | some (bounds, t) => windowConjuncts (t.valueExpr infer) bounds

theorem conditions_binds (infer : Bool) (fs : List (Placed Filter))
    (window : Option (WindowBounds × Target)) :
    Binds (conditions infer fs window) (formsFrom · (conjuncts infer fs window))
      (valuesOf (conjuncts infer fs window)) := by
  cases window with
  | none =>
    simp only [conjuncts, List.append_nil]
    exact (filterConditions_binds infer fs).thenPure fun es => es
  | some w =>
    obtain ⟨bounds, t⟩ := w
    have h := (filterConditions_binds infer fs).andThen fun es =>
      (windowConditions_binds (t.valueExpr infer) bounds).thenPure (es ++ ·)
    simp only [conjuncts, formsFrom_append, valuesOf_append]
    exact h

theorem conditions_empty (infer : Bool) (fs : List (Placed Filter))
    (window : Option (WindowBounds × Target)) :
    conditions infer fs window .empty =
      (formsFrom 0 (conjuncts infer fs window), ⟨valuesOf (conjuncts infer fs window)⟩) :=
  conditions_binds infer fs window .empty

/-! ## Conjunctions -/

/-- The condition that all of the given ones hold, if there are any. -/
def conjunction : List Expr → Option Expr
  | [] => none
  | e :: rest => some (rest.foldl (.binary .and) e)

theorem foldl_filter_some (es : List Expr) (q : Query) {e : Expr} (h : q.condition = some e) :
    es.foldl Query.filter q = { q with condition := some (es.foldl (.binary .and) e) } := by
  induction es generalizing q e with
  | nil => rw [List.foldl_nil, List.foldl_nil, ← h]
  | cons x rest ih =>
    have hstep : (q.filter x).condition = some (.binary .and e x) := by simp [Query.filter, h]
    rw [List.foldl_cons, ih _ hstep]
    rfl

/-- Adding conditions one by one joins them to one. -/
theorem foldl_filter (es : List Expr) (q : Query) (h : q.condition = none) :
    es.foldl Query.filter q = { q with condition := conjunction es } := by
  cases es with
  | nil => rw [List.foldl_nil, conjunction, ← h]
  | cons e rest =>
    have hstep : (q.filter e).condition = some e := by simp [Query.filter, h]
    rw [List.foldl_cons, foldl_filter_some _ _ hstep]
    rfl

/-- What is collected from both sides of a conjunction is collected from all its parts in order. -/
theorem flatMap_conjunction {α : Type} {collect : Expr → List α}
    (hand : ∀ l r, collect (.binary .and l r) = collect l ++ collect r) (es : List Expr) :
    (conjunction es).toList.flatMap collect = es.flatMap collect := by
  have hfold : ∀ (es : List Expr) (e : Expr),
      collect (es.foldl (.binary .and) e) = collect e ++ es.flatMap collect := by
    intro es
    induction es with
    | nil =>
      intro e
      rw [List.foldl_nil, List.flatMap_nil, List.append_nil]
    | cons x rest ih =>
      intro e
      rw [List.foldl_cons, ih, hand, List.flatMap_cons, List.append_assoc]
  cases es with
  | nil => rfl
  | cons e rest =>
    rw [conjunction, Option.toList_some, List.flatMap_cons, List.flatMap_nil, List.append_nil,
      hfold, List.flatMap_cons]

/-! ## Escaped texts -/

/-- The second text is the first one with a `!` of its own before each `!`, `%` and `_`. -/
inductive Escapes : List Char → List Char → Prop where
  | nil : Escapes [] []
  | mark {c : Char} {s t : List Char} : c ∈ ['!', '%', '_'] → Escapes s t →
      Escapes (c :: s) ('!' :: c :: t)
  | char {c : Char} {s t : List Char} : c ∉ ['!', '%', '_'] → Escapes s t →
      Escapes (c :: s) (c :: t)

/-- An operator looks for a text by the escaped text, with a `%` where it lets others stand. -/
inductive PatternOf (s : List Char) : Operator → List Char → Prop where
  | startsWith {t : List Char} : Escapes s t → PatternOf s .startsWith (t ++ ['%'])
  | endsWith {t : List Char} : Escapes s t → PatternOf s .endsWith ('%' :: t)
  | contains {t : List Char} : Escapes s t → PatternOf s .contains ('%' :: t ++ ['%'])
  | notContains {t : List Char} : Escapes s t → PatternOf s .notContains ('%' :: t ++ ['%'])

section

variable {c : Char} {s t : List Char}

theorem isPatternMark_iff : isPatternMark c = true ↔ c ∈ ['!', '%', '_'] := by
  simp [isPatternMark, escapeMark, or_assoc]

theorem isPatternMark_eq_false_iff : isPatternMark c = false ↔ c ∉ ['!', '%', '_'] := by
  rw [← isPatternMark_iff, Bool.not_eq_true]

theorem escapePattern_cons_of_mark (h : isPatternMark c = true) :
    escapePattern (c :: s) = escapeMark :: c :: escapePattern s := by
  simp [escapePattern, h]

theorem escapePattern_cons_of_plain (h : isPatternMark c = false) :
    escapePattern (c :: s) = c :: escapePattern s := by
  simp [escapePattern, h]

/-- A text is escaped in one way only. -/
theorem escapes_iff : Escapes s t ↔ t = escapePattern s := by
  constructor
  · intro h
    induction h with
    | nil => rfl
    | mark hc _ ih => rw [escapePattern_cons_of_mark (isPatternMark_iff.mpr hc), ih, escapeMark]
    | char hc _ ih => rw [escapePattern_cons_of_plain (isPatternMark_eq_false_iff.mpr hc), ih]
  · rintro rfl
    induction s with
    | nil => exact .nil
    | cons c s ih =>
      cases hc : isPatternMark c with
      | true =>
        rw [escapePattern_cons_of_mark hc]
        exact .mark (isPatternMark_iff.mp hc) ih
      | false =>
        rw [escapePattern_cons_of_plain hc]
        exact .char (isPatternMark_eq_false_iff.mp hc) ih

theorem patternOf_iff {op : Operator} {p : List Char} :
    PatternOf s op p ↔ op.isPattern = true ∧ p = pattern op s := by
  constructor
  · intro h
    cases h with
    | startsWith hs | endsWith hs | contains hs | notContains hs =>
      obtain rfl := escapes_iff.mp hs
      exact ⟨rfl, rfl⟩
  · rintro ⟨hop, rfl⟩
    have hs : Escapes s (escapePattern s) := escapes_iff.mpr rfl
    cases op
    case startsWith => exact .startsWith hs
    case endsWith => exact .endsWith hs
    case contains => exact .contains hs
    case notContains => exact .notContains hs
    all_goals cases hop

end

/-! ## Operands -/

/-- What a filter has for operands: nothing for a test for no value, one value for a comparison, one
pattern for a match, the two ends of a range, or the elements of a list. -/
inductive OperandsOf (f : Filter) : List Value → Prop where
  | none : f.operator.operands = .none → OperandsOf f []
  | one {v : Value} : f.operator.operands = .one → f.operator.isPattern = false →
      f.value = some v → OperandsOf f [v]
  | pattern {v : Value} {p : List Char} : f.value = some v →
      PatternOf (soughtText v) f.operator p → OperandsOf f [.string (.ofList p)]
  | two {low high : Value} : f.operator.operands = .two → f.value = some low →
      f.upper = some high → OperandsOf f [low, high]
  | list {items : List Value} : f.operator.operands = .list → f.value = some (.array items) →
      OperandsOf f items

section

variable {f : Filter}

theorem exists_operand_of_sound (hop : f.operator.operands = .one)
    (h : operandProblem? f = none) : ∃ v, f.value = some v ∧ v.isScalar = true := by
  rw [operandProblem?, hop] at h
  cases hv : f.value with
  | none => simp [hv] at h
  | some v =>
    refine ⟨v, rfl, ?_⟩
    cases v <;> simp_all [Value.isScalar]

theorem exists_range_of_sound (hop : f.operator.operands = .two) (h : operandProblem? f = none) :
    ∃ low high, f.value = some low ∧ f.upper = some high ∧
      low.isScalar = true ∧ high.isScalar = true := by
  rw [operandProblem?, hop] at h
  cases hv : f.value with
  | none => simp [hv] at h
  | some low =>
    cases hu : f.upper with
    | none => simp [hv, hu] at h
    | some high =>
      have hscalar : low.isScalar = true ∧ high.isScalar = true := by simpa [hv, hu] using h
      exact ⟨low, high, rfl, rfl, hscalar⟩

theorem exists_items_of_sound (hop : f.operator.operands = .list)
    (h : operandProblem? f = none) :
    ∃ items, f.value = some (.array items) ∧ ∀ v ∈ items, v.isScalar = true := by
  rw [operandProblem?, hop] at h
  cases hv : f.value with
  | none => simp [hv] at h
  | some v =>
    cases v with
    | array items =>
      have hscalar : ∀ v ∈ items, v.isScalar = true := by simpa [hv] using h
      exact ⟨items, rfl, hscalar⟩
    | null | bool _ | number _ | string _ | object _ => simp [hv] at h

/-- A filter without a problem binds exactly its operands, and binds nothing but plain values: the
stand-ins for missing operands are never bound. -/
theorem operandValues_of_sound (h : operandProblem? f = none) :
    OperandsOf f (operandValues f) ∧ ∀ v ∈ operandValues f, v.isScalar = true := by
  cases hop : f.operator
  case equals | notEquals | greaterThan | greaterEqual | lessThan | lessEqual =>
    obtain ⟨v, hv, hs⟩ := exists_operand_of_sound (by rw [hop]; rfl) h
    simp only [operandValues, hop, hv, operand, Option.getD_some, List.mem_singleton,
      forall_eq, hs, and_true]
    exact .one (by rw [hop]; rfl) (by rw [hop]; rfl) hv
  case contains | notContains | startsWith | endsWith =>
    obtain ⟨v, hv, -⟩ := exists_operand_of_sound (by rw [hop]; rfl) h
    have hp := OperandsOf.pattern hv (patternOf_iff.mpr ⟨by rw [hop]; rfl, rfl⟩)
    simp only [operandValues, hop, hv, operand, Option.getD_some, List.mem_singleton, forall_eq,
      Value.isScalar, and_true]
    rwa [hop] at hp
  case between =>
    obtain ⟨low, high, hv, hu, hlow, hhigh⟩ := exists_range_of_sound (by rw [hop]; rfl) h
    simp only [operandValues, hop, hv, hu, operand, Option.getD_some, List.mem_cons,
      List.not_mem_nil, or_false, forall_eq_or_imp, forall_eq, hlow, hhigh, and_true]
    exact .two (by rw [hop]; rfl) hv hu
  case isIn | notIn =>
    obtain ⟨items, hv, hs⟩ := exists_items_of_sound (by rw [hop]; rfl) h
    simp only [operandValues, hop, hv, listOperand, Option.bind_some, Value.items?,
      Option.getD_some]
    exact ⟨.list (by rw [hop]; rfl) hv, hs⟩
  case isNull | isNotNull =>
    simp only [operandValues, hop, List.not_mem_nil, false_implies, implies_true, and_true]
    exact .none (by rw [hop]; rfl)

end

end ReportSql.Statement
