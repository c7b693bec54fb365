import ReportSql.Proofs.Compilation

/-!
# What the condition of a statement means

The condition of a compiled statement, evaluated on a row with the bound values in the place of its
placeholders, is the conjunction of what the filters and the bounds of the time window say of the
row, in their order. The operators may mean anything: an interpretation gives them a meaning on
values of any kind, and the theorem holds for all interpretations.

The placeholders of a conjunct count from the values bound before it. The lemmas therefore evaluate
a conjunct among values in front of its own and values behind them, which covers every position that
it can have in a statement.
-/

namespace ReportSql.Sql

open ReportSql.Json (Value)

/-! ## Interpretations -/

/-- A meaning of the operators of a statement on values of the type `D`, which also holds the truth
values. -/
structure Interpretation (D : Type) where
  /-- A value that is bound. -/
  bound : Value → D
  /-- A constant of the catalog. -/
  number : Decimal.Double → D
  truth : Bool → D
  binary : BinaryOp → D → D → D
  call : String → Bool → List D → D
  /-- Membership in a list that is not empty; negated, the lack of it. -/
  isIn : Bool → D → List D → D
  between : Bool → D → D → D → D
  isNull : Bool → D → D
  like : Bool → Bool → Char → D → D → D

namespace Interpretation

variable {D : Type}

/-- Membership in a list. In an empty list there is nothing. -/
def member (I : Interpretation D) (negated : Bool) (x : D) : List D → D
  | [] => I.truth negated
  | v :: values => I.isIn negated x (v :: values)

/-- The conjunction of values in order; of none of them it is the truth. -/
def all (I : Interpretation D) : List D → D
  | [] => I.truth true
  | p :: rest => rest.foldl (I.binary .and) p

end Interpretation

/-- The value of a row in a column of the table with the given label. -/
abbrev Row (D : Type) :=
  String → String → D

/-! ## Evaluation -/

namespace Expr

variable {D : Type}

mutual

/-- The value of an expression on a row. A placeholder has the value bound at its position, if there
is one; a column has a value if its table is named. -/
def eval (I : Interpretation D) (row : Row D) (values : List Value) : Expr → Option D
  | column none _ => none
  | column (some table) name => some (row table name)
  | number x => some (I.number x)
  | param 0 => none
  | param (i + 1) => values[i]?.map I.bound
  | binary op left right => do
    let l ← eval I row values left
    let r ← eval I row values right
    return I.binary op l r
  | call function distinct args => do
    let vs ← evalList I row values args
    return I.call function distinct vs
  | isIn _ negated [] => some (I.truth negated)
  | isIn e negated (v :: rest) => do
    let x ← eval I row values e
    let vs ← evalList I row values (v :: rest)
    return I.isIn negated x vs
  | between e negated low high => do
    let x ← eval I row values e
    let l ← eval I row values low
    let h ← eval I row values high
    return I.between negated x l h
  | isNull e negated => do
    let x ← eval I row values e
    return I.isNull negated x
  | like e negated caseless escape pattern => do
    let x ← eval I row values e
    let p ← eval I row values pattern
    return I.like negated caseless escape x p

/-- The values of expressions in order, if all of them have one. -/
def evalList (I : Interpretation D) (row : Row D) (values : List Value) :
    List Expr → Option (List D)
  | [] => some []
  | e :: rest => do
    let v ← eval I row values e
    let vs ← evalList I row values rest
    return v :: vs

end

theorem evalList_cons {I : Interpretation D} {row : Row D} {values : List Value} {e : Expr}
    {rest : List Expr} {v : D} {vs : List D} (he : eval I row values e = some v)
    (hrest : evalList I row values rest = some vs) :
    evalList I row values (e :: rest) = some (v :: vs) := by
  simp [evalList, he, hrest]

theorem evalList_eq_some_cons {I : Interpretation D} {row : Row D} {values : List Value}
    {e : Expr} {rest : List Expr} {ds : List D}
    (h : evalList I row values (e :: rest) = some ds) :
    ∃ v vs, eval I row values e = some v ∧ evalList I row values rest = some vs ∧
      ds = v :: vs := by
  simp only [evalList, Option.bind_eq_bind, Option.bind_eq_some_iff, Option.pure_def,
    Option.some.injEq] at h
  obtain ⟨v, hv, vs, hvs, rfl⟩ := h
  exact ⟨v, vs, hv, hvs, rfl⟩

theorem eval_isIn {I : Interpretation D} {row : Row D} {values : List Value} {e : Expr} {x : D}
    (he : eval I row values e = some x) {es : List Expr} {vs : List D}
    (hes : evalList I row values es = some vs) (negated : Bool) :
    eval I row values (isIn e negated es) = some (I.member negated x vs) := by
  cases es with
  | nil =>
    cases hes
    rfl
  | cons v rest =>
    obtain ⟨d, ds, -, -, rfl⟩ := evalList_eq_some_cons hes
    simp [eval, he, hes, Interpretation.member]

/-- A placeholder among other values stands for its own. -/
theorem eval_param (I : Interpretation D) (row : Row D) (before : List Value) (v : Value)
    (after : List Value) :
    eval I row (before ++ v :: after) (param (before.length + 1)) = some (I.bound v) := by
  rw [eval, List.getElem?_append_right (Nat.le_refl _), Nat.sub_self]
  rfl

theorem eval_foldl_and {I : Interpretation D} {row : Row D} {values : List Value}
    {es : List Expr} {ds : List D} (hes : evalList I row values es = some ds) {e : Expr} {d : D}
    (he : eval I row values e = some d) :
    eval I row values (es.foldl (.binary .and) e) = some (ds.foldl (I.binary .and) d) := by
  induction es generalizing e d ds with
  | nil =>
    cases hes
    exact he
  | cons x rest ih =>
    obtain ⟨v, vs, hv, hvs, rfl⟩ := evalList_eq_some_cons hes
    have hstep : eval I row values (.binary .and e x) = some (I.binary .and d v) := by
      simp [eval, he, hv]
    exact ih hvs hstep

end Expr

/-- The value of the condition of a statement on a row; without a condition it is the truth. -/
def Query.conditionValue? {D : Type} (q : Query) (I : Interpretation D) (row : Row D)
    (values : List Value) : Option D :=
  match q.condition with
  | none => some (I.truth true)
  | some e => e.eval I row values

/-! ## Three truth values -/

/-- The truth values of SQL. -/
inductive Truth where
  | holds
  | fails
  | unknown
  deriving DecidableEq

namespace Truth

def ofBool (b : Bool) : Truth :=
  if b then holds else fails

/-- A conjunction fails as soon as a part fails, and holds if both parts hold. -/
def and : Truth → Truth → Truth
  | fails, _ | _, fails => fails
  | holds, holds => holds
  | holds, unknown | unknown, holds | unknown, unknown => unknown

/-- The conjunction of all. -/
def all (ts : List Truth) : Truth :=
  ts.foldr and holds

theorem all_cons (t : Truth) (ts : List Truth) : all (t :: ts) = t.and (all ts) := rfl

theorem and_holds (t : Truth) : t.and holds = t := by
  cases t <;> rfl

theorem and_assoc (s t u : Truth) : (s.and t).and u = s.and (t.and u) := by
  cases s <;> cases t <;> cases u <;> rfl

theorem foldl_and (t : Truth) (ts : List Truth) : ts.foldl and t = t.and (all ts) := by
  induction ts generalizing t with
  | nil => exact (and_holds t).symm
  | cons s rest ih => rw [List.foldl_cons, ih, and_assoc, all_cons]

end Truth

/-- The truth of values, by which the conjunction is the one of three truth values. -/
structure Interpretation.ThreeValued {D : Type} (I : Interpretation D) (truth : D → Truth) :
    Prop where
  truth_ofBool : ∀ b, truth (I.truth b) = .ofBool b
  truth_and : ∀ a b, truth (I.binary .and a b) = (truth a).and (truth b)

theorem Interpretation.ThreeValued.all {D : Type} {I : Interpretation D} {truth : D → Truth}
    (h : I.ThreeValued truth) (ps : List D) : truth (I.all ps) = Truth.all (ps.map truth) := by
  cases ps with
  | nil => exact h.truth_ofBool true
  | cons p rest =>
    have hfold : ∀ (ds : List D) (d : D),
        truth (ds.foldl (I.binary .and) d) = (ds.map truth).foldl Truth.and (truth d) := by
      intro ds
      induction ds with
      | nil => exact fun _ => rfl
      | cons x ds ih =>
        intro d
        rw [List.foldl_cons, ih, h.truth_and, List.map_cons, List.foldl_cons]
    rw [Interpretation.all, hfold, Truth.foldl_and, List.map_cons, Truth.all_cons]

/-- What the operators say where no column holds a value: a comparison with nothing is unknown. -/
def Interpretation.onNothing : Interpretation Truth where
  bound _ := .unknown
  number _ := .unknown
  truth := .ofBool
  binary
    | .and, a, b => a.and b
    | _, _, _ => .unknown
  call _ _ _ := .unknown
  isIn _ _ _ := .unknown
  between _ _ _ _ := .unknown
  isNull negated _ := .ofBool !negated
  like _ _ _ _ _ := .unknown

end ReportSql.Sql

namespace ReportSql.Statement

open ReportSql.Catalog
open ReportSql.Json (Value)
open ReportSql.Report
open ReportSql.Sql
open ReportSql.Time (Instant TimeRange WindowBounds)

variable {D : Type}

/-! ## What a report says of a row -/

/-- The value of a field on a row: what its column holds, decoded if it is encoded. -/
def fieldValue (I : Interpretation D) (row : Row D) (infer : Bool) (e : Entity) (f : Field) : D :=
  match f.resolvedEncoding? infer with
  | some enc => I.binary .div (row e.id f.columnName) (I.number enc.divisor)
  | none => row e.id f.columnName

/-- The value on a row of the field that a reference names, if there is one. -/
def refValue? (r : Registry) (I : Interpretation D) (row : Row D) (infer : Bool)
    (ref : FieldRef) : Option D := do
  let e ← r.entity? ref.entity
  let f ← e.field? ref.field
  return fieldValue I row infer e f

/-- What a filter says of a value, if it has the operands that it needs. -/
def says? (I : Interpretation D) (f : Filter) (x : D) : Option D :=
  let compared (op : BinaryOp) := f.value.map fun v => I.binary op x (I.bound v)
  let listed (negated : Bool) := do
    let items ← f.value.bind Value.items?
    return I.member negated x (items.map I.bound)
  let matched (negated : Bool) := f.value.map fun v =>
    I.like negated true escapeMark x
      (I.bound (.string (.ofList (pattern f.operator (soughtText v)))))
  match f.operator with
  | .equals => compared .eq
  | .notEquals => compared .ne
  | .greaterThan => compared .gt
  | .greaterEqual => compared .ge
  | .lessThan => compared .lt
  | .lessEqual => compared .le
  | .between => do
    let low ← f.value
    let high ← f.upper
    return I.between false x (I.bound low) (I.bound high)
  | .isIn => listed false
  | .notIn => listed true
  | .contains | .startsWith | .endsWith => matched false
  | .notContains => matched true
  | .isNull => some (I.isNull false x)
  | .isNotNull => some (I.isNull true x)

/-- What a filter says of a row. -/
def filterSays? (r : Registry) (I : Interpretation D) (row : Row D) (infer : Bool) (f : Filter) :
    Option D := do
  let x ← refValue? r I row infer f.ref
  says? I f x

/-- What the bounds of a window say of a value: it is not before the start, and not behind the
end. -/
def boundsSay (I : Interpretation D) (x : D) (bounds : WindowBounds) : List D :=
  (bounds.start.map fun s => I.binary .ge x (I.bound (.string s))).toList ++
    (bounds.finish.map fun s => I.binary .le x (I.bound (.string s))).toList

/-- What the time window of a report says of a row; nothing if there is no window. -/
def windowSays? (r : Registry) (I : Interpretation D) (row : Row D) (infer : Bool) (now : Instant)
    (c : Config) : Option (List D) :=
  match c.timeRange with
  | none => some []
  | some range => do
    let asked ← c.timeField
    let primary ← c.primary?
    let x ← refValue? r I row infer ⟨asked.owner primary, asked.field⟩
    let bounds ← (range.resolve now).toOption
    return boundsSay I x bounds

/-! ## Evaluating conjuncts -/

/-- Behind any bound values, and with any others behind its own, the conjunct has the value `d`. -/
def Conjunct.Means (I : Interpretation D) (row : Row D) (p : Conjunct) (d : D) : Prop :=
  ∀ before after : List Value,
    (p.form before.length).eval I row (before ++ p.values ++ after) = some d

section

variable {I : Interpretation D} {row : Row D}

theorem evalList_paramsFrom (I : Interpretation D) (row : Row D) (vs before after : List Value) :
    Expr.evalList I row (before ++ vs ++ after) (paramsFrom before.length vs.length) =
      some (vs.map I.bound) := by
  induction vs generalizing before with
  | nil => rfl
  | cons v rest ih =>
    have hv := Expr.eval_param I row before v (rest ++ after)
    have hrest := ih (before ++ [v])
    simp only [List.append_assoc, List.cons_append, List.nil_append, List.length_append,
      List.length_cons, List.length_nil] at hrest ⊢
    exact Expr.evalList_cons hv hrest

/-- Conjuncts one after another keep what each of them means. -/
theorem evalList_formsFrom {ps : List Conjunct} {ds : List D}
    (h : List.Forall₂ (Conjunct.Means I row) ps ds) (before after : List Value) :
    Expr.evalList I row (before ++ valuesOf ps ++ after) (formsFrom before.length ps) =
      some ds := by
  -- the values of the first conjunct stand before those of the rest
  induction h generalizing before with
  | nil => rfl
  | @cons p d rest ds hp _ ih =>
    have hhead := hp before (valuesOf rest ++ after)
    have htail := ih (before ++ p.values)
    simp only [valuesOf_cons, List.append_assoc, List.length_append] at hhead htail ⊢
    exact Expr.evalList_cons hhead htail

/-- The joined conditions have the value of the conjunction. -/
theorem eval_conjunction {values : List Value} {es : List Expr} {ds : List D}
    (h : Expr.evalList I row values es = some ds) (q : Query) (hq : q.condition = conjunction es) :
    q.conditionValue? I row values = some (I.all ds) := by
  rw [Query.conditionValue?, hq]
  cases es with
  | nil =>
    cases h
    rfl
  | cons e rest =>
    obtain ⟨d, ds', he, hrest, rfl⟩ := Expr.evalList_eq_some_cons h
    exact Expr.eval_foldl_and hrest he

/-! ## What the conjuncts of a report mean -/

/-- The expression of a field reads its column from the table of its entity. -/
theorem eval_valueExpr (I : Interpretation D) (row : Row D) (infer : Bool) (t : Target)
    (values : List Value) :
    (t.valueExpr infer).eval I row values = some (fieldValue I row infer t.entity t.field) := by
  unfold Target.valueExpr fieldValue
  cases t.field.resolvedEncoding? infer <;> rfl

theorem refValue?_eq_some {r : Registry} {ref : FieldRef} {t : Target} (h : Names r ref t)
    (infer : Bool) :
    refValue? r I row infer ref = some (fieldValue I row infer t.entity t.field) := by
  rw [refValue?, h.entity]
  simp only [Option.bind_eq_bind, Option.bind_some, h.field]
  rfl

/-- The condition of a filter on an expression says of the value of the expression what the filter
says, if the filter has the operands that it needs. -/
theorem conditionBehind_means {f : Filter} (hf : operandProblem? f = none) {e : Expr} {x : D}
    (he : ∀ values, e.eval I row values = some x) :
    ∃ d, says? I f x = some d ∧
      Conjunct.Means I row ⟨conditionBehind e f, operandValues f⟩ d := by
  cases hop : f.operator
  case equals | notEquals | greaterThan | greaterEqual | lessThan | lessEqual =>
    obtain ⟨v, hv, -⟩ := exists_operand_of_sound (by rw [hop]; rfl) hf
    simp only [says?, hop, hv, Option.map_some, Option.some.injEq, exists_eq_left']
    intro before after
    simp [conditionBehind, operandValues, hop, hv, operand, Expr.eval, he]
  case contains | notContains | startsWith | endsWith =>
    obtain ⟨v, hv, -⟩ := exists_operand_of_sound (by rw [hop]; rfl) hf
    simp only [says?, hop, hv, Option.map_some, Option.some.injEq, exists_eq_left']
    intro before after
    simp [conditionBehind, operandValues, hop, hv, operand, Expr.eval, he]
  case between =>
    obtain ⟨low, high, hv, hu, -, -⟩ := exists_range_of_sound (by rw [hop]; rfl) hf
    refine ⟨I.between false x (I.bound low) (I.bound high), ?_, ?_⟩
    · simp [says?, hop, hv, hu]
    · intro before after
      simp [conditionBehind, operandValues, hop, hv, hu, operand, Expr.eval, he]
  case isIn | notIn =>
    obtain ⟨items, hv, -⟩ := exists_items_of_sound (by rw [hop]; rfl) hf
    have hvalues : operandValues f = items := by
      simp [operandValues, hop, listOperand, hv, Value.items?]
    refine ⟨_, by simp only [says?, hop, hv]; rfl, ?_⟩
    intro before after
    -- an empty list is no special case here: `eval_isIn` covers it
    have hitems := evalList_paramsFrom I row items before after
    have hmember := Expr.eval_isIn (he (before ++ items ++ after)) hitems
    simp only [conditionBehind, hop, hvalues]
    exact hmember _
  case isNull | isNotNull =>
    simp only [says?, hop, Option.some.injEq, exists_eq_left']
    intro before after
    simp [conditionBehind, hop, Expr.eval, he]

theorem filterConjunct_means {r : Registry} (infer : Bool) {p : Placed Filter}
    (hn : Names r p.part.ref p.target) (hf : operandProblem? p.part = none) :
    ∃ d, filterSays? r I row infer p.part = some d ∧
      Conjunct.Means I row (filterConjunct infer p) d := by
  obtain ⟨d, hd, hmeans⟩ := conditionBehind_means hf (eval_valueExpr I row infer p.target)
  refine ⟨d, ?_, hmeans⟩
  rw [filterSays?, refValue?_eq_some hn infer]
  exact hd

/-- The conjuncts of the filters, in order. -/
theorem filterConjuncts_means {r : Registry} (I : Interpretation D) (row : Row D) (infer : Bool)
    {ps : List (Placed Filter)}
    (hn : ∀ p ∈ ps, Names r p.part.ref p.target)
    (hf : ∀ p ∈ ps, operandProblem? p.part = none) :
    ∃ ds, (ps.map Placed.part).mapM (filterSays? r I row infer) = some ds ∧
      List.Forall₂ (Conjunct.Means I row) (ps.map (filterConjunct infer)) ds := by
  induction ps with
  | nil => exact ⟨[], rfl, .nil⟩
  | cons p rest ih =>
    obtain ⟨d, hd, hmeans⟩ :=
      filterConjunct_means infer (hn p (List.mem_cons_self ..)) (hf p (List.mem_cons_self ..))
    obtain ⟨ds, hds, hrest⟩ := ih (fun q hq => hn q (List.mem_cons_of_mem _ hq))
      (fun q hq => hf q (List.mem_cons_of_mem _ hq))
    refine ⟨d :: ds, ?_, .cons hmeans hrest⟩
    rw [List.map_cons, List.mapM_cons, hd, hds]
    rfl

theorem boundConjunct_means (op : BinaryOp) {e : Expr} {x : D}
    (he : ∀ values, e.eval I row values = some x) (s : String) :
    Conjunct.Means I row (boundConjunct op e s) (I.binary op x (I.bound (.string s))) := by
  intro before after
  simp [boundConjunct, Expr.eval, he]

/-- The conjuncts of a time window: the start, then the end. -/
theorem windowConjuncts_means {e : Expr} {x : D} (he : ∀ values, e.eval I row values = some x)
    (bounds : WindowBounds) :
    List.Forall₂ (Conjunct.Means I row) (windowConjuncts e bounds) (boundsSay I x bounds) := by
  have hbound : ∀ (op : BinaryOp) (s : Option String),
      List.Forall₂ (Conjunct.Means I row) (s.map (boundConjunct op e)).toList
        (s.map fun s => I.binary op x (I.bound (.string s))).toList := by
    intro op s
    cases s with
    | none => exact .nil
    | some s => exact .cons (boundConjunct_means op he s) .nil
  exact List.rel_append (hbound .ge bounds.start) (hbound .le bounds.finish)

end

/-! ## Compiled reports -/

theorem Compilation.conjuncts_mean {r : Registry} {c : Config} {o : Options} {v : Resolved}
    {joins : List Sql.Join} {window : Option (WindowBounds × Target)} {k : Compiled}
    (h : Compilation r c o v joins window k) (I : Interpretation D) (row : Row D) :
    ∃ ps ws, c.filters.mapM (filterSays? r I row o.inferEncodings) = some ps ∧
      windowSays? r I row o.inferEncodings o.now c = some ws ∧
      List.Forall₂ (Conjunct.Means I row) (conjuncts o.inferEncodings v.filters window)
        (ps ++ ws) := by
  obtain ⟨ps, hps, hmeans⟩ := filterConjuncts_means I row o.inferEncodings
    h.resolved.filters_named h.resolved.filters_sound
  rw [h.resolved.filters_parts] at hps
  cases window with
  | none =>
    refine ⟨ps, [], hps, ?_, List.rel_append hmeans .nil⟩
    rw [windowSays?, h.timeRange_eq_none]
  | some w =>
    obtain ⟨bounds, t⟩ := w
    obtain ⟨range, asked, hrange, hr, hfield, hn⟩ := h.window_named
    have hwindow := windowConjuncts_means
      (eval_valueExpr I row o.inferEncodings t) bounds
    refine ⟨ps, _, hps, ?_, List.rel_append hmeans hwindow⟩
    simp only [windowSays?, hrange, hfield, h.resolved.primary?_eq, Option.bind_eq_bind,
      Option.bind_some, refValue?_eq_some hn, hr]
    rfl

/-- **The condition says what the report says.** On every row and under every interpretation, the
filters and the time window of a report that compiles have a predicate each, and the condition of
the statement with the bound values in it is their conjunction, in order. Where truth is
three-valued, it is the truth of the conjunction. -/
theorem condition_meaning {r : Registry} {c : Config} {o : Options} {k : Compiled}
    (h : compile r c o = .ok k) (I : Interpretation D) (row : Row D) :
    ∃ ps ws, c.filters.mapM (filterSays? r I row o.inferEncodings) = some ps ∧
      windowSays? r I row o.inferEncodings o.now c = some ws ∧
      k.query.conditionValue? I row k.parameters = some (I.all (ps ++ ws)) ∧
      ∀ truth : D → Truth, I.ThreeValued truth →
        truth (I.all (ps ++ ws)) = Truth.all ((ps ++ ws).map truth) := by
  obtain ⟨v, joins, window, hc⟩ := compile_eq_ok_iff.mp h
  obtain ⟨ps, ws, hps, hws, hmeans⟩ := hc.conjuncts_mean I row
  refine ⟨ps, ws, hps, hws, ?_, fun truth htruth => htruth.all (ps ++ ws)⟩
  have heval := evalList_formsFrom hmeans [] []
  rw [List.nil_append, List.append_nil] at heval
  rw [hc.result]
  exact eval_conjunction heval _ rfl

theorem fastDrives_condition_on_nothing :
    ∃ k, compile .telematics (fastDrives "100%" 2) newYearOptions = .ok k ∧
      k.query.conditionValue? .onNothing (fun _ _ => .unknown) k.parameters = some .fails := by
  obtain ⟨k, hk, -⟩ := exists_compiled_fastDrives
  obtain ⟨ps, ws, hps, hws, hvalue, htruth⟩ :=
    condition_meaning hk .onNothing fun _ _ => .unknown
  have hfilters : (fastDrives "100%" 2).filters.mapM
      (filterSays? .telematics .onNothing (fun _ _ => .unknown) true) =
        some [.unknown, .unknown, .unknown, .holds, .fails] := by decide +kernel
  have hwindow : windowSays? .telematics .onNothing (fun _ _ => .unknown) true newYearOptions.now
      (fastDrives "100%" 2) = some [.unknown, .unknown] := by decide +kernel
  obtain rfl := Option.some.inj (hps.symm.trans hfilters)
  obtain rfl := Option.some.inj (hws.symm.trans hwindow)
  have hall := htruth id ⟨fun _ => rfl, fun _ _ => rfl⟩
  refine ⟨k, hk, ?_⟩
  rw [hvalue]
  exact congrArg some hall

end ReportSql.Statement
