import ReportSql.Proofs.Catalog
import ReportSql.Statement.Compiled

/-!
# What stands for nothing in a report

An empty name, an empty primary entity and an operand that is `null` say as much as nothing at all.
A report without them is compiled to the same statement, or refused with the same error.
-/

namespace ReportSql

open ReportSql.Catalog
open ReportSql.Join (JoinEdge JoinPath)
open ReportSql.Json (Value)
open ReportSql.Report
open ReportSql.Sql (Expr)

namespace Report

/-- The filter with nothing in the place of a `null`. -/
def Filter.withoutNulls (f : Filter) : Filter :=
  { f with
    value := f.value.filter fun v => !v.isNull
    upper := f.upper.filter fun v => !v.isNull }

namespace Config

/-- The report with nothing in the place of the operands that are `null`. -/
def withoutNulls (c : Config) : Config :=
  { c with filters := c.filters.map Filter.withoutNulls }

/-- The report with nothing in the place of an empty name and an empty primary entity. -/
def withoutBlanks (c : Config) : Config :=
  { c with
    name := c.name.filter fun n => !n.isEmpty
    primaryEntity := c.primaryEntity.filter fun p => !p.isEmpty }

theorem primary?_withoutBlanks (c : Config) : c.withoutBlanks.primary? = c.primary? := by
  rw [primary?, primary?, withoutBlanks, Option.filter_filter]
  simp only [Bool.and_self]

theorem mentioned_withoutNulls (c : Config) : c.withoutNulls.mentioned = c.mentioned := by
  have hfilters : (c.filters.map Filter.withoutNulls).map Filter.entity
      = c.filters.map Filter.entity := List.map_map
  simp only [mentioned, withoutNulls, hfilters]
  rfl

theorem referenced_withoutNulls (c : Config) : c.withoutNulls.referenced = c.referenced := by
  rw [referenced, referenced, mentioned_withoutNulls]
  rfl

theorem referenced_withoutBlanks (c : Config) : c.withoutBlanks.referenced = c.referenced := by
  rw [referenced, referenced, primary?_withoutBlanks]
  rfl

end Config

end Report

namespace Statement

variable {r : Registry} {c c' : Config} {o : Options}

/-! ## Filters -/

section

variable (f : Filter)

theorem operand_filter (v : Option Value) : operand (v.filter fun v => !v.isNull) = operand v := by
  cases v with
  | none => rfl
  | some v => cases v <;> rfl

theorem listOperand_filter (v : Option Value) :
    listOperand (v.filter fun v => !v.isNull) = listOperand v := by
  cases v with
  | none => rfl
  | some v => cases v <;> rfl

theorem any_isScalar_filter (v : Option Value) :
    (v.filter fun v => !v.isNull).any Value.isScalar = v.any Value.isScalar := by
  cases v with
  | none => rfl
  | some v => cases v <;> rfl

/-- A `null` is no operand: the same is wrong with the filter without it. -/
theorem operandProblem?_withoutNulls : operandProblem? f.withoutNulls = operandProblem? f := by
  have hvalue := any_isScalar_filter f.value
  have hupper := any_isScalar_filter f.upper
  unfold operandProblem? Filter.withoutNulls
  cases f.operator.operands with
  | none => rfl
  | two => simp only [hvalue, hupper]
  | one | list =>
    cases f.value with
    | none => rfl
    | some v => cases v <;> rfl

theorem checkFilter_withoutNulls (place : Location) (field : Field) :
    checkFilter place f.withoutNulls field = checkFilter place f field := by
  rw [checkFilter, checkFilter, operandProblem?_withoutNulls]
  rfl

/-- A `null` is bound in the place of a missing operand. -/
theorem filterCondition_withoutNulls (e : Expr) :
    filterCondition e f.withoutNulls = filterCondition e f := by
  have hvalue : operand f.withoutNulls.value = operand f.value := operand_filter f.value
  have hupper : operand f.withoutNulls.upper = operand f.upper := operand_filter f.upper
  have hlist : listOperand f.withoutNulls.value = listOperand f.value := listOperand_filter f.value
  have hop : f.withoutNulls.operator = f.operator := rfl
  simp only [filterCondition, comparison, patternMatch, hvalue, hupper, hlist, hop]

end

/-- The filter at its place, with nothing in the place of a `null`. -/
def Placed.withoutNulls (p : Placed Filter) : Placed Filter :=
  ⟨p.index, p.part.withoutNulls, p.target⟩

/-- The resolved report with nothing in the place of the operands that are `null`. -/
def Resolved.withoutNulls (v : Resolved) : Resolved :=
  { v with filters := v.filters.map Placed.withoutNulls }

theorem filterConditions_withoutNulls (infer : Bool) (filters : List (Placed Filter)) :
    filterConditions infer (filters.map Placed.withoutNulls) = filterConditions infer filters := by
  induction filters with
  | nil => rfl
  | cons f rest ih =>
    rw [List.map_cons, filterConditions, filterConditions, ih]
    change (filterCondition (f.target.valueExpr infer) f.part.withoutNulls >>= _) = _
    rw [filterCondition_withoutNulls]

/-- Filters are placed one by one, and each is checked as it is without its `null`s. -/
theorem placeAll_withoutNulls (filters : List Filter) (index : Nat) :
    placeAll r .filter Filter.ref checkFilter index (filters.map Filter.withoutNulls)
      = (placeAll r .filter Filter.ref checkFilter index filters).map
          (List.map Placed.withoutNulls) := by
  induction filters generalizing index with
  | nil => rfl
  | cons f rest ih =>
    have href : f.withoutNulls.ref = f.ref := rfl
    rw [List.map_cons, placeAll, placeAll, ih, href]
    cases target r (.filter index) f.ref with
    | error e => rfl
    | ok t =>
      simp only [Bind.bind, Except.bind, checkFilter_withoutNulls]
      cases checkFilter (.filter index) f t.field with
      | error e => rfl
      | ok _ =>
        cases placeAll r .filter Filter.ref checkFilter (index + 1) rest <;> rfl

/-! ## Reports -/

section

variable {ε α β γ : Type}

theorem map_bind (x : Except ε α) (g : α → β) (k : β → Except ε γ) :
    x.map g >>= k = x >>= fun a => k (g a) := by
  cases x <;> rfl

theorem bind_map (x : Except ε α) (k : α → Except ε β) (g : β → γ) :
    (x >>= k).map g = x >>= fun a => (k a).map g := by
  cases x <;> rfl

end

theorem resolve_withoutNulls (r : Registry) (c : Config) :
    resolve r c.withoutNulls = (resolve r c).map Resolved.withoutNulls := by
  have hfilters : placeAll r .filter Filter.ref checkFilter 0 c.withoutNulls.filters = _ :=
    placeAll_withoutNulls c.filters 0
  have hprimary : resolvePrimary r c.withoutNulls = resolvePrimary r c := rfl
  have hselected : c.withoutNulls.selected = c.selected := rfl
  have hsorting : c.withoutNulls.sorting = c.sorting := rfl
  have hgroupBy : c.withoutNulls.groupBy = c.groupBy := rfl
  have hwindow : resolveWindow r c.withoutNulls = resolveWindow r c := rfl
  rw [resolve, resolve, hfilters, hprimary, hselected, hsorting, hgroupBy, hwindow]
  cases resolvePrimary r c with
  | error e => rfl
  | ok primary =>
    by_cases hempty : c.selected.isEmpty = true
    · rw [hempty]
      rfl
    · rw [Bool.not_eq_true] at hempty
      rw [hempty]
      simp only [Bool.false_eq_true, if_false, map_bind, bind_map]
      rfl

theorem resolve_withoutBlanks (r : Registry) (c : Config) :
    resolve r c.withoutBlanks = resolve r c := by
  have hprimary : resolvePrimary r c.withoutBlanks = resolvePrimary r c := by
    rw [resolvePrimary, resolvePrimary, Config.primary?_withoutBlanks]
  unfold resolve
  rw [hprimary]
  rfl

theorem joinsOf_eq (h : firstMention c' = firstMention c) (edges : List JoinEdge) :
    joinsOf r c' edges = joinsOf r c edges := by
  induction edges with
  | nil => rfl
  | cons e rest ih =>
    have hjoin : joinOf r c' e = joinOf r c e := by rw [joinOf, joinOf, h]
    rw [joinsOf, joinsOf, hjoin, ih]

theorem firstMention_withoutNulls (c : Config) :
    firstMention c.withoutNulls = firstMention c := by
  funext entity
  have hfilters : (c.withoutNulls.filters.findIdx? fun f => f.entity == entity)
      = c.filters.findIdx? fun f => f.entity == entity := List.findIdx?_map
  rw [firstMention, firstMention, hfilters]
  rfl

/-- Reports are compiled alike if they are resolved alike up to what is not read any more, mention
the same entities in the same places and ask for as many rows. -/
theorem compile_congr (g : Resolved → Resolved) (hresolve : resolve r c' = (resolve r c).map g)
    (hprimary : ∀ v, (g v).primary = v.primary) (hreferenced : c'.referenced = c.referenced)
    (hmention : firstMention c' = firstMention c)
    (hassemble : ∀ v plan, assemble r c' o (g v) plan = assemble r c o v plan) :
    compile r c' o = compile r c o := by
  rw [compile, compile, compileWith, compileWith, hresolve, hreferenced, hmention]
  cases resolve r c with
  | error e => rfl
  | ok v =>
    simp only [Except.map, hprimary, hassemble]

/-- **A `null` operand is as good as none.** -/
theorem compile_withoutNulls (r : Registry) (c : Config) (o : Options) :
    compile r c.withoutNulls o = compile r c o := by
  have hmention := firstMention_withoutNulls c
  refine compile_congr Resolved.withoutNulls (resolve_withoutNulls r c) (fun _ => rfl)
    c.referenced_withoutNulls hmention fun v plan => ?_
  have hconditions : ∀ infer window, conditions infer v.withoutNulls.filters window
      = conditions infer v.filters window := by
    intro infer window
    rw [conditions, conditions, Resolved.withoutNulls, filterConditions_withoutNulls]
  rw [assemble, assemble, joinsOf_eq hmention]
  simp only [hconditions]
  rfl

/-- **An empty name or primary entity is as good as none.** -/
theorem compile_withoutBlanks (r : Registry) (c : Config) (o : Options) :
    compile r c.withoutBlanks o = compile r c o := by
  have hmention : firstMention c.withoutBlanks = firstMention c := rfl
  refine compile_congr (fun v => v) ?_ (fun _ => rfl) c.referenced_withoutBlanks hmention
    fun v plan => ?_
  · rw [resolve_withoutBlanks]
    cases resolve r c <;> rfl
  · rw [assemble, assemble, joinsOf_eq hmention]
    rfl

end Statement

end ReportSql
