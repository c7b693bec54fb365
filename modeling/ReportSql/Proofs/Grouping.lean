import ReportSql.Proofs.Compilation
import ReportSql.Proofs.Pieces
import ReportSql.Proofs.Rules

/-!
# Grouped statements

What a grouped statement shows and sorts by is the same for all rows of a group: a key to group by,
or a summary of the rows. The rule is checked on the fields that a report names and is stated here
for the expressions of its statement. A statement that is not grouped calls no function at all, as
the pieces show that it is written with.
-/

namespace ReportSql.Sql

/-! ## Functions -/

/-- The piece names a function, or starts the clause of the keys to group by. -/
def Token.isGrouping : Token → Bool
  | .function _ | .keyword .groupBy => true
  | _ => false

namespace Expr

mutual

/-- The functions that an expression calls. -/
def functions : Expr → List String
  | column _ _ => []
  | number _ => []
  | param _ => []
  | binary _ left right => functions left ++ functions right
  | call function _ args => function :: listFunctions args
  | isIn _ _ [] => []
  | isIn e _ (v :: values) => functions e ++ listFunctions (v :: values)
  | between e _ low high => functions e ++ functions low ++ functions high
  | isNull e _ => functions e
  | like e _ _ _ pattern => functions e ++ functions pattern

def listFunctions : List Expr → List String
  | [] => []
  | e :: rest => functions e ++ listFunctions rest

end

/-- A call of a function that summarises rows, of what is no summary itself. -/
inductive IsSummary : Expr → Prop where
  | count {e : Expr} : e.functions = [] → IsSummary (.count e)
  | countDistinct {e : Expr} : e.functions = [] → IsSummary (.countDistinct e)
  | sum {e : Expr} : e.functions = [] → IsSummary (.sum e)
  | avg {e : Expr} : e.functions = [] → IsSummary (.avg e)
  | min {e : Expr} : e.functions = [] → IsSummary (.min e)
  | max {e : Expr} : e.functions = [] → IsSummary (.max e)

theorem filter_negation (negated : Bool) : (negation negated).filter Token.isGrouping = [] := by
  cases negated <;> rfl

theorem listFunctions_param (is : List Nat) : listFunctions (is.map .param) = [] := by
  induction is with
  | nil => rfl
  | cons i rest ih => rw [List.map_cons, listFunctions, ih, functions, List.append_nil]

theorem functions_isIn_param {e : Expr} (he : e.functions = []) (negated : Bool) (is : List Nat) :
    (isIn e negated (is.map .param)).functions = [] := by
  cases is with
  | nil => rfl
  | cons i rest =>
    have hlist := listFunctions_param (i :: rest)
    rw [List.map_cons] at hlist ⊢
    rw [functions, he, hlist, List.append_nil]

mutual

/-- An expression is written with the functions that it calls. -/
theorem filter_tokens : ∀ e : Expr,
    e.tokens.filter Token.isGrouping = e.functions.map Token.function
  | column none name => rfl
  | column (some table) name => rfl
  | number x => rfl
  | param index => rfl
  | binary op left right => by
    have hop : [.space, op.token, .space].filter Token.isGrouping = [] := by cases op <;> rfl
    simp only [tokens, functions, List.filter_append, hop, filter_tokens left, filter_tokens right,
      List.map_append, List.append_nil]
  | call function distinct args => by
    have hdistinct : (if distinct then [.keyword .distinct, .space] else []).filter
        Token.isGrouping = [] := by cases distinct <;> rfl
    have hname : [.function function, .leftParen].filter Token.isGrouping =
        [.function function] := rfl
    have hclose : [Token.rightParen].filter Token.isGrouping = [] := rfl
    simp only [tokens, functions, List.filter_append, hname, hdistinct, hclose,
      filter_listTokens args, List.append_nil, List.singleton_append, List.map_cons]
  | isIn _ negated [] => by cases negated <;> rfl
  | isIn e negated (v :: values) => by
    simp [tokens, functions, filter_negation, filter_tokens e, filter_listTokens (v :: values),
      Token.isGrouping]
  | between e negated low high => by
    simp [tokens, functions, filter_negation, filter_tokens e, filter_tokens low,
      filter_tokens high, Token.isGrouping]
  | isNull e negated => by
    cases negated <;> simp [tokens, functions, filter_tokens e, Token.isGrouping]
  | like e negated caseless escape pattern => by
    cases caseless <;>
      simp [tokens, functions, filter_negation, filter_tokens e, filter_tokens pattern,
        Token.isGrouping]

theorem filter_listTokens : ∀ es : List Expr,
    (listTokens es).filter Token.isGrouping = (listFunctions es).map Token.function
  | [] => rfl
  | e :: rest => by
    simp only [listTokens, listFunctions, List.filter_append, filter_tokens e,
      filter_restTokens rest, List.map_append]

theorem filter_restTokens : ∀ es : List Expr,
    (restTokens es).filter Token.isGrouping = (listFunctions es).map Token.function
  | [] => rfl
  | e :: rest => by
    simp [restTokens, listFunctions, filter_tokens e, filter_restTokens rest, Token.isGrouping]

end

end Expr

theorem skipsFrame_isGrouping : SkipsFrame (Option.guard Token.isGrouping) := by
  intro t ht
  cases t with
  | keyword k =>
    cases k with
    | groupBy => cases ht
    | _ => rfl
  | function name => cases ht
  | _ => rfl

namespace Query

/-- A statement is written with the functions of its expressions, and with a clause of keys to group
by if it has any. -/
theorem filter_tokens (q : Query) : q.tokens.filter Token.isGrouping =
    (q.select.flatMap fun s => s.expr.functions.map .function)
      ++ (q.joins.flatMap fun j => j.condition.functions.map .function)
      ++ (q.condition.toList.flatMap fun e => e.functions.map .function)
      ++ ((if q.groupBy.isEmpty then [] else [.keyword .groupBy])
        ++ q.groupBy.flatMap fun e => e.functions.map .function)
      ++ (q.orderBy.flatMap fun s => s.expr.functions.map .function) := by
  have hgroup : [.keyword .groupBy].filterMap (Option.guard Token.isGrouping) =
      [.keyword .groupBy] := rfl
  rw [← List.filterMap_eq_filter, q.filterMap_tokens skipsFrame_isGrouping, hgroup]
  simp only [List.filterMap_eq_filter, Expr.filter_tokens]

/-- A statement whose expressions call no functions and that has no keys is not grouped. -/
theorem isGrouping_eq_false {q : Query} (hselect : ∀ s ∈ q.select, s.expr.functions = [])
    (hjoins : ∀ j ∈ q.joins, j.condition.functions = [])
    (hcondition : ∀ e ∈ q.condition, e.functions = []) (hgroup : q.groupBy = [])
    (horder : ∀ s ∈ q.orderBy, s.expr.functions = []) :
    ∀ t ∈ q.tokens, t.isGrouping = false := by
  have hnone : q.tokens.filter Token.isGrouping = [] := by
    rw [filter_tokens]
    simp only [hgroup, List.append_eq_nil_iff, List.flatMap_eq_nil_iff, List.map_eq_nil_iff,
      Option.mem_toList]
    exact ⟨⟨⟨⟨hselect, hjoins⟩, hcondition⟩, by simp⟩, horder⟩
  simpa [List.filter_eq_nil_iff] using hnone

end Query

end ReportSql.Sql

namespace ReportSql.Statement

open ReportSql.Catalog
open ReportSql.Report
open ReportSql.Sql (Expr OrderItem Query SelectItem Token)
open ReportSql.Time (WindowBounds)

/-! ## What the expressions of a report call -/

namespace Target

theorem functions_valueExpr (infer : Bool) (t : Target) : (t.valueExpr infer).functions = [] := by
  unfold valueExpr
  split <;> rfl

theorem isSummary_aggregateExpr (infer : Bool) (a : Aggregation) (t : Target) :
    (t.aggregateExpr infer a).IsSummary := by
  cases a with
  | count => exact .count rfl
  | countDistinct => exact .countDistinct rfl
  | sum => exact .sum (t.functions_valueExpr infer)
  | avg => exact .avg (t.functions_valueExpr infer)
  | min => exact .min (t.functions_valueExpr infer)
  | max => exact .max (t.functions_valueExpr infer)

end Target

theorem functions_of_joinOf {r : Registry} {c : Config} {e : Join.JoinEdge} {j : Sql.Join}
    (h : joinOf r c e = .ok j) : j.condition.functions = [] := by
  obtain ⟨source, target, -, -, rfl⟩ := joinOf_eq_ok_iff.mp h
  rfl

theorem functions_conditionBehind {e : Expr} (he : e.functions = []) (f : Filter) (n : Nat) :
    (conditionBehind e f n).functions = [] := by
  have hlist : ∀ negated count, (Expr.isIn e negated (paramsFrom n count)).functions = [] :=
    fun negated _ => Expr.functions_isIn_param he negated _
  unfold conditionBehind
  split <;> simp [Expr.functions, he, hlist]

/-- No condition calls a function. -/
theorem functions_conjuncts {infer : Bool} {fs : List (Placed Filter)}
    {window : Option (WindowBounds × Target)} {p : Conjunct}
    (hp : p ∈ conjuncts infer fs window) (n : Nat) : (p.form n).functions = [] := by
  rcases List.mem_append.mp hp with hp | hp
  · obtain ⟨f, -, rfl⟩ := List.mem_map.mp hp
    exact functions_conditionBehind (f.target.functions_valueExpr infer) f.part n
  · cases window with
    | none => cases hp
    | some w =>
      obtain ⟨bounds, t⟩ := w
      simp only [windowConjuncts, List.mem_append, Option.mem_toList, Option.map_eq_some_iff] at hp
      rcases hp with ⟨s, -, rfl⟩ | ⟨s, -, rfl⟩ <;>
        simp [boundConjunct, Expr.functions, Target.functions_valueExpr]

/-! ## Parts of a resolved report -/

theorem firstPlaced_parts {α : Type} {r : Registry} {place : Nat → Location} {ref : α → FieldRef}
    {check : Location → α → Field → Except CompileError Unit} {parts : List α}
    {ps : List (Placed α)} (h : placeAll r place ref check 0 parts = .ok ps) :
    (firstPlaced ref ps).map Placed.part = Config.distinct ref parts := by
  rw [← Config.firstBy_eq, ← placeAll_parts h, ← Config.firstBy_map]
  rfl

section

variable {r : Registry} {c : Config} {v : Resolved}

namespace Resolution

theorem selected_parts (h : Resolution r c v) :
    v.selected.map Placed.part = Config.distinct SelectedField.ref c.selected := by
  obtain ⟨ps, hps, heq⟩ := h.selected
  rw [heq, firstPlaced_parts hps]

theorem sorting_parts (h : Resolution r c v) :
    v.sorting.map Placed.part = Config.distinct SortKey.ref c.sorting := by
  obtain ⟨ps, hps, heq⟩ := h.sorting
  rw [heq, firstPlaced_parts hps]

theorem groupBy_parts (h : Resolution r c v) :
    v.groupBy.map Placed.part = Config.distinct id c.groupBy := by
  obtain ⟨ps, hps, heq⟩ := h.groupBy
  rw [heq]
  exact firstPlaced_parts hps

theorem isFirst_of_mem (h : Resolution r c v) {p : Placed SelectedField} (hp : p ∈ v.selected) :
    Config.IsFirst SelectedField.ref c.selected p.part := by
  rw [← Config.mem_distinct, ← h.selected_parts]
  exact List.mem_map_of_mem hp

/-- The keys of a resolved report are those that it is to be grouped by. -/
theorem mem_groupBy_iff (h : Resolution r c v) {ref : FieldRef} :
    ref ∈ c.groupBy ↔ ∃ p ∈ v.groupBy, p.part = ref := by
  rw [← List.mem_map, h.groupBy_parts]
  constructor
  · intro hmem
    obtain ⟨b, hb, rfl⟩ := Config.exists_mem_distinct id hmem
    exact hb
  · intro hmem
    exact (Config.mem_distinct.mp hmem).mem

theorem isKey_iff (h : Resolution r c v) {ref : FieldRef} :
    v.isKey ref = true ↔ ref ∈ c.groupBy := by
  simp [Resolved.isKey, h.mem_groupBy_iff]

theorem isGrouped_iff (h : Resolution r c v) : v.isGrouped = true ↔ c.groupBy ≠ [] := by
  have hempty : v.groupBy = [] ↔ c.groupBy = [] := by
    simp only [List.eq_nil_iff_forall_not_mem, h.mem_groupBy_iff]
    grind
  simp [Resolved.isGrouped, hempty]

/-- The value of a key is one of the expressions to group by. -/
theorem value_mem (h : Resolution r c v) {ref : FieldRef} {t : Target} (hn : Names r ref t)
    (hmem : ref ∈ c.groupBy) (infer : Bool) :
    t.valueExpr infer ∈ v.groupBy.map fun key => key.target.valueExpr infer := by
  obtain ⟨p, hp, rfl⟩ := h.mem_groupBy_iff.mp hmem
  rw [hn.unique (h.groupBy_named p hp).2]
  exact List.mem_map_of_mem hp

/-- A field by which a grouped report is sorted is a key, or is selected as a summary. -/
theorem aggregation?_eq (h : Resolution r c v) (hgrouped : c.groupBy ≠ []) {key : SortKey}
    (hkey : key ∈ c.sorting) (hother : key.ref ∉ c.groupBy) :
    ∃ p ∈ v.selected, ∃ a, p.part.ref = key.ref ∧ p.part.aggregation = some a ∧
      v.aggregation? key.ref = some a := by
  rcases h.wellFormed.sortable hgrouped key hkey with hmem | ⟨s, hs, href, hsome⟩
  · exact absurd hmem hother
  · rw [← Config.mem_distinct, ← h.selected_parts] at hs
    obtain ⟨p, hp, rfl⟩ := List.mem_map.mp hs
    -- whichever element is found, it is a summary of the field
    obtain ⟨q, hq⟩ : ∃ q, v.selected.find?
        (fun s => s.part.ref == key.ref && s.part.aggregation.isSome) = some q := by
      refine Option.isSome_iff_exists.mp (List.find?_isSome.mpr ⟨p, hp, ?_⟩)
      simp [href, Option.isSome_iff_ne_none, hsome]
    have htest := List.find?_some hq
    simp only [Bool.and_eq_true, beq_iff_eq, Option.isSome_iff_exists] at htest
    obtain ⟨hqref, a, ha⟩ := htest
    refine ⟨q, List.mem_of_find?_eq_some hq, a, hqref, ha, ?_⟩
    rw [Resolved.aggregation?, hq, Option.bind_some, ha]

end Resolution

/-! ## The rule of grouping -/

/-- An item of the statement shows a selected field under its name: the value of the field, or the
summary that is asked for. -/
structure Shows (r : Registry) (infer : Bool) (s : SelectedField) (item : SelectItem) : Prop where
  label : item.label = some s.outputName
  value : s.aggregation = none → ∃ t, Names r s.ref t ∧ item.expr = t.valueExpr infer
  summary : ∀ a, s.aggregation = some a → item.expr.IsSummary ∧
    ∃ t, Names r s.ref t ∧ item.expr = t.aggregateExpr infer a

/-- A selected field is shown by the expression. -/
def ShownBy (c : Config) (q : Query) (s : SelectedField) (e : Expr) : Prop :=
  ∃ item, (s, item) ∈ (Config.distinct SelectedField.ref c.selected).zip q.select ∧ item.expr = e

/-- A statement is grouped by the values of the keys, one for each of them, and shows and is sorted
by nothing but these and summaries. -/
structure Grouped (r : Registry) (c : Config) (infer : Bool) (q : Query) : Prop where
  keys : List.Forall₂ (fun key e => ∃ t, Names r key t ∧ e = t.valueExpr infer)
    (Config.distinct id c.groupBy) q.groupBy
  select : ∀ s ∈ q.select, s.expr.IsSummary ∨ s.expr ∈ q.groupBy
  orderBy : ∀ s ∈ q.orderBy, s.expr.IsSummary ∨ s.expr ∈ q.groupBy

/-- An entry of the order stands for a sort key: it has the direction of the key, and is the value
of its field, or in a grouped statement the summary under which the field is shown. -/
structure Sorts (r : Registry) (c : Config) (infer : Bool) (q : Query) (key : SortKey)
    (item : OrderItem) : Prop where
  direction : item.descending = true ↔ key.direction = .desc
  value : c.groupBy = [] ∨ key.ref ∈ c.groupBy →
    ∃ t, Names r key.ref t ∧ item.expr = t.valueExpr infer
  summary : c.groupBy ≠ [] → key.ref ∉ c.groupBy → item.expr.IsSummary ∧
    ∃ s, s.ref = key.ref ∧ s.aggregation ≠ none ∧ ShownBy c q s item.expr

/-- No function is called, and there are no keys. -/
structure Ungrouped (q : Query) : Prop where
  keys : q.groupBy = []
  functions : ∀ name, Token.function name ∉ q.tokens
  clause : Token.keyword .groupBy ∉ q.tokens

variable {o : Options} {joins : List Sql.Join} {window : Option (WindowBounds × Target)}
  {k : Compiled}

namespace Compilation

theorem select_eq (h : Compilation r c o v joins window k) :
    k.query.select = v.selected.map (selectItem o.inferEncodings) :=
  congrArg (·.query.select) h.result

theorem groupBy_eq (h : Compilation r c o v joins window k) :
    k.query.groupBy = v.groupBy.map fun key => key.target.valueExpr o.inferEncodings :=
  congrArg (·.query.groupBy) h.result

theorem orderBy_eq (h : Compilation r c o v joins window k) :
    k.query.orderBy = v.sorting.map (orderItem o.inferEncodings v) :=
  congrArg (·.query.orderBy) h.result

theorem condition_functions (h : Compilation r c o v joins window k) :
    ∀ e ∈ k.query.condition, e.functions = [] := by
  have hcondition : k.query.condition =
      conjunction (formsFrom 0 (conjuncts o.inferEncodings v.filters window)) :=
    congrArg (·.query.condition) h.result
  have hparts : k.query.condition.toList.flatMap Expr.functions = [] := by
    rw [hcondition, flatMap_conjunction fun _ _ => rfl, List.flatMap_eq_nil_iff]
    intro e he
    obtain ⟨p, hp, n, rfl⟩ := mem_formsFrom he
    exact functions_conjuncts hp n
  intro e he
  exact List.flatMap_eq_nil_iff.mp hparts e (Option.mem_toList.mpr he)

theorem joins_functions (h : Compilation r c o v joins window k) :
    ∀ j ∈ k.query.joins, j.condition.functions = [] := by
  have hjoins : k.query.joins = joins := congrArg (·.query.joins) h.result
  intro j hj
  rw [hjoins] at hj
  obtain ⟨e, -, he⟩ := exists_hop_of_mem h.joined hj
  exact functions_of_joinOf he

/-- Each selected field is shown once. -/
theorem shown (h : Compilation r c o v joins window k) :
    List.Forall₂ (Shows r o.inferEncodings) (Config.distinct SelectedField.ref c.selected)
      k.query.select := by
  rw [← h.resolved.selected_parts, h.select_eq, List.forall₂_map_left_iff,
    List.forall₂_map_right_iff, List.forall₂_same]
  intro p hp
  have hn := (h.resolved.selected_named p hp).2
  refine ⟨rfl, fun hnone => ⟨p.target, hn, ?_⟩, fun a ha => ?_⟩
  · rw [selectItem, selectedExpr, hnone]
  · rw [selectItem, selectedExpr, ha]
    exact ⟨p.target.isSummary_aggregateExpr _ a, p.target, hn, rfl⟩

/-- What a sort key stands for in the statement. -/
theorem sorts (h : Compilation r c o v joins window k) {p : Placed SortKey} (hp : p ∈ v.sorting) :
    Sorts r c o.inferEncodings k.query p.part (orderItem o.inferEncodings v p) := by
  obtain ⟨hpart, hn⟩ := h.resolved.sorting_named p hp
  have href : p.target.ref = p.part.ref := hn.ref_eq
  refine ⟨by simp [orderItem], ?_, ?_⟩
  · intro hvalue
    refine ⟨p.target, hn, ?_⟩
    have hplain : (v.isGrouped && !v.isKey p.part.ref) = false := by
      rw [Bool.and_eq_false_imp, h.resolved.isGrouped_iff, Bool.not_eq_false', h.resolved.isKey_iff]
      exact hvalue.resolve_left
    rw [orderItem, sortExpr, href, hplain]
    rfl
  · intro hgrouped hother
    obtain ⟨q, hq, a, hqref, ha, haggregation⟩ :=
      h.resolved.aggregation?_eq hgrouped hpart hother
    have htarget : q.target = p.target :=
      (h.resolved.selected_named q hq).2.unique (hqref ▸ hn)
    have hsummary : (v.isGrouped && !v.isKey p.part.ref) = true := by
      rw [Bool.and_eq_true, h.resolved.isGrouped_iff, Bool.not_eq_true', Bool.eq_false_iff]
      exact ⟨hgrouped, fun hkey => hother (h.resolved.isKey_iff.mp hkey)⟩
    have hsorted : (orderItem o.inferEncodings v p).expr =
        p.target.aggregateExpr o.inferEncodings a := by
      rw [orderItem, sortExpr, href, hsummary, haggregation]
      rfl
    rw [hsorted]
    refine ⟨p.target.isSummary_aggregateExpr _ a, q.part, hqref, by simp [ha],
      selectItem o.inferEncodings q, ?_, ?_⟩
    · rw [← h.resolved.selected_parts, h.select_eq, List.zip_map']
      exact List.mem_map_of_mem hq
    · rw [selectItem, selectedExpr, ha, htarget]

/-- A field is shown by a summary, or else by its value and is one of the keys. -/
theorem select_grouped (h : Compilation r c o v joins window k) (hgrouped : c.groupBy ≠ []) :
    ∀ s ∈ k.query.select, s.expr.IsSummary ∨ s.expr ∈ k.query.groupBy := by
  intro s hs
  rw [h.select_eq] at hs
  obtain ⟨p, hp, rfl⟩ := List.mem_map.mp hs
  show (selectedExpr _ p).IsSummary ∨ selectedExpr _ p ∈ _
  rw [selectedExpr]
  cases ha : p.part.aggregation with
  | some a => exact .inl (p.target.isSummary_aggregateExpr _ a)
  | none =>
    have hkey : p.part.ref ∈ c.groupBy :=
      h.resolved.wellFormed.grouped hgrouped _ (h.resolved.isFirst_of_mem hp) ha
    rw [h.groupBy_eq]
    exact .inr (h.resolved.value_mem (h.resolved.selected_named p hp).2 hkey _)

/-- Without keys all fields are shown by their values. -/
theorem select_functions (h : Compilation r c o v joins window k) (hnone : c.groupBy = []) :
    ∀ s ∈ k.query.select, s.expr.functions = [] := by
  intro s hs
  rw [h.select_eq] at hs
  obtain ⟨p, hp, rfl⟩ := List.mem_map.mp hs
  show (selectedExpr _ p).functions = []
  rw [selectedExpr]
  cases ha : p.part.aggregation with
  | some a =>
    have hfirst := h.resolved.isFirst_of_mem hp
    exact absurd hnone (h.resolved.wellFormed.summarised _ hfirst a ha).1
  | none => exact p.target.functions_valueExpr _

theorem keys (h : Compilation r c o v joins window k) :
    List.Forall₂ (fun key e => ∃ t, Names r key t ∧ e = t.valueExpr o.inferEncodings)
      (Config.distinct id c.groupBy) k.query.groupBy := by
  rw [← h.resolved.groupBy_parts, h.groupBy_eq, List.forall₂_map_left_iff,
    List.forall₂_map_right_iff, List.forall₂_same]
  exact fun p hp => ⟨p.target, (h.resolved.groupBy_named p hp).2, rfl⟩

theorem order (h : Compilation r c o v joins window k) :
    List.Forall₂ (Sorts r c o.inferEncodings k.query) (Config.distinct SortKey.ref c.sorting)
      k.query.orderBy := by
  rw [← h.resolved.sorting_parts, h.orderBy_eq, List.forall₂_map_left_iff,
    List.forall₂_map_right_iff, List.forall₂_same]
  exact fun p hp => h.sorts hp

/-- A grouped statement is sorted by keys and by what it shows. -/
theorem orderBy_grouped (h : Compilation r c o v joins window k) (hgrouped : c.groupBy ≠ []) :
    ∀ s ∈ k.query.orderBy, s.expr.IsSummary ∨ s.expr ∈ k.query.groupBy := by
  intro s hs
  rw [h.orderBy_eq] at hs
  obtain ⟨p, hp, rfl⟩ := List.mem_map.mp hs
  have hsorts := h.sorts hp
  by_cases hkey : p.part.ref ∈ c.groupBy
  · obtain ⟨t, hn, heq⟩ := hsorts.value (.inr hkey)
    rw [heq, h.groupBy_eq]
    exact .inr (h.resolved.value_mem hn hkey _)
  · exact .inl (hsorts.summary hgrouped hkey).1

theorem grouped (h : Compilation r c o v joins window k) (hgrouped : c.groupBy ≠ []) :
    Grouped r c o.inferEncodings k.query :=
  ⟨h.keys, h.select_grouped hgrouped, h.orderBy_grouped hgrouped⟩

theorem ungrouped (h : Compilation r c o v joins window k) (hnone : c.groupBy = []) :
    Ungrouped k.query := by
  have hkeys : k.query.groupBy = [] := by
    have hall := h.keys
    rw [hnone] at hall
    exact List.forall₂_nil_left_iff.mp hall
  have horder : ∀ s ∈ k.query.orderBy, s.expr.functions = [] := by
    intro s hs
    rw [h.orderBy_eq] at hs
    obtain ⟨p, hp, rfl⟩ := List.mem_map.mp hs
    obtain ⟨t, -, heq⟩ := (h.sorts hp).value (.inl hnone)
    rw [heq]
    exact t.functions_valueExpr _
  have hpieces := Query.isGrouping_eq_false (h.select_functions hnone) h.joins_functions
    h.condition_functions hkeys horder
  refine ⟨hkeys, fun name hname => ?_, fun hclause => ?_⟩
  · cases hpieces _ hname
  · cases hpieces _ hclause

end Compilation

end

/-- **Statements obey the rule of grouping.** A report with keys to group by has a statement with
one expression for each distinct key, in the order of their first occurrences, and whatever the
statement shows or is sorted by is one of these expressions or a summary. Without keys the statement
calls no function and is not grouped. In both cases it shows one expression for each distinct
selected field and is sorted by one for each distinct sort key, in the order and with the direction
of their first occurrences. -/
theorem statement_obeys_grouping_rule {r : Registry} {c : Config} {o : Options} {k : Compiled}
    (h : compile r c o = .ok k) :
    (c.groupBy ≠ [] → Grouped r c o.inferEncodings k.query) ∧
      (c.groupBy = [] → Ungrouped k.query) ∧
      List.Forall₂ (Shows r o.inferEncodings) (Config.distinct SelectedField.ref c.selected)
        k.query.select ∧
      List.Forall₂ (Sorts r c o.inferEncodings k.query) (Config.distinct SortKey.ref c.sorting)
        k.query.orderBy := by
  obtain ⟨v, joins, window, hc⟩ := compile_eq_ok_iff.mp h
  exact ⟨hc.grouped, hc.ungrouped, hc.shown, hc.order⟩

/-- The mean speeds of devices, the fastest first. -/
def speedByDevice : Config :=
  { Config.new "tracking_data_core" with
    selected := [⟨"tracking_data_core", "device_id", none, none⟩,
      ⟨"tracking_data_core", "speed", none, some .avg⟩]
    sorting := [⟨"tracking_data_core", "speed", .desc⟩, ⟨"tracking_data_core", "device_id", .asc⟩,
      ⟨"tracking_data_core", "speed", .asc⟩]
    groupBy := [⟨"tracking_data_core", "device_id"⟩, ⟨"tracking_data_core", "device_id"⟩] }

theorem speedByDevice_grouped :
    ∃ k, compile .telematics speedByDevice newYearOptions = .ok k ∧
      Grouped .telematics speedByDevice true k.query ∧
      List.Forall₂ (Sorts .telematics speedByDevice true k.query)
        [⟨"tracking_data_core", "speed", .desc⟩, ⟨"tracking_data_core", "device_id", .asc⟩]
        k.query.orderBy := by
  have hcompiled : (compile .telematics speedByDevice newYearOptions).toOption.map
      (fun k => k.query.groupBy.length) = some 1 := by decide +kernel
  obtain ⟨k, hk, -⟩ := exists_ok_of_map hcompiled
  obtain ⟨hgrouped, -, -, horder⟩ := statement_obeys_grouping_rule hk
  exact ⟨k, hk, hgrouped (by decide), horder⟩

end ReportSql.Statement
