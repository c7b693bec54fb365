import ReportSql.Proofs.Compilation

/-!
# What the text of a statement depends on

Two reports are alike if they ask the same of the same fields and differ at most in the values that
they compare with. The text of a statement is the same for both: each step of the compilation reads
a report, if at all, through what alike reports share, and of the values only how many there are.
-/

namespace ReportSql

open ReportSql.Catalog
open ReportSql.Join (JoinEdge)
open ReportSql.Json (Value)
open ReportSql.Report
open ReportSql.Sql (BinaryOp Expr)
open ReportSql.Time (Instant TimeRange WindowBounds)

/-! ## Reports that are alike -/

namespace Time.TimeRange

/-- Both windows are relative, or both lie between bounds of which the same are open. -/
inductive Alike : TimeRange → TimeRange → Prop where
  | relative (amount amount' : Int64) (unit unit' : TimeUnit) :
      Alike (relative amount unit) (relative amount' unit')
  | absolute {start finish start' finish' : Option String} :
      start.isSome = start'.isSome → finish.isSome = finish'.isSome →
      Alike (absolute start finish) (absolute start' finish')

end Time.TimeRange

namespace Report

/-- The filters ask the same of the same field, with lists of the same length where they ask for
membership in a list. -/
structure Filter.Alike (f f' : Filter) : Prop where
  entity : f.entity = f'.entity
  field : f.field = f'.field
  operator : f.operator = f'.operator
  lists : f.operator.operands = .list → ∀ items items', f.value = some (.array items) →
    f'.value = some (.array items') → items.length = items'.length

theorem Filter.Alike.refl (f : Filter) : f.Alike f := by
  refine ⟨rfl, rfl, rfl, ?_⟩
  intro _ items items' h h'
  rw [h] at h'
  cases h'
  rfl

/-- The reports differ at most in their names and descriptions, in the ids and the values of their
filters, in the extent of their time windows, and in a time field without a window. -/
structure Config.Alike (c c' : Config) : Prop where
  primaryEntity : c.primaryEntity = c'.primaryEntity
  selected : c.selected = c'.selected
  filters : List.Forall₂ Filter.Alike c.filters c'.filters
  sorting : c.sorting = c'.sorting
  groupBy : c.groupBy = c'.groupBy
  limit : c.limit = c'.limit
  timeRange : Option.Rel TimeRange.Alike c.timeRange c'.timeRange
  timeField : c.timeRange.isSome = true → c.timeField = c'.timeField

namespace Config.Alike

variable {c c' : Config}

theorem isSome_timeRange (h : c.Alike c') : c.timeRange.isSome = c'.timeRange.isSome := by
  have hrel := h.timeRange
  generalize c.timeRange = range, c'.timeRange = range' at hrel
  cases hrel <;> rfl

theorem primary?_eq (h : c.Alike c') : c.primary? = c'.primary? := by
  rw [primary?, primary?, h.primaryEntity]

/-- Alike reports mention the same entities in the same order. -/
theorem mentioned_eq (h : c.Alike c') : c.mentioned = c'.mentioned := by
  have hfilters : c.filters.map Filter.entity = c'.filters.map Filter.entity := by
    rw [← List.forall₂_eq_eq_eq, List.forall₂_map_left_iff, List.forall₂_map_right_iff]
    exact h.filters.imp fun _ _ hf => hf.entity
  have hwindow : c.windowEntity = c'.windowEntity := by
    unfold windowEntity
    rw [← h.isSome_timeRange]
    split
    · rename_i hrange
      rw [h.timeField hrange]
    · rfl
  rw [mentioned, mentioned, h.selected, hfilters, h.sorting, h.groupBy, hwindow]

theorem referenced_eq (h : c.Alike c') : c.referenced = c'.referenced := by
  rw [referenced, referenced, h.primary?_eq, h.mentioned_eq]

end Config.Alike

end Report

namespace Statement

/-- The options differ at most in the reference moment. -/
structure Options.Alike (o o' : Options) : Prop where
  dialect : o.dialect = o'.dialect
  limits : o.limits = o'.limits
  inferEncodings : o.inferEncodings = o'.inferEncodings

/-- A year later. -/
def nextYearOptions : Options :=
  { newYearOptions with now := .atSecond 1735689600 (by decide) }

theorem fastDrives_alike (network network' : String) (days days' : Int64) :
    (fastDrives network days).Alike (fastDrives network' days') where
  primaryEntity := rfl
  selected := rfl
  filters := by
    have hnetwork : Filter.Alike
        ⟨"filter-2", "devices", "network_label", .contains, some (.string network), none⟩
        ⟨"filter-2", "devices", "network_label", .contains, some (.string network'), none⟩ :=
      ⟨rfl, rfl, rfl, fun h => nomatch h⟩
    exact .cons (.refl _) (.cons hnetwork (.cons (.refl _) (.cons (.refl _)
      (.cons (.refl _) .nil))))
  sorting := rfl
  groupBy := rfl
  limit := rfl
  timeRange := .some (.relative days days' .days .days)
  timeField := fun _ => rfl

/-! ## Bounds -/

theorem isSome_of_readOpen {s : Option String} {t : Option Instant}
    (h : TimeRange.readOpen s = .ok t) : t.isSome = s.isSome := by
  cases s with
  | none =>
    cases h
    rfl
  | some s =>
    rw [TimeRange.readOpen] at h
    cases hread : Time.readBound s with
    | error cause =>
      rw [hread] at h
      cases h
    | ok t' =>
      rw [hread] at h
      cases h
      rfl

theorem isSome_of_resolve_relative {amount : Int64} {unit : Time.TimeUnit} {now : Instant}
    {bounds : WindowBounds} (h : (TimeRange.relative amount unit).resolve now = .ok bounds) :
    bounds.start.isSome = true ∧ bounds.finish.isSome = true := by
  rw [TimeRange.resolve] at h
  split at h
  · cases h
  · split at h
    · cases h
    · cases h
      exact ⟨rfl, rfl⟩

theorem isSome_of_resolve_absolute {start finish : Option String} {now : Instant}
    {bounds : WindowBounds} (h : (TimeRange.absolute start finish).resolve now = .ok bounds) :
    bounds.start.isSome = start.isSome ∧ bounds.finish.isSome = finish.isSome := by
  simp only [TimeRange.resolve, bind_eq_ok] at h
  obtain ⟨s, hs, t, ht, h⟩ := h
  split at h
  · cases h
  · cases h
    rw [Option.isSome_map, Option.isSome_map]
    exact ⟨isSome_of_readOpen hs, isSome_of_readOpen ht⟩

/-- Which bounds a window has is decided by no text of a bound and no reference moment. -/
theorem isSome_of_resolve {range range' : TimeRange} (h : range.Alike range')
    {now now' : Instant} {bounds bounds' : WindowBounds} (hb : range.resolve now = .ok bounds)
    (hb' : range'.resolve now' = .ok bounds') :
    bounds.start.isSome = bounds'.start.isSome ∧
      bounds.finish.isSome = bounds'.finish.isSome := by
  cases h with
  | relative =>
    obtain ⟨hs, hf⟩ := isSome_of_resolve_relative hb
    obtain ⟨hs', hf'⟩ := isSome_of_resolve_relative hb'
    exact ⟨hs.trans hs'.symm, hf.trans hf'.symm⟩
  | absolute hstart hfinish =>
    obtain ⟨hs, hf⟩ := isSome_of_resolve_absolute hb
    obtain ⟨hs', hf'⟩ := isSome_of_resolve_absolute hb'
    rw [hs, hf, hs', hf']
    exact ⟨hstart, hfinish⟩

/-! ## Conjuncts -/

/-- The conjuncts bind as many values and have the same condition wherever they stand. -/
structure Conjunct.Alike (p q : Conjunct) : Prop where
  form : p.form = q.form
  length : p.values.length = q.values.length

/-- Conjuncts that are alike, one after another, have the same conditions and as many values. -/
theorem formsFrom_eq {ps qs : List Conjunct} (h : List.Forall₂ Conjunct.Alike ps qs) (n : Nat) :
    formsFrom n ps = formsFrom n qs ∧ (valuesOf ps).length = (valuesOf qs).length := by
  induction h generalizing n with
  | nil => exact ⟨rfl, rfl⟩
  | @cons p q ps qs hpq _ ih =>
    obtain ⟨hforms, hlength⟩ := ih (n + q.values.length)
    refine ⟨?_, ?_⟩
    · rw [formsFrom, formsFrom, hpq.form, hpq.length, hforms]
    · rw [valuesOf_cons, valuesOf_cons, List.length_append, List.length_append, hpq.length, hlength]

/-- How many values a filter binds is decided by its operator and the length of its list. -/
theorem length_operandValues {f f' : Filter} (h : f.Alike f') (hf : operandProblem? f = none)
    (hf' : operandProblem? f' = none) :
    (operandValues f).length = (operandValues f').length := by
  have hop' := h.operator
  cases hop : f.operator
  -- of the values only the length of a list matters
  case isIn | notIn =>
    rw [hop] at hop'
    have hlist : f.operator.operands = .list := by rw [hop]; rfl
    obtain ⟨items, hv, -⟩ := exists_items_of_sound hlist hf
    obtain ⟨items', hv', -⟩ := exists_items_of_sound (h.operator ▸ hlist) hf'
    have hlength := h.lists hlist items items' hv hv'
    simpa [operandValues, hop, ← hop', listOperand, hv, hv', Value.items?] using hlength
  all_goals
    rw [hop] at hop'
    simp [operandValues, hop, ← hop']

/-- The condition of a filter reads the operator and how many values are bound. -/
theorem conditionBehind_eq {f f' : Filter} (hop : f.operator = f'.operator)
    (hlength : (operandValues f).length = (operandValues f').length) (e : Expr) :
    conditionBehind e f = conditionBehind e f' := by
  funext n
  rw [conditionBehind, conditionBehind, hop, hlength]

/-- Filters that are alike and placed on the fields that they name. -/
theorem filterConjuncts_alike {r : Registry} (infer : Bool) {fs fs' : List (Placed Filter)}
    (h : List.Forall₂ (fun f f' => f.part.Alike f'.part) fs fs')
    (hn : ∀ f ∈ fs, Names r f.part.ref f.target ∧ operandProblem? f.part = none)
    (hn' : ∀ f ∈ fs', Names r f.part.ref f.target ∧ operandProblem? f.part = none) :
    List.Forall₂ Conjunct.Alike (fs.map (filterConjunct infer))
      (fs'.map (filterConjunct infer)) := by
  induction h with
  | nil => exact .nil
  | @cons f f' rest rest' hpart _ ih =>
    obtain ⟨⟨hname, hsound⟩, hrest⟩ := List.forall_mem_cons.mp hn
    obtain ⟨⟨hname', hsound'⟩, hrest'⟩ := List.forall_mem_cons.mp hn'
    have href : f.part.ref = f'.part.ref := by
      rw [Filter.ref, Filter.ref, hpart.entity, hpart.field]
    have htarget : f.target = f'.target := hname.unique (href ▸ hname')
    have hlength := length_operandValues hpart hsound hsound'
    refine .cons ⟨?_, hlength⟩ (ih hrest hrest')
    rw [filterConjunct, filterConjunct, htarget]
    exact conditionBehind_eq hpart.operator hlength _

theorem windowConjuncts_alike {bounds bounds' : WindowBounds}
    (hstart : bounds.start.isSome = bounds'.start.isSome)
    (hfinish : bounds.finish.isSome = bounds'.finish.isSome) (e : Expr) :
    List.Forall₂ Conjunct.Alike (windowConjuncts e bounds) (windowConjuncts e bounds') := by
  have hbound : ∀ (op : BinaryOp) {s s' : Option String}, s.isSome = s'.isSome →
      List.Forall₂ Conjunct.Alike (s.map (boundConjunct op e)).toList
        (s'.map (boundConjunct op e)).toList := by
    intro op s s' h
    cases s <;> cases s'
    · exact .nil
    · cases h
    · cases h
    · exact .cons ⟨rfl, rfl⟩ .nil
  exact List.rel_append (hbound .ge hstart) (hbound .le hfinish)

/-! ## Resolved reports -/

section

variable {r : Registry} {c c' : Config} {o o' : Options} {v v' : Resolved}

theorem Resolution.primary_eq (hc : c.Alike c') (h : Resolution r c v) (h' : Resolution r c' v') :
    v.primary = v'.primary := by
  obtain ⟨id, hid, he⟩ := h.primary_entity
  obtain ⟨id', hid', he'⟩ := h'.primary_entity
  rw [← hc.primary?_eq, hid] at hid'
  cases hid'
  exact Option.some.inj (he.symm.trans he')

/-- Placing the same parts twice gives the same. -/
theorem Resolution.placed_eq (hc : c.Alike c') (h : Resolution r c v) (h' : Resolution r c' v') :
    v.selected = v'.selected ∧ v.sorting = v'.sorting ∧ v.groupBy = v'.groupBy := by
  obtain ⟨selected, hs, hs'⟩ := h.selected
  obtain ⟨sorting, ho, ho'⟩ := h.sorting
  obtain ⟨groupBy, hg, hg'⟩ := h.groupBy
  obtain ⟨selected', ht, ht'⟩ := h'.selected
  obtain ⟨sorting', hp, hp'⟩ := h'.sorting
  obtain ⟨groupBy', hk, hk'⟩ := h'.groupBy
  rw [← hc.selected, hs] at ht
  rw [← hc.sorting, ho] at hp
  rw [← hc.groupBy, hg] at hk
  cases ht
  cases hp
  cases hk
  exact ⟨hs'.trans ht'.symm, ho'.trans hp'.symm, hg'.trans hk'.symm⟩

theorem Resolution.filters_alike (hc : c.Alike c') (h : Resolution r c v)
    (h' : Resolution r c' v') :
    List.Forall₂ (fun f f' => f.part.Alike f'.part) v.filters v'.filters := by
  have hparts := hc.filters
  rwa [← h.filters_parts, ← h'.filters_parts, List.forall₂_map_left_iff,
    List.forall₂_map_right_iff] at hparts

/-- The sort keys read the selected fields and the keys to group by. -/
theorem orderItem_eq (infer : Bool) (hs : v.selected = v'.selected)
    (hg : v.groupBy = v'.groupBy) : orderItem infer v = orderItem infer v' := by
  funext s
  have hgrouped : v.isGrouped = v'.isGrouped := by rw [Resolved.isGrouped, Resolved.isGrouped, hg]
  have hkey : v.isKey s.target.ref = v'.isKey s.target.ref := by
    rw [Resolved.isKey, Resolved.isKey, hg]
  have haggregation : v.aggregation? s.target.ref = v'.aggregation? s.target.ref := by
    rw [Resolved.aggregation?, Resolved.aggregation?, hs]
  rw [orderItem, orderItem, sortExpr, sortExpr, hgrouped, hkey, haggregation]

theorem joinOf_congr {e : JoinEdge} {j : Sql.Join} (h : joinOf r c e = .ok j) :
    joinOf r c' e = .ok j :=
  joinOf_eq_ok_iff.mpr (joinOf_eq_ok_iff.mp h)

/-- Of the report, joining reads only what to say if it fails. -/
theorem joinsOf_congr {edges : List JoinEdge} {joins joins' : List Sql.Join}
    (h : joinsOf r c edges = .ok joins) (h' : joinsOf r c' edges = .ok joins') :
    joins = joins' := by
  have hall : joinsOf r c' edges = .ok joins :=
    joinsOf_eq_ok_iff.mpr ((joinsOf_eq_ok_iff.mp h).imp fun _ _ => joinOf_congr)
  exact Except.ok.inj (hall.symm.trans h')

/-! ## Compiled reports -/

variable {joins joins' : List Sql.Join} {window window' : Option (WindowBounds × Target)}
  {k k' : Compiled}

theorem Compilation.plan_eq (hc : c.Alike c') (h : Compilation r c o v joins window k)
    (h' : Compilation r c' o' v' joins' window' k') : k.plan = k'.plan := by
  have hplan := h'.planned
  rw [← h.resolved.primary_eq hc h'.resolved, ← hc.referenced_eq, h.planned] at hplan
  exact Except.ok.inj hplan

/-- The windows of alike reports apply to the same field. -/
theorem Compilation.windows_alike (hc : c.Alike c') (h : Compilation r c o v joins window k)
    (h' : Compilation r c' o' v' joins' window' k') (infer : Bool) :
    List.Forall₂ Conjunct.Alike (conjuncts infer [] window) (conjuncts infer [] window') := by
  have hrange := hc.timeRange
  cases window with
  | none =>
    cases window' with
    | none => exact .nil
    | some w =>
      obtain ⟨bounds', t'⟩ := w
      obtain ⟨range', _, hrange', -⟩ := h'.window_named
      rw [h.timeRange_eq_none, hrange'] at hrange
      cases hrange
  | some w =>
    obtain ⟨bounds, t⟩ := w
    obtain ⟨range, asked, hsome, hb, hfield, hn⟩ := h.window_named
    cases window' with
    | none =>
      rw [h'.timeRange_eq_none, hsome] at hrange
      cases hrange
    | some w =>
      obtain ⟨bounds', t'⟩ := w
      obtain ⟨range', asked', hsome', hb', hfield', hn'⟩ := h'.window_named
      have hsame : asked = asked' := by
        have hfields := hc.timeField (by rw [hsome]; rfl)
        rw [hfield, hfield'] at hfields
        exact Option.some.inj hfields
      rw [hsome, hsome'] at hrange
      cases hrange with
      | some halike =>
        obtain ⟨hstart, hfinish⟩ := isSome_of_resolve halike hb hb'
        rw [← hsame, ← h.resolved.primary_eq hc h'.resolved] at hn'
        rw [hn.unique hn']
        exact windowConjuncts_alike hstart hfinish _

theorem Compilation.conjuncts_alike (hc : c.Alike c') (h : Compilation r c o v joins window k)
    (h' : Compilation r c' o' v' joins' window' k') (infer : Bool) :
    List.Forall₂ Conjunct.Alike (conjuncts infer v.filters window)
      (conjuncts infer v'.filters window') := by
  have hfilters := filterConjuncts_alike infer (h.resolved.filters_alike hc h'.resolved)
    (fun f hf => ⟨h.resolved.filters_named f hf, h.resolved.filters_sound f hf⟩)
    (fun f hf => ⟨h'.resolved.filters_named f hf, h'.resolved.filters_sound f hf⟩)
  exact List.rel_append hfilters (h.windows_alike hc h' infer)

end

/-- **Values do not influence the statement.** Alike reports that compile, as seen from any two
moments, have the same statement, the same columns and limit and the same plan, and bind as many
values. -/
theorem statement_independent_of_values {r : Registry} {c c' : Config} {o o' : Options}
    {k k' : Compiled} (hc : c.Alike c') (ho : o.Alike o') (h : compile r c o = .ok k)
    (h' : compile r c' o' = .ok k') :
    k.sql = k'.sql ∧ k.query = k'.query ∧ k.columns = k'.columns ∧ k.limit = k'.limit ∧
      k.clamp = k'.clamp ∧ k.plan = k'.plan ∧ k.parameters.length = k'.parameters.length := by
  obtain ⟨v, joins, window, hk⟩ := compile_eq_ok_iff.mp h
  obtain ⟨v', joins', window', hk'⟩ := compile_eq_ok_iff.mp h'
  have hprimary := hk.resolved.primary_eq hc hk'.resolved
  obtain ⟨hselected, hsorting, hgroup⟩ := hk.resolved.placed_eq hc hk'.resolved
  have hplan := hk.plan_eq hc hk'
  have hjoins : joins = joins' := joinsOf_congr (hplan ▸ hk.joined) hk'.joined
  obtain ⟨hforms, hlength⟩ := formsFrom_eq (hk.conjuncts_alike hc hk' o.inferEncodings) 0
  have horder := orderItem_eq o.inferEncodings hselected hgroup
  have hquery : k.query = k'.query := by
    -- each clause reads the report and the options through what both have in common
    rw [hk.result, hk'.result]
    simp only [assembled, ← ho.inferEncodings, ← ho.limits, ← hc.limit, ← hprimary, ← hselected,
      ← hsorting, ← hgroup, ← hjoins, ← hforms, ← horder]
  refine ⟨?_, hquery, ?_, ?_, ?_, hplan, ?_⟩
  · have hdialect : k.dialect = k'.dialect := by
      rw [hk.result, hk'.result]
      exact ho.dialect
    rw [Compiled.sql, Compiled.sql, hquery, hdialect]
  all_goals
    rw [hk.result, hk'.result]
    simp only [assembled, ← ho.inferEncodings, ← ho.limits, ← hc.limit, ← hselected, hlength]

theorem fastDrives_same_statement :
    ∃ k k', compile .telematics (fastDrives "100%" 2) newYearOptions = .ok k ∧
      compile .telematics (fastDrives "x; DROP TABLE objects" 30) nextYearOptions = .ok k' ∧
      k.sql = k'.sql ∧ k'.parameters.length = 7 := by
  obtain ⟨k, hk, hlength⟩ := exists_compiled_fastDrives
  have h : (compile .telematics (fastDrives "x; DROP TABLE objects" 30)
      nextYearOptions).toOption.map (fun k => k.plan.edges.length) = some 1 := by decide +kernel
  obtain ⟨k', hk', -⟩ := exists_ok_of_map h
  have ho : newYearOptions.Alike nextYearOptions := ⟨rfl, rfl, rfl⟩
  obtain ⟨hsql, -, -, -, -, -, hlength'⟩ :=
    statement_independent_of_values (fastDrives_alike _ _ 2 30) ho hk hk'
  exact ⟨k, k', hk, hk', hsql, hlength' ▸ hlength⟩

end Statement

end ReportSql
