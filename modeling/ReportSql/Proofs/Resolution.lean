import ReportSql.Proofs.Catalog
import ReportSql.Statement.Resolved

/-!
# What a resolved report promises

`resolve` succeeds with a report exactly if each of its steps does; `Resolution` names the steps.
Every part of a resolved report is a part of the report that was asked for, together with the entity
and the field of the catalog that it names.
-/

namespace ReportSql

open ReportSql.Catalog
open ReportSql.Report
open ReportSql.Time (TimeRange TimeField)

namespace Report.Config

/-! ## First occurrences -/

theorem firstBy_sublist {α : Type} (key : α → FieldRef) (seen : List FieldRef) (l : List α) :
    (firstBy key seen l).Sublist l := by
  induction l generalizing seen with
  | nil => exact .refl _
  | cons a rest ih =>
    rw [firstBy]
    split
    · exact (ih seen).cons a
    · exact (ih (key a :: seen)).cons_cons a

end Report.Config

namespace Statement

/-! ## Names -/

/-- The catalog has the entity and the field that a reference names. -/
structure Names (r : Registry) (ref : FieldRef) (t : Target) : Prop where
  entity : r.entity? ref.entity = some t.entity
  field : t.entity.field? ref.field = some t.field

namespace Names

variable {r : Registry} {ref : FieldRef} {t t' : Target}

theorem entity_id (h : Names r ref t) : t.entity.id = ref.entity :=
  (r.entity?_eq_some_iff.mp h.entity).2

theorem entity_mem (h : Names r ref t) : t.entity ∈ r.entities :=
  (r.entity?_eq_some_iff.mp h.entity).1

theorem field_mem (h : Names r ref t) : t.field ∈ t.entity.fields :=
  (Entity.field?_eq_some h.field).1

theorem unique (h : Names r ref t) (h' : Names r ref t') : t = t' := by
  obtain ⟨e, f⟩ := t
  obtain ⟨e', f'⟩ := t'
  have he : e = e' := Option.some.inj (h.entity.symm.trans h'.entity)
  subst he
  have hf : f = f' := Option.some.inj (h.field.symm.trans h'.field)
  rw [hf]

end Names

theorem target_eq_ok_iff {r : Registry} {place : Location} {ref : FieldRef} {t : Target} :
    target r place ref = .ok t ↔ Names r ref t := by
  rw [target]
  constructor
  · intro h
    split at h
    · cases h
    · rename_i e he
      split at h
      · cases h
      · rename_i f hf
        cases h
        exact ⟨he, hf⟩
  · rintro ⟨he, hf⟩
    simp only [he, hf]

/-! ## Placed parts -/

section

variable {α : Type} {r : Registry} {place : Nat → Location} {ref : α → FieldRef}
  {check : Location → α → Field → Except CompileError Unit}

theorem placeAll_cons_eq_ok_iff {i : Nat} {part : α} {rest : List α} {ps : List (Placed α)} :
    placeAll r place ref check i (part :: rest) = .ok ps ↔
      ∃ t more, Names r (ref part) t ∧ check (place i) part t.field = .ok () ∧
        placeAll r place ref check (i + 1) rest = .ok more ∧ ps = ⟨i, part, t⟩ :: more := by
  simp only [placeAll, bind_eq_ok, target_eq_ok_iff, Except.ok.injEq]
  constructor
  · rintro ⟨t, hn, ⟨⟩, hc, more, hm, rfl⟩
    exact ⟨t, more, hn, hc, hm, rfl⟩
  · rintro ⟨t, more, hn, hc, hm, rfl⟩
    exact ⟨t, hn, (), hc, more, hm, rfl⟩

/-- The placed parts are the parts that were asked for, in order. -/
theorem placeAll_parts {i : Nat} {parts : List α} {ps : List (Placed α)}
    (h : placeAll r place ref check i parts = .ok ps) : ps.map Placed.part = parts := by
  induction parts generalizing i ps with
  | nil =>
    cases h
    rfl
  | cons part rest ih =>
    obtain ⟨t, more, -, -, hm, rfl⟩ := placeAll_cons_eq_ok_iff.mp h
    rw [List.map_cons, ih hm]

/-- Each placed part goes with the field that it names, and has passed the check. -/
theorem placeAll_placed {i : Nat} {parts : List α} {ps : List (Placed α)}
    (h : placeAll r place ref check i parts = .ok ps) :
    ∀ p ∈ ps, Names r (ref p.part) p.target ∧
      check (place p.index) p.part p.target.field = .ok () := by
  induction parts generalizing i ps with
  | nil =>
    cases h
    simp
  | cons part rest ih =>
    obtain ⟨t, more, hn, hc, hm, rfl⟩ := placeAll_cons_eq_ok_iff.mp h
    intro p hp
    rcases List.mem_cons.mp hp with rfl | hp
    · exact ⟨hn, hc⟩
    · exact ih hm p hp

end

theorem checkFilter_eq_ok_iff {place : Location} {f : Filter} {field : Field} :
    checkFilter place f field = .ok () ↔
      f.operator.applies field.type = true ∧ operandProblem? f = none := by
  rw [checkFilter]
  cases f.operator.applies field.type with
  | false => simp
  | true => cases operandProblem? f <;> simp

/-! ## The primary entity and the time window -/

theorem resolvePrimary_eq_ok_iff {r : Registry} {c : Config} {e : Entity} :
    resolvePrimary r c = .ok e ↔ ∃ id, c.primary? = some id ∧ r.entity? id = some e := by
  rw [resolvePrimary]
  cases c.primary? with
  | none => simp
  | some id => cases h : r.entity? id <;> simp [h]

theorem windowTarget_eq_ok_iff {r : Registry} {primary : String} {field : Option TimeField}
    {range : TimeRange} {t : Target} :
    windowTarget r primary field range = .ok t ↔
      ∃ asked, field = some asked ∧ Names r ⟨asked.owner primary, asked.field⟩ t ∧
        t.field.type.isTemporal = true ∧ range.check = .ok () := by
  cases field with
  | none => simp [windowTarget]
  | some asked =>
    simp only [windowTarget, bind_eq_ok, target_eq_ok_iff, Option.some.injEq, exists_eq_left']
    constructor
    · rintro ⟨t', hn, h⟩
      split at h
      · rename_i htemporal
        split at h
        · rename_i hcheck
          cases h
          exact ⟨hn, htemporal, hcheck⟩
        · cases h
      · cases h
    · rintro ⟨hn, htemporal, hcheck⟩
      exact ⟨t, hn, by simp [htemporal, hcheck]⟩

/-- A window is resolved together with the field that it applies to; without a window there is
nothing to resolve. -/
theorem resolveWindow_eq_ok_iff {r : Registry} {c : Config} {primary : String}
    {w : Option (TimeRange × Target)} :
    resolveWindow r c primary = .ok w ↔
      (c.timeRange = none ∧ w = none) ∨
        ∃ range t, c.timeRange = some range ∧ w = some (range, t) ∧
          windowTarget r primary c.timeField range = .ok t := by
  rw [resolveWindow]
  cases c.timeRange with
  | none => simp [eq_comm]
  | some range =>
    simp only [bind_eq_ok, Except.ok.injEq, reduceCtorEq, false_and, false_or, Option.some.injEq]
    constructor
    · rintro ⟨t, ht, rfl⟩
      exact ⟨range, t, rfl, rfl, ht⟩
    · rintro ⟨_, t, rfl, rfl, ht⟩
      exact ⟨t, ht, rfl⟩

/-! ## Whole reports -/

/-- How a report is resolved, step by step. -/
structure Resolution (r : Registry) (c : Config) (v : Resolved) : Prop where
  primary : resolvePrimary r c = .ok v.primary
  nonempty : c.selected.isEmpty = false
  selected : ∃ ps, placeAll r .selected SelectedField.ref noCheck 0 c.selected = .ok ps ∧
    v.selected = firstPlaced SelectedField.ref ps
  filters : placeAll r .filter Filter.ref checkFilter 0 c.filters = .ok v.filters
  sorting : ∃ ps, placeAll r .sort SortKey.ref noCheck 0 c.sorting = .ok ps ∧
    v.sorting = firstPlaced SortKey.ref ps
  groupBy : ∃ ps, placeAll r .groupBy (fun ref => ref) noCheck 0 c.groupBy = .ok ps ∧
    v.groupBy = firstPlaced (fun ref => ref) ps
  aggregations : checkSelected c.groupBy v.selected = .ok ()
  sortable : checkSorting c.groupBy v.selected v.sorting = .ok ()
  window : resolveWindow r c v.primary.id = .ok v.window

theorem resolve_eq_ok_iff {r : Registry} {c : Config} {v : Resolved} :
    resolve r c = .ok v ↔ Resolution r c v := by
  cases hempty : c.selected.isEmpty with
  | true =>
    constructor
    · intro h
      simp [resolve, hempty, bind_eq_ok] at h
    · intro h
      have := h.nonempty
      simp [hempty] at this
  | false =>
    simp only [resolve, hempty, bind_eq_ok, pure_eq_ok, Bool.false_eq_true, if_false]
    constructor
    · rintro ⟨primary, hp, selected, hs, filters, hf, sorting, ho, groupBy, hg, ⟨⟩, ha, ⟨⟩, hk,
        window, hw, rfl⟩
      exact ⟨hp, hempty, ⟨selected, hs, rfl⟩, hf, ⟨sorting, ho, rfl⟩, ⟨groupBy, hg, rfl⟩, ha, hk,
        hw⟩
    · intro h
      obtain ⟨selected, hs, hs'⟩ := h.selected
      obtain ⟨sorting, ho, ho'⟩ := h.sorting
      obtain ⟨groupBy, hg, hg'⟩ := h.groupBy
      refine ⟨v.primary, h.primary, selected, hs, v.filters, h.filters, sorting, ho, groupBy, hg,
        (), ?_, (), ?_, v.window, h.window, ?_⟩
      · rw [← hs']
        exact h.aggregations
      · rw [← hs', ← ho']
        exact h.sortable
      · rw [← hs', ← ho', ← hg']

namespace Resolution

variable {r : Registry} {c : Config} {v : Resolved}

theorem primary_entity (h : Resolution r c v) :
    ∃ id, c.primary? = some id ∧ r.entity? id = some v.primary :=
  resolvePrimary_eq_ok_iff.mp h.primary

theorem primary?_eq (h : Resolution r c v) : c.primary? = some v.primary.id := by
  obtain ⟨id, hid, hprimary⟩ := h.primary_entity
  rw [hid, (r.entity?_eq_some_iff.mp hprimary).2]

theorem filters_parts (h : Resolution r c v) : v.filters.map Placed.part = c.filters :=
  placeAll_parts h.filters

theorem filters_named (h : Resolution r c v) : ∀ p ∈ v.filters, Names r p.part.ref p.target :=
  fun p hp => (placeAll_placed h.filters p hp).1

theorem filters_sound (h : Resolution r c v) : ∀ p ∈ v.filters, operandProblem? p.part = none :=
  fun p hp => (checkFilter_eq_ok_iff.mp (placeAll_placed h.filters p hp).2).2

/-- What stays of a list of parts when repetitions are dropped is named by parts of the list. -/
theorem firstPlaced_named {α : Type} {place : Nat → Location} {ref : α → FieldRef}
    {check : Location → α → Field → Except CompileError Unit} {parts : List α}
    {ps : List (Placed α)} (hps : placeAll r place ref check 0 parts = .ok ps) :
    ∀ p ∈ firstPlaced ref ps, p.part ∈ parts ∧ Names r (ref p.part) p.target := by
  intro p hp
  have hmem : p ∈ ps := (Config.firstBy_sublist _ _ _).subset hp
  refine ⟨?_, (placeAll_placed hps p hmem).1⟩
  rw [← placeAll_parts hps]
  exact List.mem_map_of_mem hmem

theorem selected_named (h : Resolution r c v) :
    ∀ p ∈ v.selected, p.part ∈ c.selected ∧ Names r p.part.ref p.target := by
  obtain ⟨ps, hps, heq⟩ := h.selected
  rw [heq]
  exact firstPlaced_named hps

theorem sorting_named (h : Resolution r c v) :
    ∀ p ∈ v.sorting, p.part ∈ c.sorting ∧ Names r p.part.ref p.target := by
  obtain ⟨ps, hps, heq⟩ := h.sorting
  rw [heq]
  exact firstPlaced_named hps

theorem groupBy_named (h : Resolution r c v) :
    ∀ p ∈ v.groupBy, p.part ∈ c.groupBy ∧ Names r p.part p.target := by
  obtain ⟨ps, hps, heq⟩ := h.groupBy
  rw [heq]
  exact firstPlaced_named hps

/-- The window of a resolved report is the one that was asked for, on a field that it names. -/
theorem window_named (h : Resolution r c v) {range : TimeRange} {t : Target}
    (hw : v.window = some (range, t)) :
    ∃ asked, c.timeRange = some range ∧ c.timeField = some asked ∧
      Names r ⟨asked.owner v.primary.id, asked.field⟩ t := by
  rcases resolveWindow_eq_ok_iff.mp h.window with ⟨-, hnone⟩ | ⟨range', t', hrange, hsome, ht⟩
  · rw [hw] at hnone
    cases hnone
  · rw [hw] at hsome
    cases hsome
    obtain ⟨asked, hfield, hn, -, -⟩ := windowTarget_eq_ok_iff.mp ht
    exact ⟨asked, hrange, hfield, hn⟩

end Resolution

end Statement

end ReportSql
