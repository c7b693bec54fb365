import ReportSql.Proofs.Occurrences
import ReportSql.Proofs.Reloading
import ReportSql.Report.Edit

/-!
# Editing reports

However a report is put together, no field is selected twice in it, sorted by twice or grouped by
twice: every edit keeps it so, and so does saving the report and reading it again. An edit that is
refused changes nothing, and a field that is deselected takes its sort key and its key to group by
with it, and no more.
-/

namespace ReportSql.Report

open ReportSql.Catalog (Aggregation)
open ReportSql.Time (TimeField TimeRange)

/-! ## Edits -/

/-- A step by which a report is put together. -/
inductive Edit where
  | addField (s : SelectedField)
  | removeField (r : FieldRef)
  | setAggregation (r : FieldRef) (a : Option Aggregation)
  | addFilter (f : Filter)
  | removeFilter (id : String)
  | addSort (r : FieldRef) (d : SortDirection)
  | removeSort (r : FieldRef)
  | setGroupBy (keys : List FieldRef)
  | setTimeWindow (range : TimeRange) (field : TimeField)
  | clearTimeWindow
  | setLimit (limit : Option Int64)
  | dedup
  /-- Saves the report and reads what was written. -/
  | reload

/-- What an edit answers. -/
inductive Answer where
  | done
  | flag (b : Bool)
  | id (s : String)
  | failed (e : ReportError)
  deriving DecidableEq

/-- What becomes of a report that was saved and read: if it cannot be read, it stays as it was. -/
def Config.afterReload (c : Config) : Except ReportError Config → Config × Answer
  | .ok c' => (c', .done)
  | .error e => (c, .failed e)

/-- The report after an edit and what the edit answers. -/
def Edit.run (c : Config) : Edit → Config × Answer
  | addField s => (c.addField s).map id .flag
  | removeField r => (c.removeField r).map id .flag
  | setAggregation r a => (c.setAggregation r a).map id .flag
  | addFilter f => (c.addFilter f).map id .id
  | removeFilter i => (c.removeFilter i).map id .flag
  | addSort r d => (c.addSort r d, .done)
  | removeSort r => (c.removeSort r).map id .flag
  | setGroupBy keys => (c.setGroupBy keys, .done)
  | setTimeWindow range field => (c.setTimeWindow range field, .done)
  | clearTimeWindow => (c.clearTimeWindow, .done)
  | setLimit limit => (c.setLimit limit, .done)
  | dedup => (c.dedup, .done)
  | reload => c.afterReload c.reloaded

namespace Config

/-- The report after some edits. -/
def edited (c : Config) (edits : List Edit) : Config :=
  edits.foldl (fun c e => (e.run c).1) c

/-! ## Repetitions -/

/-- No field is selected twice, sorted by twice or grouped by twice. -/
structure NoRepetitions (c : Config) : Prop where
  selected : (c.selected.map SelectedField.ref).Nodup
  sorting : (c.sorting.map SortKey.ref).Nodup
  groupBy : c.groupBy.Nodup

/-- Dropping repetitions changes exactly the reports that have some. -/
theorem dedup_eq_self_iff {c : Config} : c.dedup = c ↔ c.NoRepetitions := by
  constructor
  · intro h
    have hgroupBy := firstBy_eq_self_iff.mp (congrArg Config.groupBy h)
    rw [List.map_id] at hgroupBy
    exact ⟨firstBy_eq_self_iff.mp (congrArg Config.selected h),
      firstBy_eq_self_iff.mp (congrArg Config.sorting h), hgroupBy⟩
  · rintro ⟨hselected, hsorting, hgroupBy⟩
    rw [← List.map_id c.groupBy] at hgroupBy
    rw [dedup, firstBy_eq_self_iff.mpr hselected, firstBy_eq_self_iff.mpr hsorting,
      firstBy_eq_self_iff.mpr hgroupBy]

section

variable {α : Type} {key : α → FieldRef} {l : List α} {r : FieldRef}

theorem any_key_eq_iff : (l.any fun a => key a == r) = true ↔ r ∈ l.map key := by
  rw [List.any_eq_true, List.mem_map]
  simp only [beq_iff_eq]

theorem nodup_append_fresh {a : α} (h : (l.map key).Nodup)
    (ha : ¬(l.any fun b => key b == key a) = true) : ((l ++ [a]).map key).Nodup := by
  rw [any_key_eq_iff] at ha
  rw [List.map_append, List.map_singleton]
  exact List.nodup_append'.mpr ⟨h, List.nodup_singleton _, List.disjoint_singleton.mpr ha⟩

theorem nodup_filter_key (p : α → Bool) (h : (l.map key).Nodup) : ((l.filter p).map key).Nodup :=
  h.sublist (List.filter_sublist.map key)

/-- A change that keeps the key of an element keeps all keys. -/
theorem map_modifyFirst {f : α → α} (hf : ∀ a, key (f a) = key a) (p : α → Bool) (l : List α) :
    (modifyFirst p f l).map key = l.map key := by
  induction l with
  | nil => rfl
  | cons a rest ih =>
    rw [modifyFirst]
    split
    · rw [List.map_cons, List.map_cons, hf]
    · rw [List.map_cons, List.map_cons, ih]

theorem nodup_modifyFirst {f : α → α} (hf : ∀ a, key (f a) = key a) (p : α → Bool)
    (h : (l.map key).Nodup) : ((modifyFirst p f l).map key).Nodup := by
  rwa [map_modifyFirst hf]

theorem nodup_firstBy_id (keys : List FieldRef) : (firstBy id [] keys).Nodup := by
  have hkeys := (nodup_firstBy id [] keys).2
  rwa [List.map_id] at hkeys

end

/-! ## Single edits -/

namespace NoRepetitions

variable {c : Config}

theorem new (primary : String) : (Config.new primary).NoRepetitions :=
  ⟨List.nodup_nil, List.nodup_nil, List.nodup_nil⟩

theorem addField (h : c.NoRepetitions) (s : SelectedField) : (c.addField s).1.NoRepetitions := by
  rw [Config.addField]
  split
  · exact h
  · rename_i hfresh
    exact { h with selected := nodup_append_fresh h.selected hfresh }

theorem removeField (h : c.NoRepetitions) (r : FieldRef) :
    (c.removeField r).1.NoRepetitions := by
  rw [Config.removeField]
  split
  · exact ⟨nodup_filter_key _ h.selected, nodup_filter_key _ h.sorting, h.groupBy.filter _⟩
  · exact h

theorem setAggregation (h : c.NoRepetitions) (r : FieldRef) (a : Option Aggregation) :
    (c.setAggregation r a).1.NoRepetitions := by
  rw [Config.setAggregation]
  split
  · refine { h with selected := nodup_modifyFirst ?_ _ h.selected }
    exact fun _ => rfl
  · exact h

theorem removeFilter (h : c.NoRepetitions) (id : String) :
    (c.removeFilter id).1.NoRepetitions := by
  rw [Config.removeFilter]
  split
  · exact ⟨h.selected, h.sorting, h.groupBy⟩
  · exact h

theorem addSort (h : c.NoRepetitions) (r : FieldRef) (d : SortDirection) :
    (c.addSort r d).NoRepetitions := by
  rw [Config.addSort]
  split
  · refine { h with sorting := nodup_modifyFirst ?_ _ h.sorting }
    exact fun _ => rfl
  · rename_i hfresh
    exact { h with sorting := nodup_append_fresh h.sorting hfresh }

theorem removeSort (h : c.NoRepetitions) (r : FieldRef) : (c.removeSort r).1.NoRepetitions := by
  rw [Config.removeSort]
  split
  · exact { h with sorting := nodup_filter_key _ h.sorting }
  · exact h

theorem setGroupBy (h : c.NoRepetitions) (keys : List FieldRef) :
    (c.setGroupBy keys).NoRepetitions :=
  { h with groupBy := nodup_firstBy_id keys }

theorem dedup (c : Config) : c.dedup.NoRepetitions :=
  ⟨(nodup_firstBy _ [] c.selected).2, (nodup_firstBy _ [] c.sorting).2, nodup_firstBy_id c.groupBy⟩

theorem reload (h : c.NoRepetitions) : (c.afterReload c.reloaded).1.NoRepetitions := by
  cases hread : c.reloaded with
  | error e => exact h
  | ok c' =>
    obtain ⟨hselected, hsorting, hgroupBy, -⟩ := reloaded_ok hread
    exact ⟨hselected ▸ h.selected, hsorting ▸ h.sorting, hgroupBy ▸ h.groupBy⟩

/-- Every edit keeps a report free of repetitions. -/
theorem run (h : c.NoRepetitions) (e : Edit) : (e.run c).1.NoRepetitions := by
  cases e with
  | addField s => exact h.addField s
  | removeField r => exact h.removeField r
  | setAggregation r a => exact h.setAggregation r a
  | removeFilter i => exact h.removeFilter i
  | addSort r d => exact h.addSort r d
  | removeSort r => exact h.removeSort r
  | setGroupBy keys => exact h.setGroupBy keys
  | addFilter | setTimeWindow | clearTimeWindow | setLimit =>
    exact ⟨h.selected, h.sorting, h.groupBy⟩
  | dedup => exact dedup c
  | reload => exact h.reload

/-- A run of edits keeps a report free of repetitions. -/
theorem edited (h : c.NoRepetitions) (edits : List Edit) : (c.edited edits).NoRepetitions := by
  induction edits generalizing c with
  | nil => exact h
  | cons e edits ih => exact ih (h.run e)

end NoRepetitions

theorem edited_append_reload {c c' : Config} {edits : List Edit}
    (h : (c.edited edits).reloaded = .ok c') : c.edited (edits ++ [.reload]) = c' := by
  rw [edited, List.foldl_append]
  change ((c.edited edits).afterReload (c.edited edits).reloaded).1 = c'
  rw [h]
  rfl

/-! ## Refused edits -/

section

variable {c : Config}

theorem addField_refused {s : SelectedField} (h : (c.addField s).2 = false) :
    (c.addField s).1 = c := by
  rw [addField] at h ⊢
  split
  · rfl
  · rename_i hfresh
    rw [if_neg hfresh] at h
    cases h

/-- An edit that is done where there is something to do, and refused elsewhere. -/
theorem ite_refused {found : Prop} [Decidable found] {c' : Config}
    (h : (if found then (c', true) else (c, false)).2 = false) :
    (if found then (c', true) else (c, false)).1 = c := by
  split
  · rename_i hfound
    rw [if_pos hfound] at h
    cases h
  · rfl

/-- An edit that is refused leaves the report as it was. -/
theorem run_refused {e : Edit} (h : (e.run c).2 = .flag false) : (e.run c).1 = c := by
  cases e with
  | addField s => exact addField_refused (Answer.flag.inj h)
  | removeField r => exact ite_refused (Answer.flag.inj h)
  | setAggregation r a => exact ite_refused (Answer.flag.inj h)
  | removeFilter i => exact ite_refused (Answer.flag.inj h)
  | removeSort r => exact ite_refused (Answer.flag.inj h)
  | addFilter | addSort | setGroupBy | setTimeWindow | clearTimeWindow | setLimit | dedup => cases h
  | reload =>
    change (c.afterReload c.reloaded).2 = .flag false at h
    cases hread : c.reloaded with
    | ok c' | error e =>
      rw [hread] at h
      cases h

end

/-! ## Deselecting fields -/

/-- The second list is the first one without its only element of the key, and the other elements
stand in their order. -/
inductive Drops {α : Type} (key : α → FieldRef) (r : FieldRef) : List α → List α → Prop where
  | intro {before after : List α} {a : α} : key a = r → r ∉ (before ++ after).map key →
      Drops key r (before ++ a :: after) (before ++ after)

theorem filter_key_of_notMem {α : Type} (key : α → FieldRef) {r : FieldRef} {l : List α}
    (h : r ∉ l.map key) : (l.filter fun a => key a != r) = l := by
  rw [List.filter_eq_self]
  intro a ha
  exact bne_iff_ne.mpr fun heq => h (heq ▸ List.mem_map_of_mem ha)

theorem drops_filter {α : Type} {key : α → FieldRef} {r : FieldRef} {l : List α}
    (hnodup : (l.map key).Nodup) (hr : r ∈ l.map key) :
    Drops key r l (l.filter fun a => key a != r) := by
  obtain ⟨a, ha, rfl⟩ := List.mem_map.mp hr
  obtain ⟨before, after, rfl⟩ := List.append_of_mem ha
  have hothers : key a ∉ (before ++ after).map key := by
    rw [List.map_append, List.map_cons, List.nodup_middle, List.nodup_cons] at hnodup
    rw [List.map_append]
    exact hnodup.1
  have hfilter : ((before ++ a :: after).filter fun b => key b != key a) = before ++ after := by
    rw [List.filter_append, List.filter_cons_of_neg (by simp), ← List.filter_append]
    exact filter_key_of_notMem key hothers
  rw [hfilter]
  exact .intro rfl hothers

/-- The field is not selected any more, its sort key and its key to group by are gone if they were
there, and nothing else is changed. -/
structure Deselected (r : FieldRef) (c c' : Config) : Prop where
  selected : Drops SelectedField.ref r c.selected c'.selected
  sorting : if r ∈ c.sorting.map SortKey.ref then Drops SortKey.ref r c.sorting c'.sorting
    else c'.sorting = c.sorting
  groupBy : if r ∈ c.groupBy then Drops id r c.groupBy c'.groupBy else c'.groupBy = c.groupBy
  others : c' = { c with selected := c'.selected, sorting := c'.sorting, groupBy := c'.groupBy }

theorem NoRepetitions.deselected {c : Config} (h : c.NoRepetitions) {r : FieldRef}
    (hr : (c.removeField r).2 = true) : Deselected r c (c.removeField r).1 := by
  rw [Config.removeField] at hr ⊢
  split at hr
  · rename_i hselected
    rw [if_pos hselected]
    refine ⟨drops_filter h.selected (any_key_eq_iff.mp hselected), ?_, ?_, rfl⟩
    · split
      · rename_i hsort
        exact drops_filter h.sorting hsort
      · rename_i hsort
        exact filter_key_of_notMem SortKey.ref hsort
    · have hgroupBy := h.groupBy
      rw [← List.map_id c.groupBy] at hgroupBy
      split
      · rename_i hgroup
        exact drops_filter hgroupBy (by simpa using hgroup)
      · rename_i hgroup
        exact filter_key_of_notMem id (by simpa using hgroup)
  · cases hr

/-! ## Runs of edits -/

/-- **Editing keeps reports free of repetitions.** Whatever edits have been made of a new report, no
field is selected twice, sorted by twice or grouped by twice, so that `dedup` changes nothing. An
edit that is refused leaves the report as it was, and deselecting a field takes the field, its sort
key and its key to group by out of the report and changes nothing else. -/
theorem edited_noRepetitions (primary : String) (edits : List Edit) :
    let c := (Config.new primary).edited edits
    c.NoRepetitions ∧ c.dedup = c
      ∧ (∀ e : Edit, (e.run c).2 = .flag false → (e.run c).1 = c)
      ∧ ∀ r, (c.removeField r).2 = true → Deselected r c (c.removeField r).1 := by
  intro c
  have h : c.NoRepetitions := (NoRepetitions.new primary).edited edits
  exact ⟨h, dedup_eq_self_iff.mpr h, fun e he => run_refused he, fun r hr => h.deselected hr⟩

/-- Objects by id and by name, put together with some repetitions. -/
def objectEdits : List Edit :=
  [.addField ⟨"objects", "object_id", none, none⟩, .addField ⟨"objects", "name", none, none⟩,
    .addField ⟨"objects", "name", some "again", none⟩, .addSort ⟨"objects", "name"⟩ .asc,
    .addSort ⟨"objects", "name"⟩ .desc,
    .setGroupBy [⟨"objects", "name"⟩, ⟨"objects", "object_id"⟩, ⟨"objects", "name"⟩]]

theorem objectEdits_reloaded :
    ((Config.new "objects").edited objectEdits).reloaded
      = .ok ((Config.new "objects").edited objectEdits) := by
  have hoperands : OperandsInOrder ((Config.new "objects").edited objectEdits).filters := nofun
  have hfield : TimeFieldRead ((Config.new "objects").edited objectEdits).timeField := nofun
  have hback : (Saved.ofConfig ((Config.new "objects").edited objectEdits)).toValue.ComesBackFrom
      (Saved.ofConfig ((Config.new "objects").edited objectEdits)).text := by
    rw [Json.Value.ComesBackFrom, Saved.text, Json.Value.prettyText, Json.Value.ofText?_ofList]
    decide +kernel
  exact ofText_saved hoperands hfield hback

theorem objectEdits_noRepetitions :
    let c := (Config.new "objects").edited (objectEdits ++ [.reload])
    c.dedup = c
      ∧ ((Edit.addField ⟨"objects", "name", none, none⟩).run c).1 = c
      ∧ Deselected ⟨"objects", "name"⟩ c (c.removeField ⟨"objects", "name"⟩).1 := by
  intro c
  have hc : c = (Config.new "objects").edited objectEdits :=
    edited_append_reload objectEdits_reloaded
  have hanswer : ((Edit.addField ⟨"objects", "name", none, none⟩).run c).2 = .flag false := by
    rw [hc]
    decide +kernel
  have hremoved : (c.removeField ⟨"objects", "name"⟩).2 = true := by
    rw [hc]
    decide +kernel
  obtain ⟨-, hdedup, hrefused, hdeselected⟩ :=
    edited_noRepetitions "objects" (objectEdits ++ [.reload])
  exact ⟨hdedup, hrefused _ hanswer, hdeselected _ hremoved⟩

end Config

end ReportSql.Report
