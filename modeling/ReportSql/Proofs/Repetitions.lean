import ReportSql.Proofs.Violations

/-!
# Reports with repetitions

A report may name a field twice among its selected fields, its sort keys or its keys to group by.
Compiling drops what is repeated as it goes; `Config.dedup` drops it beforehand. Both ways end
alike: with the same statement, or with errors that differ at most in a position.
-/

namespace ReportSql

open ReportSql.Catalog
open ReportSql.Join (JoinEdge JoinPath)
open ReportSql.Report
open ReportSql.Time (TimeRange WindowBounds)

/-! ## The entities that a report mentions -/

namespace Report.Config

theorem distinctFrom_append (primary : String) (found xs ys : List String) :
    distinctFrom primary found (xs ++ ys) =
      distinctFrom primary (distinctFrom primary found xs) ys := by
  induction xs generalizing found with
  | nil => rfl
  | cons x rest ih =>
    rw [List.cons_append, distinctFrom, distinctFrom]
    split
    · exact ih found
    · exact ih (found ++ [x])

/-- A repeated key mentions no entity for the first time. -/
theorem distinctFrom_firstBy {α : Type} (key : α → FieldRef) (primary : String)
    {seen : List FieldRef} {found : List String}
    (hseen : ∀ k ∈ seen, k.entity = primary ∨ k.entity ∈ found) (l : List α) :
    distinctFrom primary found ((firstBy key seen l).map fun a => (key a).entity) =
      distinctFrom primary found (l.map fun a => (key a).entity) := by
  induction l generalizing seen found with
  | nil => rfl
  | cons a rest ih =>
    have hskip : ((key a).entity == primary || found.contains (key a).entity) = true ↔
        (key a).entity = primary ∨ (key a).entity ∈ found := by simp
    rw [firstBy, List.map_cons, distinctFrom]
    by_cases hmem : key a ∈ seen
    · rw [if_pos (List.contains_iff_mem.mpr hmem), if_pos (hskip.mpr (hseen _ hmem))]
      exact ih hseen
    · rw [if_neg (by simpa using hmem), List.map_cons, distinctFrom]
      split
      · rename_i hknown
        exact ih (List.forall_mem_cons.mpr ⟨hskip.mp hknown, hseen⟩)
      · refine ih (List.forall_mem_cons.mpr ⟨.inr ?_, fun k hk => (hseen k hk).imp_right ?_⟩)
        · exact List.mem_append_right _ (List.mem_singleton_self _)
        · exact List.mem_append_left _

/-- Without its repetitions a report refers to the same entities in the same order. -/
theorem referenced_dedup (c : Config) : c.dedup.referenced = c.referenced := by
  have hselected : ∀ p found, distinctFrom p found (c.dedup.selected.map SelectedField.entity) =
      distinctFrom p found (c.selected.map SelectedField.entity) :=
    fun p _ => distinctFrom_firstBy SelectedField.ref p (List.forall_mem_nil _) c.selected
  have hsorting : ∀ p found, distinctFrom p found (c.dedup.sorting.map SortKey.entity) =
      distinctFrom p found (c.sorting.map SortKey.entity) :=
    fun p _ => distinctFrom_firstBy SortKey.ref p (List.forall_mem_nil _) c.sorting
  have hgroupBy : ∀ p found, distinctFrom p found (c.dedup.groupBy.map FieldRef.entity) =
      distinctFrom p found (c.groupBy.map FieldRef.entity) :=
    fun p _ => distinctFrom_firstBy id p (List.forall_mem_nil _) c.groupBy
  rw [referenced, referenced, mentioned, mentioned]
  simp only [distinctFrom_append, hselected, hsorting, hgroupBy]
  rfl

end Report.Config

namespace Statement

/-! ## Computations that end alike -/

/-- The errors differ at most in the position within a section of the report. -/
structure CompileError.Same (e e' : CompileError) : Prop where
  kind : e.kindName = e'.kindName
  entity : e.entity? = e'.entity?
  field : e.field? = e'.field?
  detail : e.detail = e'.detail
  place : e.location.sectionName = e'.location.sectionName

theorem CompileError.Same.refl (e : CompileError) : e.Same e :=
  ⟨rfl, rfl, rfl, rfl, rfl⟩

section

variable {α β γ δ : Type}

/-- Both computations succeed, with results that are related, or both fail with the same error up
to a position. -/
inductive EndAlike (R : α → β → Prop) : Except CompileError α → Except CompileError β → Prop where
  | ok {a : α} {b : β} : R a b → EndAlike R (.ok a) (.ok b)
  | error {e e' : CompileError} : e.Same e' → EndAlike R (.error e) (.error e')

namespace EndAlike

variable {R : α → β → Prop} {S : γ → δ → Prop} {x : Except CompileError α}
  {y : Except CompileError β}

theorem refl {R : α → α → Prop} (hR : ∀ a, R a a) (x : Except CompileError α) : EndAlike R x x := by
  cases x with
  | ok a => exact .ok (hR a)
  | error e => exact .error (.refl e)

theorem imp {R' : α → β → Prop} (h : EndAlike R x y)
    (hR : ∀ a b, x = .ok a → y = .ok b → R a b → R' a b) : EndAlike R' x y := by
  cases h with
  | ok h => exact .ok (hR _ _ rfl rfl h)
  | error h => exact .error h

/-- Steps that go on alike after steps that end alike. -/
theorem bind (h : EndAlike R x y) {f : α → Except CompileError γ} {g : β → Except CompileError δ}
    (hfg : ∀ a b, x = .ok a → y = .ok b → R a b → EndAlike S (f a) (g b)) :
    EndAlike S (x >>= f) (y >>= g) := by
  cases h with
  | ok h => exact hfg _ _ rfl rfl h
  | error h => exact .error h

/-- A step on one side that only changes what the result looks like. -/
theorem bind_ok_left (h : EndAlike R x y) {f : α → γ} {S : γ → β → Prop}
    (hf : ∀ a b, R a b → S (f a) b) : EndAlike S (x >>= fun a => .ok (f a)) y := by
  cases h with
  | ok h => exact .ok (hf _ _ h)
  | error h => exact .error h

end EndAlike

end

/-! ## Places of first mentions -/

/-- In which section an entity is mentioned first is decided by the sections that mention it. -/
theorem sectionName_firstMention (c : Config) (entity : String) :
    (firstMention c entity).sectionName =
      if c.selected.any fun s => s.entity == entity then "selectedField"
      else if c.filters.any fun f => f.entity == entity then "filter"
      else if c.sorting.any fun s => s.entity == entity then "sort"
      else if c.groupBy.any fun key => key.entity == entity then "groupBy"
      else "timeField" := by
  simp only [← List.findIdx?_isSome, firstMention]
  cases c.selected.findIdx? fun s => s.entity == entity with
  | some i => rfl
  | none =>
    cases c.filters.findIdx? fun f => f.entity == entity with
    | some i => rfl
    | none =>
      cases c.sorting.findIdx? fun s => s.entity == entity with
      | some i => rfl
      | none => cases c.groupBy.findIdx? fun key => key.entity == entity <;> rfl

theorem sectionName_firstMention_dedup (c : Config) (entity : String) :
    (firstMention c entity).sectionName = (firstMention c.dedup entity).sectionName := by
  have hselected : (c.dedup.selected.any fun s => s.entity == entity) =
      c.selected.any fun s => s.entity == entity :=
    Config.any_firstBy SelectedField.ref (fun ref => ref.entity == entity) c.selected
  have hsorting : (c.dedup.sorting.any fun s => s.entity == entity) =
      c.sorting.any fun s => s.entity == entity :=
    Config.any_firstBy SortKey.ref (fun ref => ref.entity == entity) c.sorting
  have hgroupBy : (c.dedup.groupBy.any fun key => key.entity == entity) =
      c.groupBy.any fun key => key.entity == entity :=
    Config.any_firstBy id (fun ref => ref.entity == entity) c.groupBy
  rw [sectionName_firstMention, sectionName_firstMention, hselected, hsorting, hgroupBy]
  rfl

/-! ## Placed parts -/

section

variable {α : Type} {r : Registry} {place : Nat → Location} {ref : α → FieldRef}

/-- The parts agree, and so do the fields that they name; their positions may differ. -/
structure Placed.Same (p q : Placed α) : Prop where
  part : p.part = q.part
  target : p.target = q.target

theorem map_eq_of_same {β : Type} {ps qs : List (Placed α)} (h : List.Forall₂ Placed.Same ps qs)
    {f g : Placed α → β} (hf : ∀ p q, p.Same q → f p = g q) : ps.map f = qs.map g := by
  rw [← List.forall₂_eq_eq_eq, List.forall₂_map_left_iff, List.forall₂_map_right_iff]
  exact h.imp hf

theorem target_alike {place place' : Location} (hplace : place.sectionName = place'.sectionName)
    (ref : FieldRef) : EndAlike (· = ·) (target r place ref) (target r place' ref) := by
  rw [target, target]
  cases r.entity? ref.entity with
  | none => exact .error ⟨rfl, rfl, rfl, rfl, hplace⟩
  | some e =>
    cases hfield : e.field? ref.field with
    | none => simpa [hfield] using .error ⟨rfl, rfl, rfl, rfl, hplace⟩
    | some f => simpa [hfield] using .ok rfl

theorem placeAll_noCheck_cons (i : Nat) (part : α) (rest : List α) :
    placeAll r place ref noCheck i (part :: rest) =
      target r (place i) (ref part) >>= fun t =>
        placeAll r place ref noCheck (i + 1) rest >>= fun more => .ok (⟨i, part, t⟩ :: more) :=
  rfl

/-- Placing all parts and dropping repetitions then is placing those that are not repeated. What
has been seen names fields of the catalog, so that placing it again cannot fail. -/
theorem placeAll_firstBy (hplace : ∀ i j, (place i).sectionName = (place j).sectionName)
    {seen : List FieldRef} (hseen : ∀ k ∈ seen, ∃ t, Names r k t) (parts : List α) (i j : Nat) :
    EndAlike (fun ps qs =>
        List.Forall₂ Placed.Same (Config.firstBy (fun p => ref p.part) seen ps) qs)
      (placeAll r place ref noCheck i parts)
      (placeAll r place ref noCheck j (Config.firstBy ref seen parts)) := by
  induction parts generalizing seen i j with
  | nil => exact .ok .nil
  | cons part rest ih =>
    rw [Config.firstBy, placeAll_noCheck_cons]
    by_cases hmem : ref part ∈ seen
    · obtain ⟨t, ht⟩ := hseen _ hmem
      have hcontains : seen.contains (ref part) = true := List.contains_iff_mem.mpr hmem
      rw [if_pos hcontains, target_eq_ok_iff.mpr ht]
      refine (ih hseen (i + 1) j).bind_ok_left fun ps qs hpq => ?_
      rwa [Config.firstBy, if_pos hcontains]
    · have hcontains : ¬seen.contains (ref part) = true := by simpa using hmem
      rw [if_neg hcontains, placeAll_noCheck_cons]
      refine (target_alike (hplace i j) (ref part)).bind fun t _ ht _ heq => ?_
      subst heq
      have hnames : ∃ t, Names r (ref part) t := ⟨t, target_eq_ok_iff.mp ht⟩
      refine (ih (List.forall_mem_cons.mpr ⟨hnames, hseen⟩) (i + 1) (j + 1)).bind
        fun ps qs _ _ hpq => .ok ?_
      rw [Config.firstBy, if_neg hcontains]
      exact .cons ⟨rfl, rfl⟩ hpq

theorem placeAll_dedup (hplace : ∀ i j, (place i).sectionName = (place j).sectionName)
    (parts : List α) :
    EndAlike (fun ps qs => List.Forall₂ Placed.Same (firstPlaced ref ps) (firstPlaced ref qs))
      (placeAll r place ref noCheck 0 parts)
      (placeAll r place ref noCheck 0 (Config.firstBy ref [] parts)) := by
  refine (placeAll_firstBy hplace (by simp) parts 0 0).imp fun ps qs _ hqs h => ?_
  have hnodup : (qs.map fun q => ref q.part).Nodup := by
    have hparts := congrArg (List.map ref) (placeAll_parts hqs)
    rw [List.map_map] at hparts
    exact hparts ▸ (Config.nodup_firstBy ref [] parts).2
  rwa [firstPlaced, firstPlaced, Config.firstBy_eq_self_iff.mpr hnodup]

end

/-! ## Grouping -/

section

variable {keys : List FieldRef}

theorem contains_dedup (keys : List FieldRef) (ref : FieldRef) :
    (Config.firstBy id [] keys).contains ref = keys.contains ref := by
  rw [List.contains_eq_any_beq, List.contains_eq_any_beq]
  exact Config.any_firstBy id (ref == ·) keys

theorem isEmpty_dedup {α : Type} (key : α → FieldRef) (l : List α) :
    (Config.firstBy key [] l).isEmpty = l.isEmpty := by
  cases l <;> rfl

theorem aggregationProblem?_dedup {s s' : Placed SelectedField} (h : s.Same s') :
    aggregationProblem? keys s = aggregationProblem? (Config.firstBy id [] keys) s' := by
  simp only [aggregationProblem?, h.part, h.target, contains_dedup, isEmpty_dedup]

theorem checkSelected_dedup {ps qs : List (Placed SelectedField)}
    (h : List.Forall₂ Placed.Same ps qs) :
    EndAlike (· = ·) (checkSelected keys ps) (checkSelected (Config.firstBy id [] keys) qs) := by
  induction h with
  | nil => exact .ok rfl
  | cons hpq _ ih =>
    rw [checkSelected, checkSelected, aggregationProblem?_dedup hpq]
    split
    · exact .error ⟨rfl, by rw [hpq.part]; rfl, by rw [hpq.part]; rfl, by rw [hpq.part]; rfl, rfl⟩
    · exact ih

theorem isSortable_dedup {selected selected' : List (Placed SelectedField)}
    (h : List.Forall₂ Placed.Same selected selected') (ref : FieldRef) :
    isSortable keys selected ref = isSortable (Config.firstBy id [] keys) selected' ref := by
  have hany : (selected.any fun s => s.part.ref == ref && s.part.aggregation.isSome) =
      selected'.any fun s => s.part.ref == ref && s.part.aggregation.isSome := by
    have hparts := map_eq_of_same h fun _ _ hpq => hpq.part
    have hmap := congrArg (List.any · fun s => s.ref == ref && s.aggregation.isSome) hparts
    rwa [List.any_map, List.any_map] at hmap
  rw [isSortable, isSortable, contains_dedup, isEmpty_dedup, hany]

theorem checkSorting_dedup {selected selected' : List (Placed SelectedField)}
    (hselected : List.Forall₂ Placed.Same selected selected') {ps qs : List (Placed SortKey)}
    (h : List.Forall₂ Placed.Same ps qs) :
    EndAlike (· = ·) (checkSorting keys selected ps)
      (checkSorting (Config.firstBy id [] keys) selected' qs) := by
  induction h with
  | nil => exact .ok rfl
  | cons hpq _ ih =>
    rw [checkSorting, checkSorting, hpq.part, isSortable_dedup hselected]
    split
    · exact ih
    · exact .error ⟨rfl, rfl, rfl, rfl, rfl⟩

end

/-! ## Whole reports -/

/-- The resolved reports agree up to the positions of their parts. -/
structure Resolved.Same (v v' : Resolved) : Prop where
  primary : v.primary = v'.primary
  selected : List.Forall₂ Placed.Same v.selected v'.selected
  filters : v.filters = v'.filters
  sorting : List.Forall₂ Placed.Same v.sorting v'.sorting
  groupBy : List.Forall₂ Placed.Same v.groupBy v'.groupBy
  window : v.window = v'.window

theorem resolve_dedup (r : Registry) (c : Config) :
    EndAlike Resolved.Same (resolve r c) (resolve r c.dedup) := by
  have hempty : c.dedup.selected.isEmpty = c.selected.isEmpty := isEmpty_dedup _ c.selected
  rw [resolve, resolve, hempty]
  refine (EndAlike.refl (fun _ => rfl) (resolvePrimary r c)).bind fun primary _ _ _ h => ?_
  subst h
  cases c.selected.isEmpty with
  | true => exact .error (.refl _)
  | false =>
    simp only [Bool.false_eq_true, if_false]
    refine (placeAll_dedup (fun _ _ => rfl) c.selected).bind fun selected selected' _ _ hs => ?_
    refine (EndAlike.refl (fun _ => rfl) _).bind fun filters _ _ _ h => ?_
    subst h
    refine (placeAll_dedup (fun _ _ => rfl) c.sorting).bind fun sorting sorting' _ _ ho => ?_
    refine (placeAll_dedup (fun _ _ => rfl) c.groupBy).bind fun groupBy groupBy' _ _ hg => ?_
    refine (checkSelected_dedup hs).bind fun _ _ _ _ _ => ?_
    refine (checkSorting_dedup hs ho).bind fun _ _ _ _ _ => ?_
    refine (EndAlike.refl (fun _ => rfl) (resolveWindow r c primary.id)).bind fun _ _ _ _ h => ?_
    subst h
    exact .ok ⟨rfl, hs, rfl, ho, hg, rfl⟩

section

variable {r : Registry} {c c' : Config} {o : Options}

/-- What the report is read for in planning and joining is the entities that it refers to, and
where it mentions them first. -/
theorem planOf_alike (hreferenced : c.referenced = c'.referenced)
    (hmention : ∀ e, (firstMention c e).sectionName = (firstMention c' e).sectionName)
    (primary : String) : EndAlike (· = ·) (planOf r c primary) (planOf r c' primary) := by
  rw [planOf, planOf, hreferenced]
  cases r.graph.joinPlan primary c'.referenced with
  | ok plan => exact .ok rfl
  | error target => exact .error ⟨rfl, rfl, rfl, rfl, hmention target⟩

theorem joinsOf_alike
    (hmention : ∀ e, (firstMention c e).sectionName = (firstMention c' e).sectionName)
    (edges : List JoinEdge) : EndAlike (· = ·) (joinsOf r c edges) (joinsOf r c' edges) := by
  induction edges with
  | nil => exact .ok rfl
  | cons e rest ih =>
    have hjoin : EndAlike (· = ·) (joinOf r c e) (joinOf r c' e) := by
      rw [joinOf, joinOf]
      split
      · exact .ok rfl
      · exact .error ⟨rfl, rfl, rfl, rfl, hmention e.toEntity⟩
    refine hjoin.bind fun j _ _ _ h => ?_
    subst h
    refine ih.bind fun js _ _ _ h => .ok ?_
    rw [h]

/-- A statement is put together from its joins and the bounds of its time window. -/
theorem assemble_eq (r : Registry) (c : Config) (o : Options) (v : Resolved) (plan : JoinPath) :
    assemble r c o v plan = joinsOf r c plan.edges >>= fun joins =>
      resolveBounds o.now v.window >>= fun window => .ok (assembled c o v joins window plan) := by
  rw [assemble]
  congr 1
  funext joins
  congr 1
  funext window
  rw [conditions_empty]
  exact congrArg pure (by rw [foldl_filter _ _ rfl]; rfl)

theorem aggregation?_eq_parts (v : Resolved) (ref : FieldRef) :
    v.aggregation? ref =
      ((v.selected.map Placed.part).find? fun s => s.ref == ref && s.aggregation.isSome).bind
        SelectedField.aggregation := by
  rw [List.find?_map, Option.bind_map]
  rfl

theorem isKey_eq_parts (v : Resolved) (ref : FieldRef) :
    v.isKey ref = (v.groupBy.map Placed.part).any (· == ref) := by
  rw [List.any_map]
  rfl

theorem isGrouped_eq_parts (v : Resolved) :
    v.isGrouped = !(v.groupBy.map Placed.part).isEmpty := by
  rw [List.isEmpty_map]
  rfl

/-- How a report is sorted is read off the parts of the resolved report. -/
theorem sortExpr_same {v v' : Resolved} (h : v.Same v') (infer : Bool) (t : Target) :
    sortExpr infer v t = sortExpr infer v' t := by
  have hselected : v.selected.map Placed.part = v'.selected.map Placed.part :=
    map_eq_of_same h.selected fun _ _ hpq => hpq.part
  have hgroupBy : v.groupBy.map Placed.part = v'.groupBy.map Placed.part :=
    map_eq_of_same h.groupBy fun _ _ hpq => hpq.part
  simp only [sortExpr, aggregation?_eq_parts, isKey_eq_parts, isGrouped_eq_parts, hselected,
    hgroupBy]

/-- Positions do not show in a statement. -/
theorem assembled_same {v v' : Resolved} (h : v.Same v') (hlimit : c.limit = c'.limit) :
    assembled c o v = assembled c' o v' := by
  have hselect : v.selected.map (selectItem o.inferEncodings) =
      v'.selected.map (selectItem o.inferEncodings) :=
    map_eq_of_same h.selected fun p q hpq => by
      rw [selectItem, selectItem, selectedExpr, selectedExpr, hpq.part, hpq.target]
  have hcolumns : v.selected.map (expectedColumn o.inferEncodings) =
      v'.selected.map (expectedColumn o.inferEncodings) :=
    map_eq_of_same h.selected fun p q hpq => by
      rw [expectedColumn, expectedColumn, selectedUnit, selectedUnit, hpq.part, hpq.target]
  have hgroup : (v.groupBy.map fun key => key.target.valueExpr o.inferEncodings) =
      v'.groupBy.map fun key => key.target.valueExpr o.inferEncodings :=
    map_eq_of_same h.groupBy fun p q hpq => by rw [hpq.target]
  have horder : v.sorting.map (orderItem o.inferEncodings v) =
      v'.sorting.map (orderItem o.inferEncodings v') :=
    map_eq_of_same h.sorting fun p q hpq => by
      rw [orderItem, orderItem, hpq.part, hpq.target, sortExpr_same h]
  funext joins window plan
  rw [assembled, assembled, hselect, hcolumns, hgroup, horder, h.primary, h.filters, hlimit]

end

/-- **Dropping repetitions changes nothing**: a report and the report without its repetitions are
compiled to the same statement, or are both refused, with errors that differ at most in a
position. -/
theorem compile_dedup (r : Registry) (c : Config) (o : Options) :
    EndAlike (· = ·) (compile r c o) (compile r c.dedup o) := by
  have hmention := sectionName_firstMention_dedup c
  rw [compile_eq, compile_eq]
  refine (resolve_dedup r c).bind fun v v' _ _ hv => ?_
  rw [← hv.primary]
  refine (planOf_alike c.referenced_dedup.symm hmention v.primary.id).bind fun plan _ _ _ h => ?_
  subst h
  have hlimit : c.limit = c.dedup.limit := rfl
  rw [assemble_eq, assemble_eq, ← hv.window, assembled_same hv hlimit]
  refine (joinsOf_alike hmention plan.edges).bind fun joins _ _ _ h => ?_
  subst h
  exact .refl (fun _ => rfl) _

/-- Positions do differ: a field that is unknown moves up when a repetition before it is dropped. -/
example :
    let label : SelectedField := ⟨"objects", "object_label", none, none⟩
    let c : Config := { Config.new "objects" with
      selected := [label, { label with label := some "name" }, ⟨"objects", "ghost", none, none⟩] }
    compile .telematics c newYearOptions =
        .error (.schema (.selected 2) (.unknownField ⟨"objects", "ghost"⟩)) ∧
      compile .telematics c.dedup newYearOptions =
        .error (.schema (.selected 1) (.unknownField ⟨"objects", "ghost"⟩)) :=
  ⟨rfl, rfl⟩

end Statement

end ReportSql
