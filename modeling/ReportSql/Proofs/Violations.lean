import ReportSql.Proofs.Faults
import ReportSql.Proofs.Scope
import ReportSql.Proofs.Union

/-!
# Violations

The rules of resolving a report are followed by two more: all entities that it mentions can be
joined to the primary one, and its time window has bounds. `Rule.inOrder` lists the rules as they
are checked, and `Rule.violations` what breaks each of them. `compile_reports` says that a report
that breaks no rule is compiled, and that otherwise the first violation is reported.
-/

namespace ReportSql

namespace Report.Config

/-- The first element with a property that the primary entity does not have is the same whether or
not repetitions and the primary entity are dropped. -/
theorem find?_distinctFrom {primary : String} {p : String → Bool} (hp : p primary = false)
    (found l : List String) :
    (distinctFrom primary found l).find? p = (found ++ l).find? p := by
  induction l generalizing found with
  | nil => rw [distinctFrom, List.append_nil]
  | cons e rest ih =>
    rw [distinctFrom]
    split
    · rename_i hdropped
      rw [ih, List.find?_append, List.find?_append, List.find?_cons]
      cases he : p e with
      | false => rfl
      | true =>
        have hfound : e ∈ found := by
          rcases (Bool.or_eq_true ..).mp hdropped with heq | hmem
          · rw [eq_of_beq heq, hp] at he
            cases he
          · exact List.contains_iff_mem.mp hmem
        have hsome : (found.find? p).isSome = true := List.find?_isSome.mpr ⟨e, hfound, he⟩
        rw [Option.or_of_isSome hsome, Option.or_of_isSome hsome]
    · rw [ih, List.append_assoc, List.singleton_append]

theorem find?_referenced {c : Config} {primary : String} (h : c.primary? = some primary)
    {p : String → Bool} (hp : p primary = false) : c.referenced.find? p = c.mentioned.find? p := by
  rw [referenced, h, Option.getD_some, find?_distinctFrom hp, List.nil_append]

end Report.Config

namespace Statement

open ReportSql.Catalog
open ReportSql.Join (Graph JoinPath Memo Plan.unreachable)
open ReportSql.Report

/-! ## Mentions -/

section

variable {α : Type}

/-- The entities that the elements of a list mention, with the places of the elements. -/
def mentionsOf (place : Nat → Location) (entity : α → String) (parts : List α) :
    List (Location × String) :=
  parts.zipIdx.map fun p => (place p.2, entity p.1)

theorem entities_mentionsOf (place : Nat → Location) (entity : α → String) (parts : List α) :
    (mentionsOf place entity parts).map Prod.snd = parts.map entity := by
  have hfst : (parts.zipIdx.map Prod.fst).map entity = parts.map entity := by
    rw [List.zipIdx_map_fst]
  rw [← hfst, mentionsOf, List.map_map, List.map_map]
  rfl

/-- The first mention of an entity in a list is where the list is searched for the entity. -/
theorem find?_mentionsOf (place : Nat → Location) (entity : α → String) (parts : List α)
    (x : String) :
    (mentionsOf place entity parts).find? (fun m => m.2 == x) =
      (parts.findIdx? fun part => entity part == x).map fun i => (place i, x) := by
  have hfrom : ∀ n, ((parts.zipIdx n).map fun p => (place p.2, entity p.1)).find?
      (fun m => m.2 == x) =
        (parts.findIdx? fun part => entity part == x).map fun i => (place (i + n), x) := by
    induction parts with
    | nil => exact fun _ => rfl
    | cons part rest ih =>
      intro n
      rw [List.zipIdx_cons, List.map_cons, List.find?_cons, List.findIdx?_cons]
      cases hx : entity part == x with
      | true => simp [eq_of_beq hx]
      | false => simp [ih, Nat.add_comm, Nat.add_left_comm, Function.comp_def]
  exact hfrom 0

end

/-- The entities that a report mentions, with the places: the selected fields, the filters, the sort
keys, the keys to group by, and the time field while there is a window. -/
def mentions (c : Config) : List (Location × String) :=
  mentionsOf .selected SelectedField.entity c.selected
    ++ mentionsOf .filter Filter.entity c.filters
    ++ mentionsOf .sort SortKey.entity c.sorting
    ++ mentionsOf .groupBy FieldRef.entity c.groupBy
    ++ c.windowEntity.toList.map fun entity => (.timeField, entity)

section

variable {r : Registry} {c : Config} {o : Options} {v : Resolved}

theorem entities_mentions (c : Config) : (mentions c).map Prod.snd = c.mentioned := by
  simp only [mentions, List.map_append, entities_mentionsOf, Config.mentioned, List.map_map]
  congr 1
  exact List.map_id _

/-- An entity that is mentioned is mentioned first where it is searched for. -/
theorem find?_mentions {x : String} (hx : x ∈ c.mentioned) :
    (mentions c).find? (fun m => m.2 == x) = some (firstMention c x, x) := by
  simp only [mentions, List.find?_append, find?_mentionsOf, firstMention]
  cases hselected : c.selected.findIdx? (fun s => s.entity == x) with
  | some i => rfl
  | none =>
    cases hfilters : c.filters.findIdx? (fun f => f.entity == x) with
    | some i => rfl
    | none =>
      cases hsorting : c.sorting.findIdx? (fun s => s.entity == x) with
      | some i => rfl
      | none =>
        cases hgroup : c.groupBy.findIdx? (fun key => key.entity == x) with
        | some i => rfl
        | none =>
          simp only [List.findIdx?_eq_none_iff, beq_eq_false_iff_ne] at *
          -- what no list mentions is mentioned by the time field
          have hwindow : c.windowEntity = some x := by
            rcases Config.mem_mentioned_iff.mp hx with ⟨s, hs, he⟩ | ⟨f, hf, he⟩ | ⟨s, hs, he⟩ |
              ⟨key, hkey, he⟩ | hwindow
            · exact absurd he (hselected s hs)
            · exact absurd he (hfilters f hf)
            · exact absurd he (hsorting s hs)
            · exact absurd he (hgroup key hkey)
            · exact hwindow
          simp [hwindow]

/-- The first mention of an entity with a property is the first mention of this entity. -/
theorem find?_mentions_of_entity {p : String → Bool} {x : String}
    (h : c.mentioned.find? p = some x) :
    (mentions c).find? (fun m => p m.2) = some (firstMention c x, x) := by
  rw [← entities_mentions, List.find?_map] at h
  obtain ⟨⟨place, x'⟩, hfind, rfl⟩ := Option.map_eq_some_iff.mp h
  have hx : x' ∈ c.mentioned := by
    rw [← entities_mentions]
    exact List.mem_map_of_mem (List.mem_of_find?_eq_some hfind)
  obtain ⟨hp, before, after, heq, hbefore⟩ := List.find?_eq_some_iff_append.mp hfind
  have hfirst : (mentions c).find? (fun m => m.2 == x') = some (place, x') := by
    refine List.find?_eq_some_iff_append.mpr ⟨beq_self_eq_true x', before, after, heq, ?_⟩
    -- the entity has the property, so that no mention before it can be one of it
    intro m hm
    have hp : p x' = true := hp
    have hm : p m.2 = false := by simpa using hbefore m hm
    refine (Bool.not_eq_true' _).mpr (beq_eq_false_iff_ne.mpr fun hsame => ?_)
    rw [hsame, hp] at hm
    cases hm
  have hplace := (find?_mentions hx).symm.trans hfirst
  rw [hplace]
  exact hfind

/-! ## Rules -/

/-- All entities that a report mentions can be joined to the primary one. -/
def joinFaults (r : Registry) (c : Config) : List CompileError :=
  match c.primary? with
  | none => []
  | some primary =>
    ((mentions c).filter fun m => Plan.unreachable r.graph primary m.2).map fun m =>
      .join m.1 primary m.2

/-- The time window has bounds as seen from the moment of compiling. -/
def boundsFaults (c : Config) (o : Options) : List CompileError :=
  match c.timeRange, c.timeField with
  | some range, some asked =>
    match range.resolve o.now with
    | .ok _ => []
    | .error cause => [.schema .timeRange (.window (windowRef c asked) cause)]
  | _, _ => []

/-- The rules for reports. -/
inductive Rule where
  | primaryEntity
  | selectedFields
  | filters
  | sortReferences
  | groupReferences
  | aggregations
  | groupedSorting
  | timeWindow
  | reachability
  | windowBounds

namespace Rule

/-- The order in which reports are checked against the rules. -/
def inOrder : List Rule :=
  [primaryEntity, selectedFields, filters, sortReferences, groupReferences, aggregations,
    groupedSorting, timeWindow, reachability, windowBounds]

/-- What in a report breaks the rule, in the order of its parts. -/
def violations (r : Registry) (c : Config) (o : Options) : Rule → List CompileError
  | primaryEntity => primaryFaults r c
  | selectedFields =>
    emptinessFaults c ++ partFaults r .selected SelectedField.ref (fun _ _ => []) c.selected
  | filters => partFaults r .filter Filter.ref (filterFaults r) c.filters
  | sortReferences => partFaults r .sort SortKey.ref (fun _ _ => []) c.sorting
  | groupReferences => partFaults r .groupBy (fun ref => ref) (fun _ _ => []) c.groupBy
  | aggregations => (Config.firsts SelectedField.ref c.selected).flatMap fun p =>
      aggregationFaults r c.groupBy p.1 p.2
  | groupedSorting => (Config.firsts SortKey.ref c.sorting).flatMap fun p =>
      sortingFaults c p.1 p.2
  | timeWindow => windowFaults r c
  | reachability => joinFaults r c
  | windowBounds => boundsFaults c o

theorem flatMap_violations (r : Registry) (c : Config) (o : Options) :
    inOrder.flatMap (violations r c o) = faults r c ++ (joinFaults r c ++ boundsFaults c o) := by
  simp [inOrder, violations, faults]

end Rule

/-! ## The first violation -/

/-- The plan of a report, or the first entity that it cannot join. -/
def planOf (r : Registry) (c : Config) (primary : String) : Except CompileError JoinPath :=
  (r.graph.joinPlan primary c.referenced).mapError fun target =>
    .join (firstMention c target) primary target

/-- A report is resolved, then its joins are planned, then its statement is assembled. -/
theorem compile_eq (r : Registry) (c : Config) (o : Options) :
    compile r c o = resolve r c >>= fun v => planOf r c v.primary.id >>= assemble r c o v := by
  rw [compile, compileWith]
  cases resolve r c with
  | error e => rfl
  | ok v =>
    rcases hplan : Memo.empty.joinPlan r.graph v.primary.id c.referenced with ⟨plan, m⟩
    have hplanned : r.graph.joinPlan v.primary.id c.referenced = plan := by
      rw [Graph.joinPlan, hplan]
    show _ = planOf r c v.primary.id >>= assemble r c o v
    rw [planOf, hplanned]
    cases plan with
    | error target => simp only [hplan]; rfl
    | ok plan => simp only [hplan]; rfl

theorem planOf_reports {primary : String} (hp : c.primary? = some primary) :
    Reports (planOf r c primary) (joinFaults r c) := by
  have hg : r.graph.Closed := closed_ofEntities r.entities
  have hroot : Plan.unreachable r.graph primary primary = false := by simp [Plan.unreachable]
  have hfind := Config.find?_referenced hp hroot
  rw [joinFaults, hp, planOf]
  cases hplan : r.graph.joinPlan primary c.referenced with
  | ok plan =>
    have hreached : c.mentioned.find? (Plan.unreachable r.graph primary) = none := by
      rw [← hfind]
      refine Option.eq_none_iff_forall_ne_some.mpr fun target hmissed => ?_
      rw [(Graph.joinPlan_eq_error_iff hg).mpr hmissed] at hplan
      cases hplan
    show List.map _ _ = []
    rw [List.map_eq_nil_iff, List.filter_eq_nil_iff]
    intro m hm
    refine List.find?_eq_none.mp hreached m.2 ?_
    rw [← entities_mentions]
    exact List.mem_map_of_mem hm
  | error target =>
    have hmissed := (Graph.joinPlan_eq_error_iff hg).mp hplan
    rw [hfind] at hmissed
    show (List.map _ _).head? = _
    rw [List.head?_map, List.head?_filter, find?_mentions_of_entity hmissed, Option.map_some]

/-- Only the bounds of the time window are still in question when the joins are planned. -/
theorem assemble_reports (hv : Resolution r c v) {plan : JoinPath}
    (hplan : r.graph.joinPlan v.primary.id c.referenced = .ok plan) :
    Reports (assemble r c o v plan) (boundsFaults c o) := by
  have hdeclared : ∀ e ∈ plan.edges, DeclaredHop r e := by
    intro e he
    exact declaredHop_of_mem ((Graph.joinPlan_grown hplan).1.mem_edges e he)
  obtain ⟨joins, hjoins⟩ := exists_joinsOf c hdeclared
  have hbounds : Reports (resolveBounds o.now v.window) (boundsFaults c o) := by
    rcases resolveWindow_eq_ok_iff.mp hv.window with ⟨hrange, hw⟩ | ⟨range, t, hrange, hw, -⟩
    · rw [hw, boundsFaults, hrange]
      exact .ok none
    · obtain ⟨asked, -, hasked, hn⟩ := hv.window_named hw
      have href : t.ref = windowRef c asked := by
        rw [hn.ref_eq, windowRef, hv.primary?_eq, Option.getD_some]
      simp only [hw, resolveBounds, boundsFaults, hrange, hasked, href]
      cases range.resolve o.now with
      | ok bounds => exact .ok _
      | error cause => exact .error _ []
  rw [assemble, hjoins]
  exact hbounds.bind_ok _

theorem planOf_eq_ok_iff {primary : String} {plan : JoinPath} :
    planOf r c primary = .ok plan ↔ r.graph.joinPlan primary c.referenced = .ok plan := by
  rw [planOf]
  cases r.graph.joinPlan primary c.referenced <;> simp [Except.mapError]

/-- **The first violation is reported**: a report is compiled if it breaks no rule, and otherwise
the error is the first violation of the first rule that it breaks. -/
theorem compile_reports (r : Registry) (c : Config) (o : Options) :
    Reports (compile r c o) (Rule.inOrder.flatMap (Rule.violations r c o)) := by
  rw [compile_eq, Rule.flatMap_violations]
  refine (resolve_reports r c).bind fun v hresolved => ?_
  have hv : Resolution r c v := resolve_eq_ok_iff.mp hresolved
  refine (planOf_reports hv.primary?_eq).bind fun plan hplan => ?_
  exact assemble_reports hv (planOf_eq_ok_iff.mp hplan)

end

end Statement

end ReportSql
