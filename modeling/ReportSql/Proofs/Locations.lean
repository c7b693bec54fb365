import ReportSql.Proofs.Rules
import ReportSql.Proofs.Violations

/-!
# Where a report goes wrong

An error is placed at the part of the report that it is about, as the caller has written it: the
positions are those of the lists before repetitions are dropped. `Blames` lists the shapes that the
errors have, and `Missed` says what an error about a join is about.
-/

namespace ReportSql

namespace Catalog

open ReportSql.Join (Graph JoinEdge Plan.unreachable)

/-- An entity is out of reach of another one if no relationships lead from there to it. -/
theorem unreachable_iff {entities : List Entity} {start target : String}
    (hstart : start ∈ entities.map Entity.id) (htarget : target ∈ entities.map Entity.id) :
    Plan.unreachable (Graph.ofEntities entities) start target = true ↔
      ∀ hops, ¬Chain entities start hops target := by
  rw [Plan.unreachable, decide_eq_true_eq]
  constructor
  · rintro ⟨-, hnone⟩ hops hchain
    obtain ⟨p, hp, -⟩ := Graph.path?_of_walk (Graph.places_idxOf _)
      (contains_ofEntities.mpr hstart) (contains_ofEntities.mpr htarget) (hchain.walk htarget).2
    rw [hnone] at hp
    cases hp
  · intro hnone
    refine ⟨?_, Option.eq_none_iff_forall_ne_some.mpr fun p hp => ?_⟩
    · rintro rfl
      exact hnone [] (.stay _)
    · exact hnone p.edges (.of_walk (Graph.walk_of_path? hp))

end Catalog

namespace Statement

open ReportSql.Catalog
open ReportSql.Join (Graph Plan.unreachable)
open ReportSql.Report

section

variable {r : Registry} {c : Config} {o : Options} {v : Resolved}

/-! ## The shape of errors -/

/-- The field that the element of a list at the given place names. -/
def elementAt? (c : Config) : Location → Option FieldRef
  | .selected i => c.selected[i]?.map SelectedField.ref
  | .filter i => c.filters[i]?.map Filter.ref
  | .sort i => c.sorting[i]?.map SortKey.ref
  | .groupBy i => c.groupBy[i]?
  | .primaryEntity | .timeField | .timeRange => none

/-- The errors that there can be besides those about joins. -/
inductive Blames (c : Config) : CompileError → Prop where
  /-- Nothing is selected. -/
  | empty : c.selected = [] → Blames c (.schema (.selected 0) .nothingSelected)
  /-- A part of the report that is not in a list. -/
  | single {place : Location} {problem : SchemaProblem} : place.index? = none →
      Blames c (.schema place problem)
  | schema {place : Location} {problem : SchemaProblem} {ref : FieldRef} :
      elementAt? c place = some ref → problem.entity? = some ref.entity →
      problem.field? = some ref.field → Blames c (.schema place problem)
  | type {place : Location} {ref : FieldRef} {problem : TypeProblem} :
      elementAt? c place = some ref → Blames c (.type place ref problem)
  | aggregation {place : Location} {ref : FieldRef} {problem : AggregationProblem} :
      elementAt? c place = some ref → Blames c (.aggregation place ref problem)

theorem mem_refFaults {place : Location} {ref : FieldRef} {e : CompileError}
    (h : e ∈ refFaults r place ref) :
    e = .schema place (.unknownEntity ref) ∨ e = .schema place (.unknownField ref) := by
  rw [refFaults] at h
  split at h
  · exact .inl (List.mem_singleton.mp h)
  · split at h
    · exact .inr (List.mem_singleton.mp h)
    · cases h

namespace Blames

variable {e : CompileError}

theorem of_primaryFaults (h : e ∈ primaryFaults r c) : Blames c e := by
  rw [primaryFaults] at h
  split at h
  · obtain rfl := List.mem_singleton.mp h
    exact .single rfl
  · split at h
    · obtain rfl := List.mem_singleton.mp h
      exact .single rfl
    · cases h

theorem of_emptinessFaults (h : e ∈ emptinessFaults c) : Blames c e := by
  rw [emptinessFaults] at h
  split at h
  · rename_i hempty
    obtain rfl := List.mem_singleton.mp h
    exact .empty (List.isEmpty_iff.mp hempty)
  · cases h

/-- What is found in the parts of a list is about the parts. -/
theorem of_partFaults {α : Type} {place : Nat → Location} {ref : α → FieldRef}
    {more : Location → α → List CompileError} {parts : List α}
    (hplace : ∀ i, elementAt? c (place i) = parts[i]?.map ref)
    (hmore : ∀ i part, elementAt? c (place i) = some (ref part) → e ∈ more (place i) part →
      Blames c e)
    (h : e ∈ partFaults r place ref more parts) : Blames c e := by
  obtain ⟨⟨part, i⟩, hpart, he⟩ := List.mem_flatMap.mp h
  have hi : elementAt? c (place i) = some (ref part) := by
    rw [hplace, List.mk_mem_zipIdx_iff_getElem?.mp hpart, Option.map_some]
  rcases List.mem_append.mp he with he | he
  · rcases mem_refFaults he with rfl | rfl <;> exact .schema hi rfl rfl
  · exact hmore i part hi he

theorem of_refsFaults {α : Type} {place : Nat → Location} {ref : α → FieldRef} {parts : List α}
    (hplace : ∀ i, elementAt? c (place i) = parts[i]?.map ref)
    (h : e ∈ partFaults r place ref (fun _ _ => []) parts) : Blames c e :=
  of_partFaults hplace (fun _ _ _ he => absurd he List.not_mem_nil) h

theorem of_filterFaults {place : Location} {f : Filter}
    (hplace : elementAt? c place = some f.ref) (h : e ∈ filterFaults r place f) : Blames c e := by
  rcases List.mem_append.mp h with h | h
  · split at h
    · split at h
      · cases h
      · obtain rfl := List.mem_singleton.mp h
        exact .type hplace
    · cases h
  · obtain ⟨problem, -, rfl⟩ := List.mem_map.mp h
    exact .type hplace

theorem of_aggregationFaults {s : SelectedField} {i : Nat} (hi : c.selected[i]? = some s)
    (h : e ∈ aggregationFaults r c.groupBy s i) : Blames c e := by
  have hplace : elementAt? c (.selected i) = some s.ref := by
    rw [elementAt?, hi, Option.map_some]
  have hproblem : ∃ problem, e = .aggregation (.selected i) s.ref problem := by
    simp only [aggregationFaults] at h
    grind
  obtain ⟨problem, rfl⟩ := hproblem
  exact .aggregation hplace

theorem of_sortingFaults {s : SortKey} {i : Nat} (hi : c.sorting[i]? = some s)
    (h : e ∈ sortingFaults c s i) : Blames c e := by
  have hplace : elementAt? c (.sort i) = some s.ref := by
    rw [elementAt?, hi, Option.map_some]
  rw [sortingFaults] at h
  split at h
  · cases h
  · obtain rfl := List.mem_singleton.mp h
    exact .aggregation hplace

theorem of_temporalFaults {asked : Time.TimeField} {ref : FieldRef}
    (h : e ∈ temporalFaults r asked ref) : Blames c e := by
  rw [temporalFaults] at h
  split at h
  · split at h
    · cases h
    · obtain rfl := List.mem_singleton.mp h
      exact .single rfl
  · cases h

theorem of_windowFaults (h : e ∈ windowFaults r c) : Blames c e := by
  rw [windowFaults] at h
  split at h
  · cases h
  · obtain rfl := List.mem_singleton.mp h
    exact .single rfl
  · simp only [List.mem_append, List.mem_map] at h
    rcases h with h | h | ⟨cause, -, rfl⟩
    · rcases mem_refFaults h with rfl | rfl <;> exact .single rfl
    · exact of_temporalFaults h
    · exact .single rfl

theorem of_boundsFaults (h : e ∈ boundsFaults c o) : Blames c e := by
  rw [boundsFaults] at h
  split at h
  · split at h
    · cases h
    · obtain rfl := List.mem_singleton.mp h
      exact .single rfl
  · cases h

/-- The errors of resolving a report. -/
theorem of_faults (h : e ∈ faults r c) : Blames c e := by
  simp only [faults, List.mem_flatten, List.mem_cons, List.not_mem_nil, or_false] at h
  obtain ⟨l, hl, he⟩ := h
  rcases hl with rfl | rfl | rfl | rfl | rfl | rfl | rfl | rfl | rfl
  · exact of_primaryFaults he
  · exact of_emptinessFaults he
  · exact of_refsFaults (fun _ => rfl) he
  · exact of_partFaults (fun _ => rfl) (fun _ _ => of_filterFaults) he
  · exact of_refsFaults (fun _ => rfl) he
  · exact of_refsFaults (fun i => by simp [elementAt?]) he
  · obtain ⟨⟨s, i⟩, hs, he⟩ := List.mem_flatMap.mp he
    exact of_aggregationFaults (Config.mem_firsts.mp hs).1 he
  · obtain ⟨⟨s, i⟩, hs, he⟩ := List.mem_flatMap.mp he
    exact of_sortingFaults (Config.mem_firsts.mp hs).1 he
  · exact of_windowFaults he

end Blames

/-! ## Joins -/

theorem elementAt?_of_mem_mentionsOf {α : Type} {place : Nat → Location} {entity : α → String}
    {parts : List α} (ref : α → FieldRef)
    (hplace : ∀ i, elementAt? c (place i) = parts[i]?.map ref)
    (hentity : ∀ part, (ref part).entity = entity part) {m : Location × String}
    (h : m ∈ mentionsOf place entity parts) :
    ∃ ref, elementAt? c m.1 = some ref ∧ ref.entity = m.2 := by
  obtain ⟨⟨part, i⟩, hpart, rfl⟩ := List.mem_map.mp h
  refine ⟨ref part, ?_, hentity part⟩
  rw [hplace, List.mk_mem_zipIdx_iff_getElem?.mp hpart, Option.map_some]

/-- The element of a list that mentions an entity names it. -/
theorem elementAt?_of_mem_mentions {m : Location × String} (h : m ∈ mentions c) {i : Nat}
    (hi : m.1.index? = some i) : ∃ ref, elementAt? c m.1 = some ref ∧ ref.entity = m.2 := by
  simp only [mentions, List.mem_append, or_assoc] at h
  rcases h with h | h | h | h | h
  · exact elementAt?_of_mem_mentionsOf SelectedField.ref (fun _ => rfl) (fun _ => rfl) h
  · exact elementAt?_of_mem_mentionsOf Filter.ref (fun _ => rfl) (fun _ => rfl) h
  · exact elementAt?_of_mem_mentionsOf SortKey.ref (fun _ => rfl) (fun _ => rfl) h
  · exact elementAt?_of_mem_mentionsOf id (fun i => by simp [elementAt?]) (fun _ => rfl) h
  · obtain ⟨entity, -, rfl⟩ := List.mem_map.mp h
    cases hi

/-- An entity is the first one that cannot be joined to where the report starts, and the place is
that of its first mention. -/
structure Missed (r : Registry) (c : Config) (place : Location) (start target : String) : Prop where
  start_eq : c.primary? = some start
  out_of_reach : ∀ hops, ¬Chain r.entities start hops target
  first_missed : ∃ before after, c.referenced = before ++ target :: after ∧
    ∀ x ∈ before, ∃ hops, Chain r.entities start hops x
  first_mention : ∃ before after, mentions c = before ++ (place, target) :: after ∧
    ∀ m ∈ before, m.2 ≠ target

theorem mem_ids_of_field? {entity field : String} {f : Field}
    (h : r.field? entity field = some f) : entity ∈ r.entities.map Entity.id := by
  obtain ⟨e, he, -⟩ := Option.bind_eq_some_iff.mp h
  obtain ⟨hmem, rfl⟩ := r.entity?_eq_some_iff.mp he
  exact List.mem_map_of_mem hmem

/-- What a well-formed report mentions are entities of the catalog. -/
theorem WellFormed.mem_ids (h : WellFormed r c) {x : String} (hx : x ∈ c.mentioned) :
    x ∈ r.entities.map Entity.id := by
  rcases Config.mem_mentioned_iff.mp hx with ⟨s, hs, rfl⟩ | ⟨f, hf, rfl⟩ | ⟨s, hs, rfl⟩ |
    ⟨key, hkey, rfl⟩ | hwindow
  · obtain ⟨field, hfield⟩ := h.selected s hs
    exact mem_ids_of_field? hfield
  · obtain ⟨field, hfield, -⟩ := h.filters f hf
    exact mem_ids_of_field? hfield
  · obtain ⟨field, hfield⟩ := h.sorting s hs
    exact mem_ids_of_field? hfield
  · obtain ⟨field, hfield⟩ := h.groupBy key hkey
    exact mem_ids_of_field? hfield
  · rw [Config.windowEntity] at hwindow
    split at hwindow
    · rename_i hrange
      obtain ⟨range, hrange⟩ := Option.isSome_iff_exists.mp hrange
      obtain ⟨-, asked, field, hasked, hfield, -⟩ := h.window range hrange
      rw [hasked, Option.bind_some] at hwindow
      rw [Time.TimeField.owner, hwindow, Option.getD_some] at hfield
      exact mem_ids_of_field? hfield
    · cases hwindow

/-- An error about a join is about the first entity that the plan misses. -/
theorem missed_of_planOf (h : Resolution r c v) {e : CompileError}
    (he : planOf r c v.primary.id = .error e) :
    ∃ place target, e = .join place v.primary.id target ∧ Missed r c place v.primary.id target := by
  have hg : r.graph.Closed := closed_ofEntities r.entities
  have hmentioned : ∀ x ∈ c.referenced, x ∈ c.mentioned := by
    intro x hx
    rcases Config.mem_distinctFrom.mp hx with hnone | ⟨hx, -⟩
    · cases hnone
    · exact hx
  have hknown : ∀ x ∈ c.referenced, x ∈ r.entities.map Entity.id :=
    fun x hx => h.wellFormed.mem_ids (hmentioned x hx)
  have hstart : v.primary.id ∈ r.entities.map Entity.id := by
    obtain ⟨id, -, hentity⟩ := h.primary_entity
    exact List.mem_map_of_mem (r.entity?_eq_some_iff.mp hentity).1
  rw [planOf] at he
  cases hplan : r.graph.joinPlan v.primary.id c.referenced with
  | ok plan =>
    rw [hplan] at he
    cases he
  | error target =>
    rw [hplan] at he
    cases he
    obtain ⟨hmissed, before, after, heq, hbefore⟩ :=
      List.find?_eq_some_iff_append.mp ((Graph.joinPlan_eq_error_iff hg).mp hplan)
    have htarget : target ∈ c.referenced := by simp [heq]
    refine ⟨firstMention c target, target, rfl, h.primary?_eq, ?_, ⟨before, after, heq, ?_⟩, ?_⟩
    · exact (unreachable_iff hstart (hknown target htarget)).mp hmissed
    · -- what comes before the first entity that is missed is known and in reach
      intro x hx
      have hreached : ¬Plan.unreachable r.graph v.primary.id x = true := by
        simpa using hbefore x hx
      have hx' : x ∈ c.referenced := by simp [heq, hx]
      refine not_forall_not.mp fun hnone => hreached ?_
      exact (unreachable_iff hstart (hknown x hx')).mpr hnone
    · obtain ⟨-, before, after, heq, hbefore⟩ :=
        List.find?_eq_some_iff_append.mp (find?_mentions (hmentioned target htarget))
      exact ⟨before, after, heq, fun m hm => by simpa using hbefore m hm⟩

/-- The errors of compiling a report: those of resolving it, those about joins, and those of the
bounds of its time window. -/
theorem blames_or_missed {e : CompileError} (h : compile r c o = .error e) :
    Blames c e ∨ ∃ place start target, e = .join place start target ∧
      Missed r c place start target := by
  rw [compile_eq] at h
  cases hresolved : resolve r c with
  | error e' =>
    rw [hresolved] at h
    cases h
    have hfirst := (resolve_reports r c).error_iff.mp hresolved
    exact .inl (.of_faults (List.mem_of_head? hfirst))
  | ok v =>
    rw [hresolved] at h
    have hv : Resolution r c v := resolve_eq_ok_iff.mp hresolved
    have h : planOf r c v.primary.id >>= assemble r c o v = .error e := h
    cases hplan : planOf r c v.primary.id with
    | error e' =>
      rw [hplan] at h
      cases h
      obtain ⟨place, target, rfl, hmissed⟩ := missed_of_planOf hv hplan
      exact .inr ⟨place, v.primary.id, target, rfl, hmissed⟩
    | ok plan =>
      rw [hplan] at h
      have h : assemble r c o v plan = .error e := h
      have hfirst := (assemble_reports hv (planOf_eq_ok_iff.mp hplan)).error_iff.mp h
      exact .inl (.of_boundsFaults (List.mem_of_head? hfirst))

/-- An error at a position of a list is about the element that the caller has written there: it
names the entity, and the field unless it is about a join. That nothing is selected is reported at
the first position of the empty list. -/
def PointsAt (c : Config) (e : CompileError) : Prop :=
  ∀ i, e.location.index? = some i →
    (∃ ref, elementAt? c e.location = some ref ∧ e.entity? = some ref.entity ∧
      (e.kindName ≠ "join" → e.field? = some ref.field)) ∨
    (e = .schema (.selected 0) .nothingSelected ∧ c.selected = [])

theorem Blames.pointsAt {e : CompileError} (h : Blames c e) : PointsAt c e := by
  intro i hi
  cases h with
  | empty hnone => exact .inr ⟨rfl, hnone⟩
  | single hplace => exact absurd (hplace.symm.trans hi) nofun
  | schema hplace hentity hfield => exact .inl ⟨_, hplace, hentity, fun _ => hfield⟩
  | type hplace => exact .inl ⟨_, hplace, rfl, fun _ => rfl⟩
  | aggregation hplace => exact .inl ⟨_, hplace, rfl, fun _ => rfl⟩

theorem Missed.pointsAt {place : Location} {start target : String}
    (h : Missed r c place start target) : PointsAt c (.join place start target) := by
  intro i hi
  obtain ⟨before, after, heq, -⟩ := h.first_mention
  have hmem : (place, target) ∈ mentions c := by simp [heq]
  obtain ⟨ref, hplace, hentity⟩ := elementAt?_of_mem_mentions hmem hi
  exact .inl ⟨ref, hplace, congrArg some hentity.symm, fun hne => absurd rfl hne⟩

end

/-- A rule is broken, the first one in the order of the rules, and the error is its first
violation. -/
def FirstViolation (r : Registry) (c : Config) (o : Options) (e : CompileError) : Prop :=
  ∃ before rule after, Rule.inOrder = before ++ rule :: after ∧
    (∀ earlier ∈ before, earlier.violations r c o = []) ∧
    (rule.violations r c o).head? = some e

theorem compile_eq_error_iff {r : Registry} {c : Config} {o : Options} {e : CompileError} :
    compile r c o = .error e ↔ FirstViolation r c o e := by
  rw [(compile_reports r c o).error_iff, List.head?_flatMap, List.findSome?_eq_some_iff]
  simp only [List.head?_eq_none_iff]
  constructor
  · rintro ⟨before, rule, after, heq, hrule, hbefore⟩
    exact ⟨before, rule, after, heq, hbefore, hrule⟩
  · rintro ⟨before, rule, after, heq, hbefore, hrule⟩
    exact ⟨before, rule, after, heq, hrule, hbefore⟩

/-- **Errors point at what is wrong.** A report is not compiled exactly if it breaks a rule, and the
error is the first violation of the first rule that it breaks. At a position of a list the error is
about the element there. If it is about a join, the entity is the first one in the order of mention
that no relationships lead to, and the place is the first one to mention the entity. -/
theorem error_points_at_first_violation (r : Registry) (c : Config) (o : Options)
    (e : CompileError) :
    (compile r c o = .error e ↔ FirstViolation r c o e) ∧
      (compile r c o = .error e → PointsAt c e ∧
        ∀ place start target, e = .join place start target →
          Missed r c place start target) := by
  refine ⟨compile_eq_error_iff, fun h => ?_⟩
  rcases blames_or_missed h with hblames | ⟨place, start, target, rfl, hmissed⟩
  · refine ⟨hblames.pointsAt, ?_⟩
    rintro place start target rfl
    cases hblames
  · refine ⟨hmissed.pointsAt, ?_⟩
    rintro _ _ _ ⟨⟩
    exact hmissed

/-- Vehicles, by tags and geofences that they are not related to. -/
def strayVehicles : Config :=
  { Config.new "vehicles" with
    selected := [⟨"vehicles", "vehicle_label", none, none⟩]
    filters := [⟨"filter-1", "vehicles", "max_speed", .greaterThan, some (.ofInt64 90), none⟩,
      ⟨"filter-2", "geofences", "radius", .lessThan, some (.ofInt64 500), none⟩]
    sorting := [⟨"tags", "tag_label", .asc⟩, ⟨"geofences", "radius", .desc⟩] }

theorem strayVehicles_miss_geofences :
    compile .telematics strayVehicles newYearOptions =
        .error (.join (.filter 1) "vehicles" "geofences") ∧
      elementAt? strayVehicles (.filter 1) = some ⟨"geofences", "radius"⟩ ∧
      Missed .telematics strayVehicles (.filter 1) "vehicles" "geofences" := by
  have h : compile .telematics strayVehicles newYearOptions =
      .error (.join (.filter 1) "vehicles" "geofences") :=
    (compile_reports ..).error_iff.mpr (by decide +kernel)
  obtain ⟨-, hmissed⟩ := (error_points_at_first_violation _ _ _ _).2 h
  exact ⟨h, rfl, hmissed _ _ _ rfl⟩

end Statement

end ReportSql
