import ReportSql.Proofs.Occurrences
import ReportSql.Proofs.Resolution

/-!
# The faults of a report

`faults` lists all that is wrong with a report, rule by rule: the primary entity, the selected
fields, the filters, the sort keys, the keys to group by, the rules of grouping, and the time
window. Within a rule the parts of the report stand in their order, each at its position.
`resolve_reports` says that a report is resolved if it has no faults, and that otherwise the first
one is reported.
-/

namespace ReportSql

/-! ## Steps and their faults -/

section

variable {ε ε' α β : Type}

/-- The step succeeds if there are no faults, and fails with the first one otherwise. -/
def Reports (x : Except ε α) (faults : List ε) : Prop :=
  match x with
  | .ok _ => faults = []
  | .error e => faults.head? = some e

namespace Reports

variable {x : Except ε α} {faults faults' : List ε}

theorem ok (a : α) : Reports (.ok a : Except ε α) [] := rfl

theorem error (e : ε) (more : List ε) : Reports (.error e : Except ε α) (e :: more) := rfl

/-- One step after another: what the second one finds comes behind what the first one finds. -/
theorem bind {f : α → Except ε β} (hx : Reports x faults)
    (hf : ∀ a, x = .ok a → Reports (f a) faults') : Reports (x >>= f) (faults ++ faults') := by
  cases x with
  | ok a =>
    obtain rfl : faults = [] := hx
    exact hf a rfl
  | error e =>
    have hx : faults.head? = some e := hx
    show (faults ++ faults').head? = some e
    rw [List.head?_append, hx, Option.some_or]

/-- A check before a further step. -/
theorem check_bind {x : Except ε Unit} {y : Except ε β} (hx : Reports x faults)
    (hy : Reports y faults') : Reports (x >>= fun _ => y) (faults ++ faults') :=
  hx.bind fun _ _ => hy

/-- A step whose result is turned into another. -/
theorem bind_ok (hx : Reports x faults) (f : α → β) :
    Reports (x >>= fun a => .ok (f a)) faults := by
  rw [← List.append_nil faults]
  exact hx.bind fun a _ => .ok (f a)

theorem exists_ok_iff (h : Reports x faults) : (∃ a, x = .ok a) ↔ faults = [] := by
  cases x with
  | ok a => exact ⟨fun _ => h, fun _ => ⟨a, rfl⟩⟩
  | error e =>
    have h : faults.head? = some e := h
    constructor
    · rintro ⟨a, ha⟩
      cases ha
    · rintro rfl
      cases h

theorem error_iff (h : Reports x faults) {e : ε} : x = .error e ↔ faults.head? = some e := by
  cases x with
  | ok a =>
    obtain rfl : faults = [] := h
    simp
  | error e' =>
    have h : faults.head? = some e' := h
    rw [h, Except.error.injEq, Option.some.injEq]

end Reports

end

namespace Statement

open ReportSql.Catalog
open ReportSql.Report
open ReportSql.Time (Instant TimeField TimeRange WindowError)

/-! ## References -/

/-- A reference names an entity of the catalog and one of its fields. -/
def refFaults (r : Registry) (place : Location) (ref : FieldRef) : List CompileError :=
  if (r.entity? ref.entity).isNone then [.schema place (.unknownEntity ref)]
  else if (r.field? ref.entity ref.field).isNone then [.schema place (.unknownField ref)]
  else []

/-- The parts of a list name fields; `more` are the faults of a part besides its reference. -/
def partFaults {α : Type} (r : Registry) (place : Nat → Location) (ref : α → FieldRef)
    (more : Location → α → List CompileError) (parts : List α) : List CompileError :=
  parts.zipIdx.flatMap fun p => refFaults r (place p.2) (ref p.1) ++ more (place p.2) p.1

theorem Names.field?_eq {r : Registry} {ref : FieldRef} {t : Target} (h : Names r ref t) :
    r.field? ref.entity ref.field = some t.field := by
  rw [Registry.field?, h.entity, Option.bind_some, h.field]

theorem target_reports (r : Registry) (place : Location) (ref : FieldRef) :
    Reports (target r place ref) (refFaults r place ref) := by
  rw [target, refFaults, Registry.field?]
  cases r.entity? ref.entity with
  | none => exact .error _ []
  | some e =>
    cases hfield : e.field? ref.field with
    | none => simpa [hfield] using Reports.error _ []
    | some f => simpa [hfield] using Reports.ok _

section

variable {α : Type} {r : Registry} {place : Nat → Location} {ref : α → FieldRef}
  {check : Location → α → Field → Except CompileError Unit}
  {more : Location → α → List CompileError}

theorem placeAll_reports
    (hcheck : ∀ place part t, Names r (ref part) t →
      Reports (check place part t.field) (more place part)) (i : Nat) (parts : List α) :
    Reports (placeAll r place ref check i parts)
      ((parts.zipIdx i).flatMap fun p =>
        refFaults r (place p.2) (ref p.1) ++ more (place p.2) p.1) := by
  induction parts generalizing i with
  | nil => exact .ok []
  | cons part rest ih =>
    rw [placeAll, List.zipIdx_cons, List.flatMap_cons, List.append_assoc]
    refine (target_reports r (place i) (ref part)).bind fun t ht => ?_
    exact (hcheck (place i) part t (target_eq_ok_iff.mp ht)).check_bind ((ih (i + 1)).bind_ok _)

/-- The placed parts are the parts that were asked for, each at its position. -/
theorem placeAll_zipIdx {i : Nat} {parts : List α} {ps : List (Placed α)}
    (h : placeAll r place ref check i parts = .ok ps) :
    ps.map (fun p => (p.part, p.index)) = parts.zipIdx i := by
  induction parts generalizing i ps with
  | nil =>
    cases h
    rfl
  | cons part rest ih =>
    obtain ⟨t, more, -, -, hm, rfl⟩ := placeAll_cons_eq_ok_iff.mp h
    rw [List.map_cons, ih hm, List.zipIdx_cons]

/-- Of the placed parts those stay that are the first ones to name their fields. -/
theorem firstPlaced_eq {parts : List α} {ps : List (Placed α)}
    (h : placeAll r place ref check 0 parts = .ok ps) :
    (firstPlaced ref ps).map (fun p => (p.part, p.index)) = Config.firsts ref parts := by
  rw [← Config.firstBy_zipIdx, ← placeAll_zipIdx h, ← Config.firstBy_map]
  rfl

end

/-! ## The primary entity -/

/-- A report starts from an entity of the catalog. -/
def primaryFaults (r : Registry) (c : Config) : List CompileError :=
  match c.primary? with
  | none => [.schema .primaryEntity .noPrimaryEntity]
  | some id =>
    if (r.entity? id).isNone then [.schema .primaryEntity (.unknownPrimaryEntity id)] else []

theorem resolvePrimary_reports (r : Registry) (c : Config) :
    Reports (resolvePrimary r c) (primaryFaults r c) := by
  rw [resolvePrimary, primaryFaults]
  cases c.primary? with
  | none => exact .error _ []
  | some id =>
    cases hentity : r.entity? id with
    | none => simpa [hentity] using Reports.error _ []
    | some e => simpa [hentity] using Reports.ok _

/-! ## Selected fields -/

/-- At least one field is selected. -/
def emptinessFaults (c : Config) : List CompileError :=
  if c.selected.isEmpty then [.schema (.selected 0) .nothingSelected] else []

/-! ## Filters -/

/-- The operator of a filter is one for fields of the type that is named, and has its operands. -/
def filterFaults (r : Registry) (place : Location) (f : Filter) : List CompileError :=
  (match r.field? f.entity f.field with
    | some field =>
      if f.operator.applies field.type then []
      else [.type place f.ref (.notApplicable f.operator field.type)]
    | none => [])
    ++ (operandProblem? f).toList.map (.type place f.ref)

theorem checkFilter_reports {r : Registry} (place : Location) (f : Filter) (t : Target)
    (h : Names r f.ref t) : Reports (checkFilter place f t.field) (filterFaults r place f) := by
  have hfield : r.field? f.entity f.field = some t.field := h.field?_eq
  simp only [checkFilter, filterFaults, hfield]
  split
  · cases operandProblem? f with
    | none => exact .ok ()
    | some problem => exact .error _ []
  · exact .error _ _

/-! ## Grouping -/

/-- A field is summarised only in a grouped report and only as the catalog permits; any other field
of a grouped report is a key. -/
def aggregationFaults (r : Registry) (keys : List FieldRef) (s : SelectedField) (i : Nat) :
    List CompileError :=
  match s.aggregation with
  | some a =>
    if keys.isEmpty then [.aggregation (.selected i) s.ref (.notGrouped a)]
    else if (r.field? s.entity s.field).any (·.allows a) then []
    else [.aggregation (.selected i) s.ref (.notPermitted a)]
  | none =>
    if keys.isEmpty || keys.contains s.ref then []
    else [.aggregation (.selected i) s.ref .neitherGroupedNorAggregated]

theorem checkSelected_reports {r : Registry} (keys : List FieldRef)
    {ps : List (Placed SelectedField)} (h : ∀ p ∈ ps, Names r p.part.ref p.target) :
    Reports (checkSelected keys ps)
      (ps.flatMap fun p => aggregationFaults r keys p.part p.index) := by
  induction ps with
  | nil => exact .ok ()
  | cons p rest ih =>
    obtain ⟨hn, hrest⟩ := List.forall_mem_cons.mp h
    have hfield : r.field? p.part.entity p.part.field = some p.target.field := hn.field?_eq
    have hfaults : aggregationFaults r keys p.part p.index =
        (aggregationProblem? keys p).toList.map
          (.aggregation (.selected p.index) p.part.ref) := by
      simp only [aggregationFaults, aggregationProblem?, hfield, Option.any_some]
      cases p.part.aggregation with
      | none => simp only [apply_ite Option.toList, apply_ite (List.map _)]; rfl
      | some a => simp only [apply_ite Option.toList, apply_ite (List.map _)]; rfl
    rw [checkSelected, List.flatMap_cons, hfaults]
    cases aggregationProblem? keys p with
    | none => exact ih hrest
    | some problem => exact .error _ _

/-- A grouped report is sorted by keys to group by and by summaries. -/
def sortingFaults (c : Config) (s : SortKey) (i : Nat) : List CompileError :=
  if c.groupBy.isEmpty || c.groupBy.contains s.ref ||
      (Config.firsts SelectedField.ref c.selected).any fun p =>
        p.1.ref == s.ref && p.1.aggregation.isSome
  then []
  else [.aggregation (.sort i) s.ref .sortedByOther]

theorem checkSorting_reports {c : Config} {selected : List (Placed SelectedField)}
    (h : selected.map (fun p => (p.part, p.index)) = Config.firsts SelectedField.ref c.selected)
    (ps : List (Placed SortKey)) :
    Reports (checkSorting c.groupBy selected ps)
      (ps.flatMap fun p => sortingFaults c p.part p.index) := by
  induction ps with
  | nil => exact .ok ()
  | cons p rest ih =>
    have hfaults : sortingFaults c p.part p.index =
        if isSortable c.groupBy selected p.part.ref then []
        else [.aggregation (.sort p.index) p.part.ref .sortedByOther] := by
      rw [sortingFaults, isSortable, ← h, List.any_map]
      rfl
    rw [checkSorting, List.flatMap_cons, hfaults]
    split
    · exact ih
    · exact .error _ _

/-! ## The time window -/

/-- A bound is a date or a time. -/
def boundFaults (s : String) : List WindowError :=
  match Instant.ofText? s with
  | some _ => []
  | none => [.notTimestamp (.ofList (Text.trim s.toList))]

/-- A relative window is as long as a positive number of units, and an absolute one has a bound. -/
def rangeFaults : TimeRange → List WindowError
  | .relative amount _ => if amount.toInt ≤ 0 then [.notPositive amount] else []
  | .absolute start finish =>
    (if start.isNone && finish.isNone then [.unbounded] else [])
      ++ (start.toList ++ finish.toList).flatMap boundFaults

theorem readOpen_reports (s : Option String) :
    Reports (TimeRange.readOpen s) (s.toList.flatMap boundFaults) := by
  cases s with
  | none => exact .ok none
  | some s =>
    rw [TimeRange.readOpen, Time.readBound, Option.toList_some, List.flatMap_singleton, boundFaults]
    cases Instant.ofText? s with
    | none => exact .error _ []
    | some t => exact .ok (some t)

theorem rangeCheck_reports (range : TimeRange) : Reports range.check (rangeFaults range) := by
  cases range with
  | relative amount unit =>
    rw [TimeRange.check, rangeFaults]
    split
    · exact .error _ []
    · exact .ok ()
  | absolute start finish =>
    rw [TimeRange.check, rangeFaults]
    split
    · exact .error _ _
    · rw [List.nil_append, List.flatMap_append]
      exact (readOpen_reports start).bind fun _ _ => (readOpen_reports finish).bind_ok _

/-- The field that a time window applies to, where the primary entity stands for one that is not
named. -/
def windowRef (c : Config) (asked : TimeField) : FieldRef :=
  ⟨asked.owner (c.primary?.getD ""), asked.field⟩

/-- The field that a time window applies to holds dates or moments. -/
def temporalFaults (r : Registry) (asked : TimeField) (ref : FieldRef) : List CompileError :=
  match r.field? ref.entity ref.field with
  | some field =>
    if field.type.isTemporal then []
    else [.schema .timeField (.notTemporal ref asked field.type)]
  | none => []

/-- A time window needs a field that it applies to, and can be read. -/
def windowFaults (r : Registry) (c : Config) : List CompileError :=
  match c.timeRange, c.timeField with
  | none, _ => []
  | some _, none => [.schema .timeField .noTimeField]
  | some range, some asked =>
    refFaults r .timeField (windowRef c asked)
      ++ (temporalFaults r asked (windowRef c asked)
        ++ (rangeFaults range).map fun cause =>
          .schema .timeRange (.window (windowRef c asked) cause))

theorem Names.ref_eq {r : Registry} {ref : FieldRef} {t : Target} (h : Names r ref t) :
    t.ref = ref := by
  rw [Target.ref, h.entity_id, (Entity.field?_eq_some h.field).2]

theorem windowTarget_reports (r : Registry) (c : Config) {primary : String}
    (hp : c.primary? = some primary) (asked : TimeField) (range : TimeRange) :
    Reports (windowTarget r primary (some asked) range)
      (refFaults r .timeField (windowRef c asked)
        ++ (temporalFaults r asked (windowRef c asked)
          ++ (rangeFaults range).map fun cause =>
            .schema .timeRange (.window (windowRef c asked) cause))) := by
  have href : (⟨asked.owner primary, asked.field⟩ : FieldRef) = windowRef c asked := by
    rw [windowRef, hp, Option.getD_some]
  rw [windowTarget, href]
  refine (target_reports r .timeField (windowRef c asked)).bind fun t ht => ?_
  have hn : Names r (windowRef c asked) t := target_eq_ok_iff.mp ht
  rw [temporalFaults, hn.field?_eq, hn.ref_eq]
  simp only
  split
  · have hcheck := rangeCheck_reports range
    cases hresult : range.check with
    | ok u =>
      have hnone : rangeFaults range = [] := hcheck.exists_ok_iff.mp ⟨u, hresult⟩
      simpa [hnone] using Reports.ok t
    | error cause =>
      have hfirst : (rangeFaults range).head? = some cause := hcheck.error_iff.mp hresult
      show (List.map _ _).head? = _
      rw [List.head?_map, hfirst, Option.map_some]
  · exact .error _ _

theorem resolveWindow_reports {r : Registry} {c : Config} {primary : String}
    (hp : c.primary? = some primary) :
    Reports (resolveWindow r c primary) (windowFaults r c) := by
  rw [resolveWindow, windowFaults]
  cases c.timeRange with
  | none => exact .ok none
  | some range =>
    cases c.timeField with
    | none => exact .error _ []
    | some asked => exact (windowTarget_reports r c hp asked range).bind_ok _

/-! ## Whole reports -/

/-- All faults of a report in the order of the rules. -/
def faults (r : Registry) (c : Config) : List CompileError :=
  [primaryFaults r c,
    emptinessFaults c,
    partFaults r .selected SelectedField.ref (fun _ _ => []) c.selected,
    partFaults r .filter Filter.ref (filterFaults r) c.filters,
    partFaults r .sort SortKey.ref (fun _ _ => []) c.sorting,
    partFaults r .groupBy (fun ref => ref) (fun _ _ => []) c.groupBy,
    (Config.firsts SelectedField.ref c.selected).flatMap fun p =>
      aggregationFaults r c.groupBy p.1 p.2,
    (Config.firsts SortKey.ref c.sorting).flatMap fun p => sortingFaults c p.1 p.2,
    windowFaults r c].flatten

/-- **The first fault is reported**, and a report without faults is resolved. -/
theorem resolve_reports (r : Registry) (c : Config) : Reports (resolve r c) (faults r c) := by
  have hnothing : ∀ {α : Type} (ref : α → FieldRef) (place : Location) (part : α) (t : Target),
      Names r (ref part) t → Reports (noCheck place part t.field) [] :=
    fun _ _ _ _ _ => .ok ()
  simp only [resolve, faults, List.flatten_cons, List.flatten_nil, List.append_nil]
  refine (resolvePrimary_reports r c).bind fun primary hprimary => ?_
  obtain ⟨id, hid, hentity⟩ := resolvePrimary_eq_ok_iff.mp hprimary
  have hp : c.primary? = some primary.id := by
    rw [hid, (r.entity?_eq_some_iff.mp hentity).2]
  cases hempty : c.selected.isEmpty with
  | true =>
    rw [emptinessFaults, hempty]
    exact .error _ _
  | false =>
    rw [emptinessFaults, hempty]
    simp only [Bool.false_eq_true, if_false, List.nil_append]
    refine (placeAll_reports (hnothing _) 0 c.selected).bind fun selected hselected => ?_
    refine (placeAll_reports checkFilter_reports 0 c.filters).bind fun filters _ => ?_
    refine (placeAll_reports (hnothing _) 0 c.sorting).bind fun sorting hsorting => ?_
    refine (placeAll_reports (hnothing _) 0 c.groupBy).bind fun groupBy _ => ?_
    have hfirst := firstPlaced_eq hselected
    have hnamed := fun p hp => (Resolution.firstPlaced_named hselected p hp).2
    rw [← hfirst, ← firstPlaced_eq hsorting, List.flatMap_map, List.flatMap_map]
    refine (checkSelected_reports c.groupBy hnamed).check_bind ?_
    refine (checkSorting_reports hfirst _).check_bind ?_
    exact (resolveWindow_reports hp).bind_ok _

end Statement

end ReportSql
