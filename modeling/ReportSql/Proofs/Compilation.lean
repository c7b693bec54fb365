import Mathlib.Data.List.Forall2
import ReportSql.Catalog.Telematics
import ReportSql.Proofs.Binding
import ReportSql.Proofs.Plan
import ReportSql.Proofs.Resolution

/-!
# What a compiled report consists of

`compile` succeeds exactly if each of its steps does; `Compilation` names the steps and says of
which parts the statement is put together. Later results read a compiled report through it. A report
of the telematics catalog with filters of all shapes shows that they speak of something.
-/

namespace ReportSql.Statement

open ReportSql.Catalog
open ReportSql.Join (Graph JoinEdge JoinPath Memo)
open ReportSql.Report
open ReportSql.Sql (Join)
open ReportSql.Time (Instant TimeRange TimeField WindowBounds)

/-! ## Expressions of fields -/

/-- A selected field is read by its value or by a summary. -/
theorem selectedExpr_cases (infer : Bool) (s : Placed SelectedField) :
    selectedExpr infer s = s.target.valueExpr infer ∨
      ∃ a, selectedExpr infer s = s.target.aggregateExpr infer a := by
  unfold selectedExpr
  split
  · exact .inl rfl
  · exact .inr ⟨_, rfl⟩

/-- A sort key is read by its value or by a summary. -/
theorem sortExpr_cases (infer : Bool) (v : Resolved) (t : Target) :
    sortExpr infer v t = t.valueExpr infer ∨ ∃ a, sortExpr infer v t = t.aggregateExpr infer a := by
  unfold sortExpr
  split
  · split
    · exact .inr ⟨_, rfl⟩
    · exact .inl rfl
  · exact .inl rfl

/-! ## The bounds of the time window -/

theorem resolveBounds_eq_ok_iff {now : Instant} {w : Option (TimeRange × Target)}
    {window : Option (WindowBounds × Target)} :
    resolveBounds now w = .ok window ↔
      (w = none ∧ window = none) ∨
        ∃ range t bounds, w = some (range, t) ∧ range.resolve now = .ok bounds ∧
          window = some (bounds, t) := by
  cases w with
  | none => simp [resolveBounds, eq_comm]
  | some w =>
    obtain ⟨range, t⟩ := w
    cases hr : range.resolve now with
    | error cause =>
      simp only [resolveBounds, hr, reduceCtorEq, false_and, false_or, Option.some.injEq,
        Prod.mk.injEq, false_iff, not_exists, not_and]
      rintro _ _ bounds ⟨rfl, rfl⟩ h
      rw [hr] at h
      cases h
    | ok bounds =>
      simp only [resolveBounds, hr, Except.ok.injEq, reduceCtorEq, false_and, false_or,
        Option.some.injEq, Prod.mk.injEq]
      constructor
      · rintro rfl
        exact ⟨range, t, bounds, ⟨rfl, rfl⟩, hr, rfl⟩
      · rintro ⟨_, _, bounds', ⟨rfl, rfl⟩, h, rfl⟩
        obtain rfl := Except.ok.inj (hr.symm.trans h)
        rfl

/-! ## Joined tables -/

/-- A join along a hop compares a column of the entity that the hop starts from with a column of the
one that it leads to. -/
theorem joinOf_eq_ok_iff {r : Registry} {c : Config} {e : JoinEdge} {j : Join} :
    joinOf r c e = .ok j ↔
      ∃ source target, r.entity? e.fromEntity = some source ∧ r.entity? e.toEntity = some target ∧
        j = ⟨e.join, tableOf target,
          .binary .eq (.column (some source.id) (columnOf source e.fromField))
            (.column (some target.id) (columnOf target e.toField))⟩ := by
  rw [joinOf]
  constructor
  · intro h
    split at h
    · rename_i source target hs ht
      exact ⟨source, target, hs, ht, (Except.ok.inj h).symm⟩
    · cases h
  · rintro ⟨source, target, hs, ht, rfl⟩
    simp only [hs, ht]

theorem joinsOf_eq_ok_iff {r : Registry} {c : Config} {edges : List JoinEdge} {joins : List Join} :
    joinsOf r c edges = .ok joins ↔
      List.Forall₂ (fun e j => joinOf r c e = .ok j) edges joins := by
  induction edges generalizing joins with
  | nil => simp [joinsOf, eq_comm]
  | cons e rest ih =>
    simp only [joinsOf, bind_eq_ok, ih, Except.ok.injEq, List.forall₂_cons_left_iff]
    constructor
    · rintro ⟨j, hj, js, hjs, rfl⟩
      exact ⟨j, js, hj, hjs, rfl⟩
    · rintro ⟨j, js, hj, hjs, rfl⟩
      exact ⟨j, hj, js, hjs, rfl⟩

/-- The joins before a join go along the hops before its own. -/
theorem joinsOf_append {r : Registry} {c : Config} {edges : List JoinEdge}
    {before after : List Join} {j : Join} (h : joinsOf r c edges = .ok (before ++ j :: after)) :
    ∃ earlier e later, edges = earlier ++ e :: later ∧ joinsOf r c earlier = .ok before ∧
      joinOf r c e = .ok j := by
  simp only [joinsOf_eq_ok_iff] at h ⊢
  -- on the joins before: each of them takes one hop
  induction before generalizing edges with
  | nil =>
    obtain ⟨e, later, he, -, rfl⟩ := List.forall₂_cons_right_iff.mp h
    exact ⟨[], e, later, rfl, .nil, he⟩
  | cons j' before ih =>
    obtain ⟨e', rest, he', hrest, rfl⟩ := List.forall₂_cons_right_iff.mp h
    obtain ⟨earlier, e, later, rfl, hbefore, he⟩ := ih hrest
    exact ⟨e' :: earlier, e, later, rfl, .cons he' hbefore, he⟩

/-- Each join goes along a hop. -/
theorem exists_hop_of_mem {r : Registry} {c : Config} {edges : List JoinEdge} {joins : List Join}
    (h : joinsOf r c edges = .ok joins) {j : Join} (hj : j ∈ joins) :
    ∃ e ∈ edges, joinOf r c e = .ok j := by
  obtain ⟨before, after, rfl⟩ := List.append_of_mem hj
  obtain ⟨earlier, e, later, rfl, -, he⟩ := joinsOf_append h
  exact ⟨e, List.mem_append_right _ (List.mem_cons_self ..), he⟩

/-! ## Whole reports -/

/-- The compiled form of a resolved report, given its joined tables, the bounds of its time window
and its join plan. -/
def assembled (c : Config) (o : Options) (v : Resolved) (joins : List Join)
    (window : Option (WindowBounds × Target)) (plan : JoinPath) : Compiled where
  query :=
    { select := v.selected.map (selectItem o.inferEncodings)
      source := some (tableOf v.primary)
      joins := joins
      condition := conjunction (formsFrom 0 (conjuncts o.inferEncodings v.filters window))
      groupBy := v.groupBy.map fun key => key.target.valueExpr o.inferEncodings
      orderBy := v.sorting.map (orderItem o.inferEncodings v)
      limit := some (o.limits.apply c.limit).1 }
  parameters := valuesOf (conjuncts o.inferEncodings v.filters window)
  columns := v.selected.map (expectedColumn o.inferEncodings)
  limit := (o.limits.apply c.limit).1
  clamp := (o.limits.apply c.limit).2
  plan := plan
  dialect := o.dialect

theorem assemble_eq_ok_iff {r : Registry} {c : Config} {o : Options} {v : Resolved}
    {plan : JoinPath} {k : Compiled} :
    assemble r c o v plan = .ok k ↔
      ∃ joins window, joinsOf r c plan.edges = .ok joins ∧
        resolveBounds o.now v.window = .ok window ∧ k = assembled c o v joins window plan := by
  simp only [assemble, bind_eq_ok, pure_eq_ok, conditions_empty]
  -- the conditions are added one by one to a statement that has none
  constructor
  · rintro ⟨joins, hj, window, hw, rfl⟩
    refine ⟨joins, window, hj, hw, ?_⟩
    rw [foldl_filter _ _ rfl]
    rfl
  · rintro ⟨joins, window, hj, hw, rfl⟩
    refine ⟨joins, hj, window, hw, ?_⟩
    rw [foldl_filter _ _ rfl]
    rfl

/-- **What is compiled does not depend on what was compiled before**: a memo that holds answers of
the graph changes no report, and keeps holding answers. -/
theorem compileWith_eq {r : Registry} {m : Memo} (hm : m.Sound r.graph) (c : Config) (o : Options) :
    (compileWith m r c o).1 = compile r c o ∧ (compileWith m r c o).2.Sound r.graph := by
  rw [compile, compileWith, compileWith]
  cases resolve r c with
  | error e => exact ⟨rfl, hm⟩
  | ok v =>
    obtain ⟨hplan, hsound⟩ := Memo.joinPlan_eq hm v.primary.id c.referenced
    rw [Graph.joinPlan] at hplan
    rcases hwarm : m.joinPlan r.graph v.primary.id c.referenced with ⟨plan, m'⟩
    rcases hcold : Memo.empty.joinPlan r.graph v.primary.id c.referenced with ⟨plan', m''⟩
    rw [hwarm, hcold] at hplan
    rw [hwarm] at hsound
    obtain rfl : plan = plan' := hplan
    simp only [hwarm, hcold]
    cases plan with
    | error target => exact ⟨rfl, hsound⟩
    | ok plan => exact ⟨rfl, hsound⟩

/-- How a report is compiled, step by step: `v` is the resolved report, `joins` are the joined
tables, and `window` holds the bounds of the time window. -/
structure Compilation (r : Registry) (c : Config) (o : Options) (v : Resolved) (joins : List Join)
    (window : Option (WindowBounds × Target)) (k : Compiled) : Prop where
  resolved : Resolution r c v
  planned : r.graph.joinPlan v.primary.id c.referenced = .ok k.plan
  joined : joinsOf r c k.plan.edges = .ok joins
  bounded : resolveBounds o.now v.window = .ok window
  result : k = assembled c o v joins window k.plan

theorem compile_eq_ok_iff {r : Registry} {c : Config} {o : Options} {k : Compiled} :
    compile r c o = .ok k ↔ ∃ v joins window, Compilation r c o v joins window k := by
  rw [compile, compileWith]
  constructor
  · intro h
    split at h
    · cases h
    · rename_i v hv
      split at h
      · cases h
      · rename_i plan m hp
        obtain ⟨joins, window, hj, hw, rfl⟩ := assemble_eq_ok_iff.mp h
        refine ⟨v, joins, window, resolve_eq_ok_iff.mp hv, ?_, hj, hw, rfl⟩
        rw [Graph.joinPlan, hp]
        rfl
  · rintro ⟨v, joins, window, h⟩
    have hplan := h.planned
    rw [Graph.joinPlan] at hplan
    rw [resolve_eq_ok_iff.mpr h.resolved]
    simp only
    split
    · rename_i hp
      rw [hp] at hplan
      cases hplan
    · rename_i plan m hp
      rw [hp] at hplan
      obtain rfl := Except.ok.inj hplan
      exact assemble_eq_ok_iff.mpr ⟨joins, window, h.joined, h.bounded, h.result⟩

section

variable {r : Registry} {c : Config} {o : Options} {v : Resolved} {joins : List Join}
  {k : Compiled}

/-- The bounds of the window of a compiled report, with the field that they are for. -/
theorem Compilation.window_named {bounds : WindowBounds} {t : Target}
    (h : Compilation r c o v joins (some (bounds, t)) k) :
    ∃ range asked, c.timeRange = some range ∧ range.resolve o.now = .ok bounds ∧
      c.timeField = some asked ∧ Names r ⟨asked.owner v.primary.id, asked.field⟩ t := by
  rcases resolveBounds_eq_ok_iff.mp h.bounded with ⟨-, hnone⟩ | ⟨range, t', bounds', hw, hr, heq⟩
  · cases hnone
  · cases heq
    obtain ⟨asked, hrange, hfield, hn⟩ := h.resolved.window_named hw
    exact ⟨range, asked, hrange, hr, hfield, hn⟩

/-- A compiled report has no window only if none was asked for. -/
theorem Compilation.timeRange_eq_none (h : Compilation r c o v joins none k) :
    c.timeRange = none := by
  rcases resolveBounds_eq_ok_iff.mp h.bounded with ⟨hw, -⟩ | ⟨_, _, _, _, _, heq⟩
  · rcases resolveWindow_eq_ok_iff.mp h.resolved.window with ⟨hnone, -⟩ | ⟨_, _, _, hsome, _⟩
    · exact hnone
    · rw [hw] at hsome
      cases hsome
  · cases heq

end

/-! ## A report of the telematics catalog -/

/-- Fast drives in the last days, of devices in a network whose name contains the given text. -/
def fastDrives (network : String) (days : Int64) : Config :=
  { Config.new "tracking_data_core" with
    selected := [⟨"tracking_data_core", "device_time", none, none⟩,
      ⟨"tracking_data_core", "speed", none, none⟩, ⟨"devices", "device_imei", none, none⟩]
    filters := [
      ⟨"filter-1", "tracking_data_core", "speed", .between, some (.ofInt64 90),
        some (.ofInt64 250)⟩,
      ⟨"filter-2", "devices", "network_label", .contains, some (.string network), none⟩,
      ⟨"filter-3", "tracking_data_core", "event_id", .isIn,
        some (.array [.ofInt64 2, .ofInt64 3]), none⟩,
      ⟨"filter-4", "tracking_data_core", "satellites", .notIn, some (.array []), none⟩,
      ⟨"filter-5", "tracking_data_core", "altitude", .isNotNull, none, none⟩]
    sorting := [⟨"tracking_data_core", "speed", .desc⟩]
    timeRange := some (.relative days .days)
    timeField := some ⟨none, "device_time"⟩ }

/-- Reports are compiled as seen from the start of the year 2024. -/
def newYearOptions : Options where
  dialect := .postgres
  limits := ⟨1000, 10000⟩
  inferEncodings := true
  now := .atSecond 1704067200 (by decide)

theorem exists_compiled_fastDrives :
    ∃ k, compile .telematics (fastDrives "100%" 2) newYearOptions = .ok k ∧
      k.parameters.length = 7 := by
  have h : (compile .telematics (fastDrives "100%" 2) newYearOptions).toOption.map
      (fun k => k.parameters.length) = some 7 := by decide +kernel
  exact exists_ok_of_map h

end ReportSql.Statement
