import ReportSql.Proofs.Locations
import ReportSql.Proofs.Spans

/-!
# What can fail behind the rules

A report that obeys the rules can still ask for what there is not: for entities that no
relationships lead to, and for a window that starts before all moments. The window is looked at
twice, first by itself and then from the moment of compiling; what only the second look finds is
that the start is out of range.
-/

namespace ReportSql

namespace Time

/-! ## The start of a relative window -/

/-- So many units are a span, and the moment that lies the span before the given one is not before
the earliest second. Inside a leap second, that second is one more to go back from. -/
structure StartsInRange (now : Instant) (amount : Int64) (unit : TimeUnit) : Prop where
  span : amount.toInt * unit.seconds ≤ TimeUnit.maxSpan
  start : earliest ≤ now.seconds + (if now.isLeap then 1 else 0) - amount.toInt * unit.seconds

instance (now : Instant) (amount : Int64) (unit : TimeUnit) :
    Decidable (StartsInRange now amount unit) :=
  decidable_of_iff
    (amount.toInt * unit.seconds ≤ TimeUnit.maxSpan ∧
      earliest ≤ now.seconds + (if now.isLeap then 1 else 0) - amount.toInt * unit.seconds)
    ⟨fun h => ⟨h.1, h.2⟩, fun h => ⟨h.span, h.start⟩⟩

theorem TimeUnit.seconds_pos (unit : TimeUnit) : 0 < unit.seconds := by
  cases unit <;> decide

theorem Instant.isSome_ofParts? {seconds : Int} {nanos : Nat} :
    (ofParts? seconds nanos).isSome = true ↔ (earliest ≤ seconds ∧ seconds ≤ latest) ∧
      nanos < 2000000000 ∧ (1000000000 ≤ nanos → seconds % 60 = 59) := by
  rw [ofParts?]
  split <;> simp_all

/-- Going back by a span leads to a moment unless that is before the earliest one. -/
theorem Instant.isSome_earlier? (now : Instant) {n : Int} (hn : 0 < n) :
    (now.earlier? n).isSome = true ↔
      earliest ≤ now.seconds + (if now.isLeap then 1 else 0) - n := by
  have hlatest := now.inRange.2
  have hnanos := now.nanos_lt
  rw [earlier?]
  cases hleap : now.isLeap with
  | true =>
    -- a second past the end of the minute, with the nanoseconds of an ordinary one
    have hleap : 1000000000 ≤ now.nanos := of_decide_eq_true hleap
    rw [if_pos ⟨rfl, hn⟩, isSome_ofParts?, if_pos rfl]
    omega
  | false =>
    have hleap : ¬1000000000 ≤ now.nanos := of_decide_eq_false hleap
    rw [if_neg (by simp), isSome_ofParts?, if_neg (by simp)]
    omega

theorem startsInRange_iff {now : Instant} {amount : Int64} {unit : TimeUnit}
    (hpos : 0 < amount.toInt) :
    StartsInRange now amount unit ↔ ((unit.span? amount).bind now.earlier?).isSome = true := by
  have hn : 0 < amount.toInt * unit.seconds := Int.mul_pos hpos unit.seconds_pos
  have hspan : -TimeUnit.maxSpan ≤ amount.toInt * unit.seconds := by
    have : -TimeUnit.maxSpan ≤ 0 := by decide
    omega
  cases hlength : unit.span? amount with
  | none =>
    have hlong : ¬amount.toInt * unit.seconds ≤ TimeUnit.maxSpan := by
      intro hle
      rw [TimeUnit.span?_eq_some_iff.mpr ⟨rfl, hspan, hle⟩] at hlength
      cases hlength
    exact ⟨fun hstart => absurd hstart.span hlong, fun hfalse => by cases hfalse⟩
  | some n =>
    obtain ⟨rfl, -, hle⟩ := TimeUnit.span?_eq_some_iff.mp hlength
    rw [Option.bind_some, now.isSome_earlier? hn]
    exact ⟨fun hstart => hstart.start, fun hstart => ⟨hle, hstart⟩⟩

/-! ## The second look at a window -/

/-- A relative window that is positive fails to have bounds only if its start is out of range. -/
theorem TimeRange.resolve_relative_eq_error_iff {now : Instant} {amount : Int64} {unit : TimeUnit}
    {cause : WindowError} (hpos : 0 < amount.toInt) :
    (TimeRange.relative amount unit).resolve now = .error cause ↔
      ¬StartsInRange now amount unit ∧ cause = .outOfRange amount := by
  rw [startsInRange_iff hpos, resolve, if_neg (by omega)]
  cases (unit.span? amount).bind now.earlier? <;> simp [eq_comm]

/-- An absolute window with readable bounds has them as seen from any moment. -/
theorem TimeRange.exists_resolve_absolute (now : Instant) {start finish : Option String}
    (hbound : start ≠ none ∨ finish ≠ none)
    (hread : ∀ s, start = some s ∨ finish = some s → ∃ t, Instant.ofText? s = some t) :
    ∃ bounds, (TimeRange.absolute start finish).resolve now = .ok bounds := by
  have hopen : ∀ s : Option String, (∀ x, s = some x → ∃ t, Instant.ofText? x = some t) →
      ∃ t, readOpen s = .ok t ∧ t.isSome = s.isSome := by
    intro s hs
    cases s with
    | none => exact ⟨none, rfl, rfl⟩
    | some x =>
      obtain ⟨t, ht⟩ := hs x rfl
      exact ⟨some t, by simp [readOpen, readBound, ht, Except.map], rfl⟩
  obtain ⟨t, ht, htsome⟩ := hopen start fun x hx => hread x (.inl hx)
  obtain ⟨u, hu, husome⟩ := hopen finish fun x hx => hread x (.inr hx)
  have hone : ¬(t.isNone && u.isNone) = true := by
    rw [Bool.and_eq_true, ← Option.not_isSome, ← Option.not_isSome, htsome, husome]
    rcases hbound with h | h <;> simp [Option.ne_none_iff_isSome.mp h]
  simp only [resolve, ht, hu, bind_eq_ok, Except.ok.injEq, exists_eq_left']
  exact ⟨_, if_neg hone⟩

end Time

namespace Statement

open ReportSql.Catalog
open ReportSql.Join (Graph)
open ReportSql.Report
open ReportSql.Time (Instant StartsInRange TimeField TimeRange TimeUnit WindowError)

section

variable {r : Registry} {c : Config} {o : Options} {v : Resolved} {e : CompileError}

/-! ## Reachability -/

/-- Relationships lead from the given entity to all others that the report mentions. -/
def Joinable (r : Registry) (c : Config) (primary : String) : Prop :=
  ∀ entity ∈ c.referenced, ∃ hops, Chain r.entities primary hops entity

/-- There is one first element of a list that lacks a property. -/
theorem first_unique {α : Type} {p : α → Prop} {l before before' after after' : List α} {a a' : α}
    (h : l = before ++ a :: after) (hbefore : ∀ x ∈ before, p x) (ha : ¬p a)
    (h' : l = before' ++ a' :: after') (hbefore' : ∀ x ∈ before', p x) (ha' : ¬p a') : a = a' := by
  subst h
  rcases List.append_eq_append_iff.mp h' with ⟨more, rfl, heq⟩ | ⟨more, rfl, heq⟩
  · cases more with
    | nil => exact (List.cons.inj heq).1
    | cons x rest =>
      obtain rfl : a = x := (List.cons.inj heq).1
      exact absurd (hbefore' a (by simp)) ha
  · cases more with
    | nil => exact (List.cons.inj heq).1.symm
    | cons x rest =>
      obtain rfl : a' = x := (List.cons.inj heq).1
      exact absurd (hbefore a' (by simp)) ha'

/-- The entity that a plan misses is determined, and so is the place where it is mentioned. -/
theorem Missed.unique {place place' : Location} {start target target' : String}
    (h : Missed r c place start target) (h' : Missed r c place' start target') :
    place = place' ∧ target = target' := by
  obtain ⟨before, after, heq, hbefore⟩ := h.first_missed
  obtain ⟨before', after', heq', hbefore'⟩ := h'.first_missed
  have htarget : target = target' :=
    first_unique heq hbefore (not_exists.mpr h.out_of_reach) heq' hbefore'
      (not_exists.mpr h'.out_of_reach)
  subst htarget
  obtain ⟨before, after, heq, hbefore⟩ := h.first_mention
  obtain ⟨before', after', heq', hbefore'⟩ := h'.first_mention
  have hmention : (place, target) = (place', target) :=
    first_unique heq hbefore (fun hne => hne rfl) heq' hbefore' fun hne => hne rfl
  exact ⟨congrArg Prod.fst hmention, rfl⟩

theorem Missed.not_joinable {place : Location} {start target : String}
    (h : Missed r c place start target) : ¬Joinable r c start := by
  obtain ⟨before, after, heq, -⟩ := h.first_missed
  intro hall
  obtain ⟨hops, hchain⟩ := hall target (by simp [heq])
  exact h.out_of_reach hops hchain

/-- A resolved report has a join plan exactly if all that it mentions is in reach. -/
theorem Resolution.exists_joinPlan_iff (h : Resolution r c v) :
    (∃ plan, r.graph.joinPlan v.primary.id c.referenced = .ok plan) ↔
      Joinable r c v.primary.id := by
  have hstart : v.primary.id ∈ r.entities.map Entity.id := by
    obtain ⟨id, -, hentity⟩ := h.primary_entity
    exact List.mem_map_of_mem (r.entity?_eq_some_iff.mp hentity).1
  refine (Graph.exists_joinPlan_iff (closed_ofEntities r.entities)).trans ?_
  refine forall₂_congr fun entity hentity => ?_
  have hknown : entity ∈ r.entities.map Entity.id := by
    rcases Config.mem_distinctFrom.mp hentity with hnone | ⟨hmentioned, -⟩
    · cases hnone
    · exact h.wellFormed.mem_ids hmentioned
  have hreach := (unreachable_iff hstart hknown).not
  rw [Join.Plan.unreachable, decide_eq_true_eq, not_and_or, not_not, not_forall_not] at hreach
  rw [← hreach]
  exact or_congr_right Option.ne_none_iff_exists'.symm

theorem planOf_eq_error_iff (h : Resolution r c v) : planOf r c v.primary.id = .error e ↔
    ∃ place target, e = .join place v.primary.id target ∧
      Missed r c place v.primary.id target := by
  refine ⟨missed_of_planOf h, ?_⟩
  rintro ⟨place, target, rfl, hmissed⟩
  cases hplan : planOf r c v.primary.id with
  | ok plan =>
    refine absurd (h.exists_joinPlan_iff.mp ⟨plan, planOf_eq_ok_iff.mp hplan⟩) ?_
    exact hmissed.not_joinable
  | error e =>
    -- a plan fails at one entity only, and that is mentioned first at one place
    obtain ⟨place', target', rfl, hmissed'⟩ := missed_of_planOf h hplan
    obtain ⟨rfl, rfl⟩ := hmissed.unique hmissed'
    rfl

/-! ## Windows -/

/-- A relative window starts in range as seen from the moment of compiling. -/
def WindowInRange (c : Config) (o : Options) : Prop :=
  ∀ amount unit, c.timeRange = some (.relative amount unit) → StartsInRange o.now amount unit

/-- The error is about a relative window that starts out of range; it names the field that the
window is for. -/
def OutOfRange (c : Config) (o : Options) (primary : String) (e : CompileError) : Prop :=
  ∃ amount unit asked, c.timeRange = some (.relative amount unit) ∧
    ¬StartsInRange o.now amount unit ∧ c.timeField = some asked ∧
    e = .schema .timeRange (.window ⟨asked.owner primary, asked.field⟩ (.outOfRange amount))

/-- The window of a resolved report fails to have bounds only if it is relative and starts out of
range. -/
theorem Resolution.resolve_eq_error_iff (h : Resolution r c v) {range : TimeRange}
    (hrange : c.timeRange = some range) {cause : WindowError} :
    range.resolve o.now = .error cause ↔
      ∃ amount unit, range = .relative amount unit ∧ ¬StartsInRange o.now amount unit ∧
        cause = .outOfRange amount := by
  cases (h.wellFormed.window range hrange).1 with
  | @relative amount unit hpos =>
    rw [TimeRange.resolve_relative_eq_error_iff hpos]
    constructor
    · rintro ⟨hout, rfl⟩
      exact ⟨amount, unit, rfl, hout, rfl⟩
    · rintro ⟨_, _, ⟨⟩, hout, rfl⟩
      exact ⟨hout, rfl⟩
  | absolute hbound hread =>
    obtain ⟨bounds, hbounds⟩ := TimeRange.exists_resolve_absolute o.now hbound hread
    rw [hbounds]
    constructor
    · intro herror
      cases herror
    · rintro ⟨_, _, ⟨⟩, -⟩

theorem Resolution.head?_boundsFaults (h : Resolution r c v) :
    (boundsFaults c o).head? = some e ↔ OutOfRange c o v.primary.id e := by
  have href : ∀ asked, windowRef c asked = ⟨asked.owner v.primary.id, asked.field⟩ := by
    intro asked
    rw [windowRef, h.primary?_eq, Option.getD_some]
  rw [boundsFaults]
  cases hrange : c.timeRange with
  | none =>
    constructor
    · intro hhead
      cases hhead
    · rintro ⟨_, _, _, hnone, -⟩
      rw [hrange] at hnone
      cases hnone
  | some range =>
    obtain ⟨-, asked, -, hasked, -⟩ := h.wellFormed.window range hrange
    rw [hasked]
    constructor
    · intro hhead
      cases hresolve : range.resolve o.now with
      | ok bounds => simp [hresolve] at hhead
      | error cause =>
        obtain ⟨amount, unit, rfl, hout, rfl⟩ := (h.resolve_eq_error_iff hrange).mp hresolve
        refine ⟨amount, unit, asked, hrange, hout, hasked, ?_⟩
        simpa [hresolve, href, eq_comm] using hhead
    · rintro ⟨amount, unit, asked', hrange', hout, hasked', rfl⟩
      obtain rfl := Option.some.inj (hrange.symm.trans hrange')
      obtain rfl := Option.some.inj (hasked.symm.trans hasked')
      have hresolve := (h.resolve_eq_error_iff (o := o) hrange).mpr ⟨amount, unit, rfl, hout, rfl⟩
      simp [hresolve, href]

theorem Resolution.boundsFaults_eq_nil_iff (h : Resolution r c v) :
    boundsFaults c o = [] ↔ WindowInRange c o := by
  rw [← List.head?_eq_none_iff, Option.eq_none_iff_forall_ne_some]
  simp only [ne_eq, h.head?_boundsFaults]
  constructor
  · intro hnone amount unit hrange
    obtain ⟨-, asked, -, hasked, -⟩ := h.wellFormed.window _ hrange
    by_contra hout
    exact hnone _ ⟨amount, unit, asked, hrange, hout, hasked, rfl⟩
  · rintro hrange e ⟨amount, unit, -, hasked, hout, -⟩
    exact hout (hrange amount unit hasked)

/-! ## Behind the rules -/

/-- A resolved report is compiled exactly if it can be joined and its window starts in range. -/
theorem Resolution.exists_compiled_iff (h : Resolution r c v) :
    (∃ k, compile r c o = .ok k) ↔ Joinable r c v.primary.id ∧ WindowInRange c o := by
  have hcompile : compile r c o = planOf r c v.primary.id >>= assemble r c o v := by
    rw [compile_eq, resolve_eq_ok_iff.mpr h]
    rfl
  simp only [hcompile, bind_eq_ok, planOf_eq_ok_iff, ← h.exists_joinPlan_iff,
    ← h.boundsFaults_eq_nil_iff]
  constructor
  · rintro ⟨k, plan, hplan, hk⟩
    exact ⟨⟨plan, hplan⟩, (assemble_reports h hplan).exists_ok_iff.mp ⟨k, hk⟩⟩
  · rintro ⟨⟨plan, hplan⟩, hbounds⟩
    obtain ⟨k, hk⟩ := (assemble_reports h hplan).exists_ok_iff.mpr hbounds
    exact ⟨k, plan, hplan, hk⟩

/-- What a resolved report can still fail with: an entity that it cannot join, and once there is
none, the start of its window. -/
theorem Resolution.compile_eq_error_iff (h : Resolution r c v) : compile r c o = .error e ↔
    (∃ place target, e = .join place v.primary.id target ∧
      Missed r c place v.primary.id target) ∨
    (Joinable r c v.primary.id ∧ OutOfRange c o v.primary.id e) := by
  have hcompile : compile r c o = planOf r c v.primary.id >>= assemble r c o v := by
    rw [compile_eq, resolve_eq_ok_iff.mpr h]
    rfl
  rw [hcompile, ← planOf_eq_error_iff h, ← h.exists_joinPlan_iff]
  cases hplan : planOf r c v.primary.id with
  | error e' =>
    have hnone : ¬∃ plan, r.graph.joinPlan v.primary.id c.referenced = .ok plan := by
      rintro ⟨plan, hok⟩
      rw [planOf_eq_ok_iff.mpr hok] at hplan
      cases hplan
    have herror : (.error e' >>= assemble r c o v) = .error e' := rfl
    simp only [hnone, false_and, or_false, herror, Except.error.injEq]
  | ok plan =>
    have hok := planOf_eq_ok_iff.mp hplan
    have hsome : ∃ plan, r.graph.joinPlan v.primary.id c.referenced = .ok plan := ⟨plan, hok⟩
    rw [← h.head?_boundsFaults, ← (assemble_reports h hok).error_iff]
    simp only [reduceCtorEq, false_or, hsome, true_and]
    rfl

end

/-- **What obeys the rules is compiled if it is possible.** A report that breaks a rule is refused
with the error of resolving it. A report that obeys the rules is compiled exactly if relationships
lead to all entities that it mentions and its window, if it is relative, starts at a moment that
there is; otherwise the error is about the first entity out of reach, or, with all of them in reach,
about the window. An absolute window that obeys the rules has bounds as seen from any moment. -/
theorem compiles_iff_feasible (r : Registry) (c : Config) (o : Options) :
    (∀ e, resolve r c = .error e → compile r c o = .error e) ∧
      ∀ v, resolve r c = .ok v →
        ((∃ k, compile r c o = .ok k) ↔ Joinable r c v.primary.id ∧ WindowInRange c o) ∧
        (∀ e, compile r c o = .error e ↔
          (∃ place target, e = .join place v.primary.id target ∧
            Missed r c place v.primary.id target) ∨
          (Joinable r c v.primary.id ∧ OutOfRange c o v.primary.id e)) ∧
        ∀ start finish, c.timeRange = some (.absolute start finish) →
          ∀ now, ∃ bounds, (TimeRange.absolute start finish).resolve now = .ok bounds := by
  refine ⟨fun e he => ?_, fun v hv => ?_⟩
  · rw [compile_eq, he]
    rfl
  · have h : Resolution r c v := resolve_eq_ok_iff.mp hv
    refine ⟨h.exists_compiled_iff, fun e => h.compile_eq_error_iff, ?_⟩
    intro start finish hrange now
    cases (h.wellFormed.window _ hrange).1 with
    | absolute hbound hread => exact TimeRange.exists_resolve_absolute now hbound hread

/-- Going back from the start of 2024 by all days that a word can count leads nowhere. -/
theorem fastDrives_out_of_range :
    ∃ v, resolve .telematics (fastDrives "100%" 9223372036854775807) = .ok v ∧
      Joinable .telematics (fastDrives "100%" 9223372036854775807) v.primary.id ∧
      ¬StartsInRange newYearOptions.now 9223372036854775807 .days ∧
      compile .telematics (fastDrives "100%" 9223372036854775807) newYearOptions =
        .error (.schema .timeRange (.window ⟨"tracking_data_core", "device_time"⟩
          (.outOfRange 9223372036854775807))) := by
  have hresolved : (resolve .telematics (fastDrives "100%" 9223372036854775807)).toOption.map
      (fun v => v.primary.id) = some "tracking_data_core" := by decide +kernel
  have hplanned : (Registry.telematics.graph.joinPlan "tracking_data_core"
      (fastDrives "100%" 9223372036854775807).referenced).toOption.map
      (fun plan => plan.edges.length) = some 1 := by decide +kernel
  have hout : ¬StartsInRange newYearOptions.now 9223372036854775807 .days := by decide +kernel
  obtain ⟨v, hv, hprimary⟩ := exists_ok_of_map hresolved
  obtain ⟨plan, hplan, -⟩ := exists_ok_of_map hplanned
  rw [← hprimary] at hplan
  have hjoinable := (resolve_eq_ok_iff.mp hv).exists_joinPlan_iff.mp ⟨plan, hplan⟩
  obtain ⟨-, herror, -⟩ := (compiles_iff_feasible _ _ newYearOptions).2 v hv
  refine ⟨v, hv, hjoinable, hout, (herror _).mpr (.inr ⟨hjoinable, ?_⟩)⟩
  exact ⟨_, _, ⟨none, "device_time"⟩, rfl, hout, rfl, by rw [← hprimary]; rfl⟩

end Statement

end ReportSql
