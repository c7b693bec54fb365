import Mathlib.Data.List.Nodup
import Mathlib.Data.List.Perm.Subperm
import ReportSql.Proofs.Paths

/-!
# The search moment by moment

One action of a search takes an entity from the queue or explores one hop. A moment is what the
search knows between two actions, together with what has happened so far: which entities have
entered the queue and which have left it. No entity enters the queue twice, which bounds the number
of actions, whatever cycles there are.

At every moment the hops by which entities were reached lead back to the start. The target is among
these entities although it is never queued, so that no hop is missing when its path is put together.
-/

namespace ReportSql.Join.Search

open ReportSql.Catalog

/-! ## Moments -/

/-- A search between two actions. -/
structure Moment where
  /-- The entities that do not enter the queue any more. -/
  visited : List String
  /-- The hops by which entities were reached, the latest first. -/
  parents : List JoinEdge
  queue : List String
  /-- The hops of the entity that left the queue last that have not been explored. -/
  pending : List JoinEdge
  /-- Has the target been reached? -/
  reached : Bool
  /-- All entities that have entered the queue, in order. -/
  enqueued : List String
  /-- All entities that have left the queue, in order. -/
  dequeued : List String

/-- The hop by which an entity was reached. -/
def parent? (parents : List JoinEdge) (entity : String) : Option JoinEdge :=
  parents.find? fun e => e.toEntity == entity

namespace Moment

/-- Only the start is queued. -/
def initial (start : String) : Moment where
  visited := [start]
  parents := []
  queue := [start]
  pending := []
  reached := false
  enqueued := [start]
  dequeued := []

/-- The first entity leaves the queue; its hops are to be explored. -/
def dequeue (g : Graph) (m : Moment) (entity : String) (queue : List String) : Moment :=
  { m with
    queue := queue
    pending := g.outgoing entity
    dequeued := m.dequeued ++ [entity] }

/-- The hop leads to an entity that has been visited. -/
def pass (m : Moment) (rest : List JoinEdge) : Moment :=
  { m with pending := rest }

/-- The hop reaches a new entity, which enters the queue. -/
def discover (m : Moment) (e : JoinEdge) (rest : List JoinEdge) : Moment :=
  { m with
    visited := e.toEntity :: m.visited
    parents := e :: m.parents
    queue := m.queue ++ [e.toEntity]
    pending := rest
    enqueued := m.enqueued ++ [e.toEntity] }

/-- The hop reaches the target, which ends the search. -/
def reach (m : Moment) (e : JoinEdge) (rest : List JoinEdge) : Moment :=
  { m with
    parents := e :: m.parents
    pending := rest
    reached := true }

/-- The moment after the next action, if there is one. -/
def next? (g : Graph) (target : String) (m : Moment) : Option Moment :=
  if m.reached then none
  else
    match m.pending with
    | e :: rest =>
      if e.toEntity ∈ m.visited then some (m.pass rest)
      else if e.toEntity = target then some (m.reach e rest)
      else some (m.discover e rest)
    | [] =>
      match m.queue with
      | entity :: queue => some (m.dequeue g entity queue)
      | [] => none

end Moment

/-- The moment after a number of actions, if there have been as many. -/
def moment? (g : Graph) (start target : String) : Nat → Option Moment
  | 0 => some (.initial start)
  | n + 1 => (moment? g start target n).bind (Moment.next? g target)

/-- Followed back from an entity, the hops by which entities were reached end at the start; none of
them is missing. They are listed from the start on. -/
inductive LeadsBack (start : String) (parents : List JoinEdge) : String → List JoinEdge → Prop where
  | start : LeadsBack start parents start []
  | hop {entity : String} {e : JoinEdge} {hops : List JoinEdge} : entity ≠ start →
      parent? parents entity = some e → LeadsBack start parents e.fromEntity hops →
      LeadsBack start parents entity (hops ++ [e])

/-! ## Actions -/

/-- All that an action can do. -/
inductive Action (g : Graph) (target : String) (m : Moment) : Moment → Prop where
  | dequeue {entity : String} {queue : List String} : m.reached = false → m.pending = [] →
      m.queue = entity :: queue → Action g target m (m.dequeue g entity queue)
  | pass {e : JoinEdge} {rest : List JoinEdge} : m.reached = false → m.pending = e :: rest →
      e.toEntity ∈ m.visited → Action g target m (m.pass rest)
  | reach {e : JoinEdge} {rest : List JoinEdge} : m.reached = false → m.pending = e :: rest →
      e.toEntity ∉ m.visited → e.toEntity = target → Action g target m (m.reach e rest)
  | discover {e : JoinEdge} {rest : List JoinEdge} : m.reached = false → m.pending = e :: rest →
      e.toEntity ∉ m.visited → e.toEntity ≠ target → Action g target m (m.discover e rest)

variable {g : Graph} {start target : String} {m m' : Moment}

theorem action_of_next? (h : m.next? g target = some m') : Action g target m m' := by
  rw [Moment.next?] at h
  split at h
  · cases h
  · rename_i hreached
    have hreached : m.reached = false := Bool.not_eq_true _ ▸ hreached
    split at h
    · rename_i e rest hpending
      split at h
      · rename_i hvisited
        cases h
        exact .pass hreached hpending hvisited
      · rename_i hvisited
        split at h
        · rename_i htarget
          cases h
          exact .reach hreached hpending hvisited htarget
        · rename_i htarget
          cases h
          exact .discover hreached hpending hvisited htarget
    · rename_i hpending
      split at h
      · rename_i entity queue hqueue
        cases h
        exact .dequeue hreached hpending hqueue
      · cases h

/-- Every one of these actions is the next one where it is possible. -/
theorem next?_of_action (h : Action g target m m') : m.next? g target = some m' := by
  cases h with
  | dequeue hreached hpending hqueue => simp [Moment.next?, hreached, hpending, hqueue]
  | pass hreached hpending hvisited => simp [Moment.next?, hreached, hpending, hvisited]
  | reach hreached hpending hvisited htarget =>
    rw [Moment.next?, hreached, hpending]
    simp only [Bool.false_eq_true, if_false, if_neg hvisited, if_pos htarget]
  | discover hreached hpending hvisited htarget =>
    rw [Moment.next?, hreached, hpending]
    simp only [Bool.false_eq_true, if_false, if_neg hvisited, if_neg htarget]

theorem moment?_succ {n : Nat} (hm : moment? g start target n = some m)
    (h : Action g target m m') : moment? g start target (n + 1) = some m' := by
  rw [moment?, hm]
  exact next?_of_action h

/-- What holds at the first moment and is kept by every action holds at all moments. -/
theorem moment?_induction {P : Nat → Moment → Prop} (hinitial : P 0 (.initial start))
    (haction : ∀ n m m', moment? g start target n = some m → P n m → Action g target m m' →
      P (n + 1) m') {n : Nat} (hm : moment? g start target n = some m) : P n m := by
  induction n generalizing m with
  | zero =>
    cases hm
    exact hinitial
  | succ n ih =>
    rw [moment?, Option.bind_eq_some_iff] at hm
    obtain ⟨before, hbefore, hnext⟩ := hm
    exact haction n before m hbefore (ih hbefore) (action_of_next? hnext)

/-! ## What actions keep -/

/-- The hops found so far are a tree, the entities it has are those that have been queued and, when
the target is reached, the target as well; none of them has been queued twice. -/
structure Kept (g : Graph) (start : String) (m : Moment) : Prop where
  tree : Tree g start m.parents
  log : m.enqueued = m.dequeued ++ m.queue
  nodup : m.enqueued.Nodup
  visited : ∀ x, x ∈ m.visited ↔ x ∈ m.enqueued
  seen : ∀ x ∈ m.enqueued, seen start m.parents x = true
  enqueued : m.reached = false → ∀ x, Search.seen start m.parents x = true → x ∈ m.enqueued
  pending : ∀ e ∈ m.pending, e ∈ g.edges ∧ e.fromEntity ∈ m.dequeued

namespace Kept

theorem initial (g : Graph) (start : String) : Kept g start (.initial start) where
  tree := .root
  log := rfl
  nodup := List.nodup_singleton start
  visited _ := Iff.rfl
  seen x hx := seen_iff.mpr (.inl (List.mem_singleton.mp hx))
  enqueued _ x hx := by simpa [Search.seen, Moment.initial] using hx
  pending := nofun

theorem dequeued_subset (h : Kept g start m) : m.dequeued ⊆ m.enqueued :=
  h.log ▸ List.subset_append_left _ _

/-- A hop to an entity not visited grows the tree. -/
theorem grow (h : Kept g start m) {e : JoinEdge} {rest : List JoinEdge}
    (hreached : m.reached = false) (hpending : m.pending = e :: rest)
    (hvisited : e.toEntity ∉ m.visited) : Tree g start (e :: m.parents) := by
  obtain ⟨he, hfrom⟩ := h.pending e (hpending ▸ List.mem_cons_self ..)
  refine .grow h.tree he (h.seen _ (h.dequeued_subset hfrom)) ?_
  rw [← Bool.not_eq_true]
  intro hseen
  exact hvisited ((h.visited _).mpr (h.enqueued hreached _ hseen))

theorem action (h : Kept g start m) (ha : Action g target m m') : Kept g start m' := by
  cases ha with
  | @dequeue entity queue hreached hpending hqueue =>
    refine { h with log := ?_, pending := ?_ }
    · rw [Moment.dequeue, h.log, hqueue, List.append_assoc, List.singleton_append]
    · intro e he
      obtain ⟨he, hfrom⟩ := List.mem_filter.mp he
      exact ⟨he, eq_of_beq hfrom ▸ List.mem_append_right _ (List.mem_singleton_self _)⟩
  | pass hreached hpending hvisited =>
    exact { h with pending := fun e he => h.pending e (hpending ▸ List.mem_cons_of_mem _ he) }
  | @reach e rest hreached hpending hvisited htarget =>
    refine { h with
      tree := h.grow hreached hpending hvisited
      seen := ?_
      enqueued := nofun
      pending := ?_ }
    · exact fun x hx => seen_cons (h.seen x hx)
    · exact fun f hf => h.pending f (hpending ▸ List.mem_cons_of_mem _ hf)
  | @discover e rest hreached hpending hvisited htarget =>
    have hnew : e.toEntity ∉ m.enqueued := fun hmem => hvisited ((h.visited _).mpr hmem)
    constructor
    case tree => exact h.grow hreached hpending hvisited
    case log => rw [Moment.discover, h.log, List.append_assoc]
    case nodup => exact List.nodup_append_comm.mp (List.nodup_cons.mpr ⟨hnew, h.nodup⟩)
    case visited =>
      intro x
      rw [Moment.discover, List.mem_cons, List.mem_append, List.mem_singleton, h.visited, or_comm]
    case seen =>
      intro x hx
      rcases List.mem_append.mp hx with hx | hx
      · exact seen_cons (h.seen x hx)
      · exact seen_iff.mpr (.inr (List.mem_singleton.mp hx ▸ List.mem_cons_self ..))
    case enqueued =>
      intro _ x hx
      rcases seen_iff.mp hx with rfl | hx
      · exact List.mem_append_left _ (h.enqueued hreached _ (seen_start _ _))
      · rcases List.mem_cons.mp hx with rfl | hx
        · exact List.mem_append_right _ (List.mem_singleton_self _)
        · exact List.mem_append_left _ (h.enqueued hreached _ (seen_iff.mpr (.inr hx)))
    case pending => exact fun f hf => h.pending f (hpending ▸ List.mem_cons_of_mem _ hf)

end Kept

theorem moment?_kept {n : Nat} (hm : moment? g start target n = some m) : Kept g start m :=
  moment?_induction (P := fun _ m => Kept g start m) (.initial g start)
    (fun _ _ _ _ h ha => h.action ha) hm

/-! ## Following the hops back -/

section

variable {found earlier : List JoinEdge} {e : JoinEdge} {x : String}

theorem parent?_eq_some (h : parent? found x = some e) : e ∈ found ∧ e.toEntity = x := by
  have hx := List.find?_some h
  exact ⟨List.mem_of_find?_eq_some h, eq_of_beq hx⟩

theorem parent?_cons_self (e : JoinEdge) (earlier : List JoinEdge) :
    parent? (e :: earlier) e.toEntity = some e :=
  List.find?_cons_of_pos (beq_self_eq_true _)

theorem parent?_cons_of_ne (h : e.toEntity ≠ x) (earlier : List JoinEdge) :
    parent? (e :: earlier) x = parent? earlier x :=
  List.find?_cons_of_neg (by simpa using h)

theorem parent?_of_not_seen (h : seen start found x = false) : parent? found x = none := by
  rw [parent?, List.find?_eq_none]
  intro e he heq
  rw [← Bool.not_eq_true, seen_iff, not_or] at h
  exact h.2 (List.mem_map.mpr ⟨e, he, eq_of_beq heq⟩)

theorem seen_of_parent? (h : parent? found x = some e) : seen start found x = true := by
  obtain ⟨he, rfl⟩ := parent?_eq_some h
  exact seen_iff.mpr (.inr (List.mem_map_of_mem he))

/-- A hop to a new entity changes nothing about where the entities before it are led back to. -/
theorem LeadsBack.cons {hops : List JoinEdge} (h : LeadsBack start earlier x hops)
    (hnew : seen start earlier e.toEntity = false) : LeadsBack start (e :: earlier) x hops := by
  induction h with
  | start => exact .start
  | @hop x f hops hx hparent _ ih =>
    have hne : e.toEntity ≠ x := by
      rintro rfl
      rw [seen_of_parent? hparent] at hnew
      cases hnew
    exact .hop hx (by rw [parent?_cons_of_ne hne, hparent]) ih

/-- **Every entity is led back to the start**, by the hops that are traced for it. -/
theorem Tree.leadsBack (h : Tree g start found) (hx : seen start found x = true) :
    LeadsBack start found x (trace found x) := by
  -- on the growth of the tree: the hop that comes last leads from an entity found before
  induction h generalizing x with
  | root =>
    obtain rfl : x = start := by simpa [seen] using hx
    exact .start
  | @grow e earlier _ _ hfrom hto ih =>
    rw [trace]
    split
    · rename_i heq
      subst heq
      have hne : e.toEntity ≠ start := by
        intro heq
        rw [heq, seen_start] at hto
        cases hto
      exact .hop hne (parent?_cons_self e earlier) ((ih hfrom).cons hto)
    · rename_i hne
      refine (ih ?_).cons hto
      rcases seen_iff.mp hx with rfl | hmem
      · exact seen_start x earlier
      · exact seen_iff.mpr (.inr (List.mem_of_ne_of_mem (Ne.symm hne) hmem))

theorem LeadsBack.unique {hops hops' : List JoinEdge} (h : LeadsBack start found x hops)
    (h' : LeadsBack start found x hops') : hops = hops' := by
  induction h generalizing hops' with
  | start =>
    cases h' with
    | start => rfl
    | hop hne _ _ => exact absurd rfl hne
  | hop hne hparent _ ih =>
    cases h' with
    | start => exact absurd rfl hne
    | hop _ hparent' hrest' =>
      obtain rfl := Option.some.inj (hparent.symm.trans hparent')
      rw [ih hrest']

end

/-- An action records one hop at most, and only one to an entity not visited. -/
theorem Action.parents (h : Action g target m m') :
    m'.parents = m.parents ∨ ∃ e rest, m.reached = false ∧ m.pending = e :: rest ∧
      e.toEntity ∉ m.visited ∧ m'.parents = e :: m.parents := by
  cases h with
  | dequeue _ _ _ | pass _ _ _ => exact .inl rfl
  | reach hreached hpending hvisited _ | discover hreached hpending hvisited _ =>
    exact .inr ⟨_, _, hreached, hpending, hvisited, rfl⟩

/-- The hop by which an entity was reached was explored after the entity that it starts from had
left the queue. -/
theorem exists_earlier {n : Nat} (hm : moment? g start target n = some m) :
    ∀ x e, parent? m.parents x = some e →
      ∃ k < n, ∃ earlier, moment? g start target k = some earlier ∧
        parent? earlier.parents x = none ∧ e.fromEntity ∈ earlier.dequeued := by
  refine moment?_induction (P := fun n m => ∀ x e, parent? m.parents x = some e →
    ∃ k < n, ∃ earlier, moment? g start target k = some earlier ∧
      parent? earlier.parents x = none ∧ e.fromEntity ∈ earlier.dequeued) nofun ?_ hm
  intro n m m' hm ih haction x e hparent
  have hold : parent? m.parents x = some e → _ := fun h =>
    (ih x e h).imp fun _ hk => hk.imp_left Nat.lt_succ_of_lt
  rcases haction.parents with hsame | ⟨f, rest, hreached, hpending, hvisited, hnew⟩
  · exact hold (hsame ▸ hparent)
  · have hkept := moment?_kept hm
    rw [hnew] at hparent
    by_cases hx : f.toEntity = x
    · subst hx
      obtain rfl : f = e := Option.some.inj ((parent?_cons_self f m.parents).symm.trans hparent)
      cases hkept.grow hreached hpending hvisited with
      | grow _ _ _ hto =>
        refine ⟨n, n.lt_succ_self, m, hm, parent?_of_not_seen hto, ?_⟩
        exact (hkept.pending f (hpending ▸ List.mem_cons_self ..)).2
    · exact hold (parent?_cons_of_ne hx m.parents ▸ hparent)

/-! ## The number of actions -/

theorem length_flatMap_filter_le {edges : List JoinEdge} {xs : List String} (hxs : xs.Nodup) :
    (xs.flatMap fun x => edges.filter fun e => e.fromEntity == x).length ≤ edges.length := by
  induction xs generalizing edges with
  | nil => exact Nat.zero_le _
  | cons x xs ih =>
    obtain ⟨hx, hxs⟩ := List.nodup_cons.mp hxs
    -- the hops of the other entities are found among those that do not start from this one
    have hothers : (xs.flatMap fun y => edges.filter fun e => e.fromEntity == y) =
        xs.flatMap fun y => (edges.filter fun e => !(e.fromEntity == x)).filter
          fun e => e.fromEntity == y := by
      refine List.flatMap_congr fun y hy => ?_
      rw [List.filter_filter]
      refine List.filter_congr fun e _ => ?_
      have hne : y ≠ x := fun heq => hx (heq ▸ hy)
      by_cases hey : e.fromEntity = y <;> simp [hey, hne]
    have hsum := List.length_eq_length_filter_add (l := edges) (fun e => e.fromEntity == x)
    have hle : (xs.flatMap fun y => (edges.filter fun e => !(e.fromEntity == x)).filter
        fun e => e.fromEntity == y).length ≤ (edges.filter fun e => !(e.fromEntity == x)).length :=
      ih hxs
    rw [List.flatMap_cons, List.length_append, hothers]
    omega

/-- The hops of the entities that have left the queue, and the entities themselves, are as many as
the actions so far and the hops not yet explored. -/
theorem length_dequeued {n : Nat} (hm : moment? g start target n = some m) :
    n + m.pending.length = m.dequeued.length + (m.dequeued.flatMap g.outgoing).length := by
  refine moment?_induction (P := fun n m =>
    n + m.pending.length = m.dequeued.length + (m.dequeued.flatMap g.outgoing).length) rfl ?_ hm
  intro n m m' _ ih haction
  cases haction with
  | dequeue _ hpending _ =>
    rw [hpending] at ih
    simp only [Moment.dequeue, List.flatMap_append, List.flatMap_singleton, List.length_append,
      List.length_singleton, List.length_nil] at ih ⊢
    omega
  | pass _ hpending _ | reach _ hpending _ _ | discover _ hpending _ _ =>
    rw [hpending, List.length_cons] at ih
    simp only [Moment.pass, Moment.reach, Moment.discover]
    omega

theorem actions_le {n : Nat} (hm : moment? g start target n = some m) :
    n ≤ 2 * g.edges.length + 1 := by
  have hkept := moment?_kept hm
  have hqueued : m.enqueued ⊆ start :: g.edges.map JoinEdge.toEntity := by
    intro x hx
    rcases seen_iff.mp (hkept.seen x hx) with rfl | hmem
    · exact List.mem_cons_self ..
    · obtain ⟨e, he, rfl⟩ := List.mem_map.mp hmem
      exact List.mem_cons_of_mem _ (List.mem_map_of_mem (hkept.tree.mem_edges e he))
  have hentities := (List.subperm_of_subset hkept.nodup hqueued).length_le
  have hnodup : m.dequeued.Nodup := (List.nodup_append.mp (hkept.log ▸ hkept.nodup)).1
  have hhops : (m.dequeued.flatMap g.outgoing).length ≤ g.edges.length :=
    length_flatMap_filter_le hnodup
  have hactions := length_dequeued hm
  rw [hkept.log, List.length_append, List.length_cons, List.length_map] at hentities
  omega

/-! ## The search goes through these moments -/

/-- The moment has found what the search has found, and the same entities wait. -/
structure Matches (m : Moment) (s : Search) : Prop where
  reached : m.reached = false
  parents : m.parents = s.found
  queue : m.queue = s.queue

/-- The moment has found what has been found when hops are explored. Unless that has ended the
search, none of them is left and the same entities wait. -/
structure Explored (m : Moment) (result : Search × Bool) : Prop where
  parents : m.parents = result.1.found
  reached : m.reached = result.2
  waiting : m.reached = false → m.queue = result.1.queue ∧ m.pending = []

theorem explore_moments {edges : List JoinEdge} {n : Nat} {s : Search}
    (hm : moment? g start target n = some m) (h : Matches m s) (hpending : m.pending = edges) :
    ∃ k m', moment? g start target k = some m' ∧ Explored m' (explore start target edges s) := by
  induction edges generalizing n m s with
  | nil => exact ⟨n, m, hm, ⟨h.parents, h.reached, fun _ => ⟨h.queue, hpending⟩⟩⟩
  | cons e rest ih =>
    have hkept := moment?_kept hm
    have hvisited : e.toEntity ∈ m.visited ↔ seen start s.found e.toEntity = true := by
      rw [hkept.visited, ← h.parents]
      exact ⟨hkept.seen _, hkept.enqueued h.reached _⟩
    rw [explore]
    split
    · rename_i hseen
      have haction : Action g target m (m.pass rest) :=
        .pass h.reached hpending (hvisited.mpr hseen)
      exact ih (moment?_succ hm haction) ⟨h.reached, h.parents, h.queue⟩ rfl
    · rename_i hseen
      have hnew := mt hvisited.mp hseen
      simp only
      split
      · rename_i htarget
        refine ⟨n + 1, _, moment?_succ hm (.reach h.reached hpending hnew htarget), ?_⟩
        constructor
        · rw [Moment.reach, h.parents]
        · rfl
        · exact fun hopen => Bool.noConfusion hopen
      · rename_i htarget
        refine ih (moment?_succ hm (.discover h.reached hpending hnew htarget)) ?_ rfl
        constructor
        · exact h.reached
        · rw [Moment.discover, h.parents]
        · rw [Moment.discover, h.queue]

/-- The first entity in the queue leaves it, and its hops are explored. -/
theorem explore_dequeued {n : Nat} {s : Search} {entity : String} {queue : List String}
    (hm : moment? g start target n = some m) (h : Matches m s) (hpending : m.pending = [])
    (hq : s.queue = entity :: queue) :
    ∃ k m', moment? g start target k = some m' ∧
      Explored m' (explore start target (g.outgoing entity) ⟨s.found, queue⟩) :=
  explore_moments (moment?_succ hm (.dequeue h.reached hpending (h.queue.trans hq)))
    ⟨h.reached, h.parents, rfl⟩ rfl

/-- The search ends, with what it has found at the last moment. -/
theorem run_moments {n : Nat} {s : Search} (hm : moment? g start target n = some m)
    (h : Matches m s) (hpending : m.pending = []) :
    ∃ k last, moment? g start target k = some last ∧ last.next? g target = none ∧
      last.parents = (run g start target s).1.found ∧
      last.reached = (run g start target s).2 := by
  induction s using run.induct g start target generalizing n m with
  | case1 s hq =>
    refine ⟨n, m, hm, ?_, ?_, ?_⟩
    · simp [Moment.next?, h.reached, hpending, h.queue, hq]
    · rw [run_of_nil hq, h.parents]
    · rw [run_of_nil hq, h.reached]
  | case2 s entity queue hq step =>
    rename_i hstep
    obtain ⟨k, last, hlast, hexplored⟩ := explore_dequeued hm h hpending hq
    have hend : last.reached = true := hexplored.reached.trans hstep
    refine ⟨k, last, hlast, by simp [Moment.next?, hend], ?_, ?_⟩
    · rw [run_of_cons hq, if_pos hstep, hexplored.parents]
    · rw [run_of_cons hq, if_pos hstep, hexplored.reached]
  | case3 s entity queue hq step hstep =>
    rename_i ih
    obtain ⟨k, m', hm', hexplored⟩ := explore_dequeued hm h hpending hq
    have hopen : m'.reached = false := hexplored.reached.trans (Bool.not_eq_true _ ▸ hstep)
    obtain ⟨hqueue, hnone⟩ := hexplored.waiting hopen
    rw [run_of_cons hq, if_neg hstep]
    exact ih hm' ⟨hopen, hexplored.parents, hqueue⟩ hnone

/-- When the search is over, it has found what the moments have recorded. -/
theorem exists_last (g : Graph) (start target : String) :
    ∃ n last, moment? g start target n = some last ∧ last.next? g target = none ∧
      last.parents = (run g start target ⟨[], [start]⟩).1.found ∧
      last.reached = (run g start target ⟨[], [start]⟩).2 :=
  run_moments (n := 0) rfl ⟨rfl, rfl, rfl⟩ rfl

section

variable (hparents : m.parents = (run g start target ⟨[], [start]⟩).1.found)
  (hreached : m.reached = (run g start target ⟨[], [start]⟩).2)

include hparents hreached

/-- The target is led back to the start like any other entity, although it has not been queued. -/
theorem leadsBack_target (h : m.reached = true) :
    LeadsBack start m.parents target (trace m.parents target) := by
  obtain ⟨hsound, hseen⟩ := run_sound target (Sound.initial g start)
  rw [hparents]
  exact hsound.tree.leadsBack (hseen (hreached ▸ h))

theorem path?_eq_some_iff_leadsBack (hne : start ≠ target) (p : JoinPath) :
    g.path? start target = some p ↔ g.contains start = true ∧ g.contains target = true ∧
      m.reached = true ∧ LeadsBack start m.parents target p.edges := by
  have hback := leadsBack_target hparents hreached
  simp only [Graph.path?, if_neg hne, ← hparents, ← hreached]
  constructor
  · intro h
    split at h
    · rename_i hknown
      obtain ⟨hstart, htarget⟩ := Bool.and_eq_true_iff.mp hknown
      split at h
      · rename_i hend
        cases h
        exact ⟨hstart, htarget, hend, hback hend⟩
      · cases h
    · cases h
  · rintro ⟨hstart, htarget, hend, hp⟩
    rw [if_pos (Bool.and_eq_true_iff.mpr ⟨hstart, htarget⟩), if_pos hend, (hback hend).unique hp]

end

/-- What has been reached up to a moment of the search, and how. -/
structure InOrder (entities : List Entity) (start target : String) (n : Nat) (m : Moment) :
    Prop where
  /-- The entities that have entered the queue have left it, in the same order, or wait in it. -/
  log : m.enqueued = m.dequeued ++ m.queue
  /-- No entity has entered the queue twice. -/
  once : m.enqueued.Nodup
  /-- An entity was reached by a declared hop that leads to it. -/
  declared : ∀ x e, parent? m.parents x = some e →
    e.toEntity = x ∧ ∃ place, DeclaredAt entities e place
  /-- Before an entity was reached, the one that the hop starts from had left the queue. -/
  earlier : ∀ x e, parent? m.parents x = some e →
    ∃ k < n, ∃ before, moment? (.ofEntities entities) start target k = some before ∧
      parent? before.parents x = none ∧ e.fromEntity ∈ before.dequeued
  /-- The hops traced for an entity that was reached lead back to the start. -/
  back : ∀ x e, parent? m.parents x = some e → LeadsBack start m.parents x (trace m.parents x)

/-- **The search ends, and what it has reached leads back to its start.** At every moment no entity
has been queued twice, and each one that was reached was so by a declared hop from an entity that
had left the queue before. There is a last moment, after two actions for each hop and one for the
start at most, with what the search has found. If the target has been reached then, it leads back to
the start with no hop missing, and the path is the list of these hops. -/
theorem search_ends_and_leads_back (entities : List Entity) (start target : String) :
    let g := Graph.ofEntities entities
    (∀ n m, moment? g start target n = some m → InOrder entities start target n m) ∧
    ∃ n ≤ 2 * g.edges.length + 1, ∃ last, moment? g start target n = some last ∧
      last.next? g target = none ∧
      last.parents = (run g start target ⟨[], [start]⟩).1.found ∧
      last.reached = (run g start target ⟨[], [start]⟩).2 ∧
      (last.reached = true → LeadsBack start last.parents target (trace last.parents target)) ∧
      (start ≠ target → ∀ p, g.path? start target = some p ↔
        g.contains start = true ∧ g.contains target = true ∧ last.reached = true ∧
          LeadsBack start last.parents target p.edges) := by
  intro g
  refine ⟨?_, ?_⟩
  · intro n m hm
    have hkept := moment?_kept hm
    constructor
    case log => exact hkept.log
    case once => exact hkept.nodup
    case declared =>
      intro x e hparent
      obtain ⟨he, hx⟩ := parent?_eq_some hparent
      exact ⟨hx, (mem_edges_ofEntities.mp (hkept.tree.mem_edges e he)).1⟩
    case earlier => exact exists_earlier hm
    case back =>
      intro x e hparent
      exact hkept.tree.leadsBack (seen_of_parent? hparent)
  · obtain ⟨n, last, hlast, hend, hparents, hreached⟩ := exists_last g start target
    exact ⟨n, actions_le hlast, last, hlast, hend, hparents, hreached,
      leadsBack_target hparents hreached,
      fun hne => path?_eq_some_iff_leadsBack hparents hreached hne⟩

/-- An entity that is declared twice and related to itself, and nothing that leads to the target. -/
example :
    let g := Graph.ofEntities [related "a" ["a", "b"], related "b" ["a", "c"], related "a" ["b"]]
    (moment? g "a" "c" 6).map Moment.dequeued = some ["a", "b"] ∧
      (moment? g "a" "c" 7).isNone = true := by
  decide

end ReportSql.Join.Search
