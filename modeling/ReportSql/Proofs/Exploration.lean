import Mathlib.Data.List.Lex
import Mathlib.Data.Prod.Lex
import ReportSql.Proofs.Search

/-!
# The order of discovery

A search for its own start goes on until nothing is left to explore. Every other search is a
beginning of this complete one, so that the paths from one start are all traced in one tree.

The complete search discovers entities in the order of their ranks, where the rank of a walk is its
length and then the places of its hops. This is what makes first discoveries the best ones: an
entity that is discovered later has no walk of a lower rank than one that was discovered before.
-/

namespace ReportSql.Join

namespace Search

variable {g : Graph} {start : String}

/-! ## Complete searches -/

/-- The hops by which all that is within reach is discovered, the latest first. -/
def spanning (g : Graph) (start : String) : List JoinEdge :=
  (run g start start ⟨[], [start]⟩).1.found

/-- No hop discovers the start. -/
theorem explore_start (edges : List JoinEdge) (s : Search) :
    (explore start start edges s).2 = false := by
  induction edges generalizing s with
  | nil => rfl
  | cons e rest ih =>
    rw [explore]
    split
    · exact ih s
    · rename_i hto
      have hne : e.toEntity ≠ start := by
        intro heq
        exact hto (heq ▸ seen_start start s.found)
      simp only [if_neg hne]
      exact ih _

theorem run_start (s : Search) : (run g start start s).2 = false := by
  induction s using run.induct g start start with
  | case1 s hq => rw [run_of_nil hq]
  | case2 s entity queue hq step hstep =>
    rw [explore_start] at hstep
    cases hstep
  | case3 s entity queue hq step hstep ih =>
    rw [run_of_cons hq, if_neg hstep]
    exact ih

theorem suffix_explore (target : String) (edges : List JoinEdge) (s : Search) :
    s.found <:+ (explore start target edges s).1.found := by
  induction edges generalizing s with
  | nil => exact List.suffix_refl s.found
  | cons e rest ih =>
    rw [explore]
    split
    · exact ih s
    · have hnext : s.found <:+ e :: s.found := List.suffix_cons e s.found
      simp only
      split
      · exact hnext
      · exact hnext.trans (ih ⟨e :: s.found, s.queue ++ [e.toEntity]⟩)

theorem suffix_run (g : Graph) (start target : String) (s : Search) :
    s.found <:+ (run g start target s).1.found := by
  induction s using run.induct g start target with
  | case1 s hq =>
    simp only [run_of_nil hq, List.suffix_refl]
  | case2 s entity queue hq step hstep =>
    rw [run_of_cons hq, if_pos hstep]
    exact suffix_explore target (g.outgoing entity) ⟨s.found, queue⟩
  | case3 s entity queue hq step hstep ih =>
    rw [run_of_cons hq, if_neg hstep]
    exact (suffix_explore target (g.outgoing entity) ⟨s.found, queue⟩).trans ih

/-- Exploring differs from exploring to the end only if the target is discovered on the way. -/
theorem explore_begins (start target : String) (edges : List JoinEdge) (s : Search) :
    explore start target edges s = explore start start edges s ∨
      ((explore start target edges s).2 = true ∧
        (explore start target edges s).1.found <:+ (explore start start edges s).1.found) := by
  induction edges generalizing s with
  | nil => exact .inl rfl
  | cons e rest ih =>
    rw [explore, explore]
    split
    · exact ih s
    · rename_i hto
      have hne : e.toEntity ≠ start := by
        intro heq
        exact hto (heq ▸ seen_start start s.found)
      simp only [if_neg hne]
      split
      · exact .inr ⟨rfl, suffix_explore start rest ⟨e :: s.found, s.queue ++ [e.toEntity]⟩⟩
      · exact ih _

/-- **Every search begins the complete one**: it is the complete search itself, or it stops when its
target is discovered. -/
theorem run_begins (g : Graph) (start target : String) (s : Search) :
    run g start target s = run g start start s ∨
      ((run g start target s).2 = true ∧
        (run g start target s).1.found <:+ (run g start start s).1.found) := by
  induction s using run.induct g start target with
  | case1 s hq =>
    rw [run_of_nil hq, run_of_nil hq]
    exact .inl rfl
  | case2 s entity queue hq step hstep =>
    have hfull := suffix_run g start start
      (explore start start (g.outgoing entity) ⟨s.found, queue⟩).1
    rw [run_of_cons hq, run_of_cons hq, if_pos hstep, explore_start]
    rcases explore_begins start target (g.outgoing entity) ⟨s.found, queue⟩ with
      heq | ⟨-, hsuffix⟩
    · have hfalse : step.2 = false := (congrArg Prod.snd heq).trans (explore_start _ _)
      rw [hfalse] at hstep
      cases hstep
    · exact .inr ⟨hstep, hsuffix.trans hfull⟩
  | case3 s entity queue hq step hstep ih =>
    rw [run_of_cons hq, run_of_cons hq, if_neg hstep, explore_start]
    rcases explore_begins start target (g.outgoing entity) ⟨s.found, queue⟩ with
      heq | ⟨htrue, -⟩
    · rw [← heq]
      exact ih
    · exact absurd htrue hstep

theorem explore_unseen {target : String} {edges : List JoinEdge} {s : Search}
    (h : seen start s.found target = false) (hend : (explore start target edges s).2 = false) :
    seen start (explore start target edges s).1.found target = false := by
  induction edges generalizing s with
  | nil => exact h
  | cons e rest ih =>
    rw [explore] at hend ⊢
    split at hend
    · rename_i hto
      rw [if_pos hto]
      exact ih h hend
    · rename_i hto
      rw [if_neg hto]
      simp only at hend ⊢
      split at hend
      · cases hend
      · rename_i hne
        rw [if_neg hne]
        refine ih ?_ hend
        simp only [seen, List.any_cons, Bool.or_eq_false_iff] at h ⊢
        exact ⟨h.1, beq_eq_false_iff_ne.mpr hne, h.2⟩

/-- A search that fails has not discovered its target. -/
theorem run_unseen {target : String} {s : Search} (h : seen start s.found target = false)
    (hend : (run g start target s).2 = false) :
    seen start (run g start target s).1.found target = false := by
  induction s using run.induct g start target with
  | case1 s hq =>
    rw [run_of_nil hq]
    exact h
  | case2 s entity queue hq step hstep =>
    rw [run_of_cons hq, if_pos hstep] at hend
    rw [hend] at hstep
    cases hstep
  | case3 s entity queue hq step hstep ih =>
    rw [run_of_cons hq, if_neg hstep] at hend ⊢
    exact ih (explore_unseen h (Bool.not_eq_true _ ▸ hstep)) hend

theorem seen_append (later : List JoinEdge) {earlier : List JoinEdge} {x : String}
    (h : seen start earlier x = true) : seen start (later ++ earlier) x = true := by
  induction later with
  | nil => exact h
  | cons e later ih => exact seen_cons ih

namespace Tree

variable {found : List JoinEdge}

/-- What is discovered later does not change how an entity was reached. -/
theorem trace_append {later earlier : List JoinEdge} (h : Tree g start (later ++ earlier))
    {x : String} (hx : seen start earlier x = true) :
    trace (later ++ earlier) x = trace earlier x := by
  induction later with
  | nil => rfl
  | cons e later ih =>
    cases h with
    | grow hrest _ _ hto =>
      have hne : e.toEntity ≠ x := by
        rintro rfl
        exact absurd hto (Bool.not_eq_false _ ▸ seen_append later hx)
      rw [List.cons_append, trace, if_neg hne]
      exact ih hrest

/-- No hop leads to the start. -/
theorem trace_start (h : Tree g start found) : trace found start = [] := by
  have hall : Tree g start (found ++ []) := by rwa [List.append_nil]
  have htrace := hall.trace_append (seen_start start [])
  rwa [List.append_nil] at htrace

end Tree

theorem spanning_tree (g : Graph) (start : String) : Tree g start (spanning g start) :=
  (run_sound start (.initial g start)).1.tree

/-- A search for another entity succeeds exactly if the complete one discovers it, and then in the
same way. -/
theorem run_of_ne {target : String} (hne : start ≠ target) :
    (run g start target ⟨[], [start]⟩).2 = seen start (spanning g start) target ∧
      ((run g start target ⟨[], [start]⟩).2 = true →
        trace (run g start target ⟨[], [start]⟩).1.found target =
          trace (spanning g start) target) := by
  have hunseen : seen start ([] : List JoinEdge) target = false := by
    simpa [seen] using Ne.symm hne
  rcases run_begins g start target ⟨[], [start]⟩ with heq | ⟨hsome, hsuffix⟩
  · have hfail : (run g start target ⟨[], [start]⟩).2 = false := by
      rw [heq]
      exact run_start _
    have hmissed := run_unseen hunseen hfail
    rw [heq] at hmissed
    refine ⟨hfail.trans hmissed.symm, ?_⟩
    rw [hfail]
    intro hfalse
    cases hfalse
  · have hseen := (run_sound target (Sound.initial g start)).2 hsome
    obtain ⟨later, hlater⟩ := hsuffix
    have htree := spanning_tree g start
    have hspanning : spanning g start = later ++ _ := hlater.symm
    rw [hspanning] at htree ⊢
    refine ⟨hsome.trans (seen_append later hseen).symm, fun _ => ?_⟩
    exact (htree.trace_append hseen).symm

end Search

/-- **Paths are traced in one tree**: there is a path to what the complete search discovers, and it
is the one by which the search reached it. -/
theorem Graph.path?_eq_some_iff {g : Graph} {start target : String} {p : JoinPath} :
    g.path? start target = some p ↔
      g.contains start = true ∧ g.contains target = true ∧
        Search.seen start (Search.spanning g start) target = true ∧
        p = ⟨Search.trace (Search.spanning g start) target⟩ := by
  rw [path?]
  split
  · rename_i hknown
    obtain ⟨hstart, htarget⟩ := Bool.and_eq_true_iff.mp hknown
    split
    · rename_i heq
      subst heq
      rw [(Search.spanning_tree g start).trace_start]
      simp [hstart, Search.seen_start, JoinPath.empty, eq_comm]
    · rename_i hne
      obtain ⟨hfound, htrace⟩ := Search.run_of_ne (g := g) hne
      simp only [hstart, htarget, true_and, ← hfound]
      split
      · rename_i hsome
        simp [hsome, htrace hsome, eq_comm]
      · rename_i hnone
        simp [hnone]
  · rename_i hunknown
    simp only [reduceCtorEq, false_iff]
    rintro ⟨hstart, htarget, -⟩
    exact hunknown (Bool.and_eq_true_iff.mpr ⟨hstart, htarget⟩)

/-! ## Ranks of walks -/

/-- The length of a walk and then the places of its hops. -/
def rank (place : JoinEdge → Nat) (hops : List JoinEdge) : Nat ×ₗ List Nat :=
  toLex (hops.length, hops.map place)

section

variable {place : JoinEdge → Nat} {u v : List JoinEdge}

theorem rank_lt_iff :
    rank place u < rank place v ↔
      u.length < v.length ∨ u.length = v.length ∧ u.map place < v.map place :=
  Prod.Lex.toLex_lt_toLex

theorem lex_append {s t : List Nat} (h : List.Lex (· < ·) s t) (hlength : s.length = t.length)
    (s' t' : List Nat) : List.Lex (· < ·) (s ++ s') (t ++ t') := by
  induction h with
  | nil => cases hlength
  | rel hlt => exact .rel hlt
  | cons _ ih => exact .cons (ih (Nat.succ.inj hlength))

theorem rank_nil_lt (hops : List JoinEdge) (e : JoinEdge) :
    rank place [] < rank place (hops ++ [e]) := by
  rw [rank_lt_iff]
  exact .inl (by simp)

/-- Whatever hop comes next, the walk of the lower rank stays the one of the lower rank. -/
theorem rank_concat_lt (h : rank place u < rank place v) (e f : JoinEdge) :
    rank place (u ++ [e]) < rank place (v ++ [f]) := by
  rw [rank_lt_iff] at h ⊢
  simp only [List.length_append, List.length_singleton, List.map_append]
  rcases h with hlt | ⟨heq, hlex⟩
  · exact .inl (Nat.succ_lt_succ hlt)
  · refine .inr ⟨congrArg Nat.succ heq, ?_⟩
    exact lex_append hlex (by simpa using heq) _ _

theorem rank_concat_le (h : rank place u ≤ rank place v) (e : JoinEdge) :
    rank place (u ++ [e]) ≤ rank place (v ++ [e]) := by
  rcases h.lt_or_eq with hlt | heq
  · exact (rank_concat_lt hlt e e).le
  · obtain ⟨hlength, hplaces⟩ := Prod.mk.inj (toLex.injective heq)
    have hsame : rank place (u ++ [e]) = rank place (v ++ [e]) := by
      simp [rank, hlength, hplaces]
    exact hsame.le

theorem rank_concat_lt_of_place {e f : JoinEdge} (h : place e < place f) (hops : List JoinEdge) :
    rank place (hops ++ [e]) < rank place (hops ++ [f]) := by
  rw [rank_lt_iff, List.map_append, List.map_append]
  refine .inr ⟨?_, List.Lex.append_left _ (.rel h) _⟩
  rw [List.length_append, List.length_append, List.length_singleton, List.length_singleton]

end

/-- The hops from each entity are explored in the order of their places. -/
def Graph.Places (g : Graph) (place : JoinEdge → Nat) : Prop :=
  ∀ a before e after, g.outgoing a = before ++ e :: after → e ∉ before →
    ∀ f ∈ before, place f < place e

namespace Search

/-! ## The order of discovery -/

/-- The discovered entities in the order of their discovery. -/
def discovered (start : String) (found : List JoinEdge) : List String :=
  start :: found.reverse.map JoinEdge.toEntity

theorem discovered_cons (start : String) (e : JoinEdge) (found : List JoinEdge) :
    discovered start (e :: found) = discovered start found ++ [e.toEntity] := by
  simp [discovered]

theorem mem_discovered {start x : String} {found : List JoinEdge} :
    x ∈ discovered start found ↔ seen start found x = true := by
  rw [seen_iff, discovered, List.mem_cons, List.map_reverse, List.mem_reverse]

namespace Tree

variable {g : Graph} {start : String} {found : List JoinEdge}

/-- An entity is reached by the hop that discovered it. -/
theorem trace_of_mem (h : Tree g start found) {e : JoinEdge} (he : e ∈ found) :
    trace found e.toEntity = trace found e.fromEntity ++ [e] := by
  obtain ⟨later, earlier, rfl⟩ := List.append_of_mem he
  have hfrom := h.seen_of_append
  have hto : seen start (e :: earlier) e.toEntity = true := by simp [seen]
  have hlast : trace (e :: earlier) e.toEntity = trace earlier e.fromEntity ++ [e] := by
    rw [trace, if_pos rfl]
  have hsplit : later ++ e :: earlier = (later ++ [e]) ++ earlier := by simp
  rw [h.trace_append hto, hlast]
  rw [hsplit] at h ⊢
  rw [h.trace_append hfrom]

end Tree

variable {g : Graph} {start : String} {place : JoinEdge → Nat} {explored found : List JoinEdge}

/-- The hops `explored` have been explored and those in `found` have discovered entities, in the
order of the ranks by which these are reached. -/
structure Ranked (g : Graph) (start : String) (place : JoinEdge → Nat)
    (explored found : List JoinEdge) : Prop where
  tree : Tree g start found
  mem : ∀ e ∈ found, e ∈ explored
  seen : ∀ e ∈ explored, seen start found e.fromEntity = true ∧ seen start found e.toEntity = true
  sorted : (discovered start found).Pairwise fun x y =>
    rank place (trace found x) < rank place (trace found y)
  /-- No explored hop leads to an entity in a better way than the one by which it is reached. -/
  least : ∀ e ∈ explored,
    rank place (trace found e.toEntity) ≤ rank place (trace found e.fromEntity ++ [e])

namespace Ranked

theorem initial (g : Graph) (start : String) (place : JoinEdge → Nat) :
    Ranked g start place [] [] := by
  refine ⟨.root, ?_, ?_, List.pairwise_singleton _ _, ?_⟩
  all_goals simp

/-- All hops explored so far come before the hop: they start from an entity of a lower rank, or else
have a lower place. -/
def Before (place : JoinEdge → Nat) (explored found : List JoinEdge) (e : JoinEdge) : Prop :=
  ∀ f ∈ explored, rank place (trace found f.fromEntity) < rank place (trace found e.fromEntity) ∨
    (f.fromEntity = e.fromEntity ∧ place f < place e)

/-- What has been discovered has a lower rank than what the next hop leads to. -/
theorem lt_of_seen (h : Ranked g start place explored found) {e : JoinEdge}
    (hbefore : Before place explored found e) {x : String}
    (hx : Search.seen start found x = true) :
    rank place (trace found x) < rank place (trace found e.fromEntity ++ [e]) := by
  rcases seen_iff.mp hx with rfl | hmem
  · rw [h.tree.trace_start]
    exact rank_nil_lt _ e
  · obtain ⟨f, hf, rfl⟩ := List.mem_map.mp hmem
    rw [h.tree.trace_of_mem hf]
    rcases hbefore f (h.mem f hf) with hlt | ⟨hfrom, hplace⟩
    · exact rank_concat_lt hlt f e
    · rw [hfrom]
      exact rank_concat_lt_of_place hplace _

/-- A hop to a discovered entity leaves all as it is. -/
theorem pass (h : Ranked g start place explored found) {e : JoinEdge}
    (hfrom : Search.seen start found e.fromEntity = true)
    (hto : Search.seen start found e.toEntity = true)
    (hbefore : e ∉ explored → Before place explored found e) :
    Ranked g start place (explored ++ [e]) found := by
  have hleast : rank place (trace found e.toEntity) ≤
      rank place (trace found e.fromEntity ++ [e]) := by
    by_cases hknown : e ∈ explored
    · exact h.least e hknown
    · exact (h.lt_of_seen (hbefore hknown) hto).le
  refine ⟨h.tree, fun f hf => List.mem_append_left _ (h.mem f hf), ?_, h.sorted, ?_⟩
  · intro f hf
    rcases List.mem_append.mp hf with hf | hf
    · exact h.seen f hf
    · rw [List.mem_singleton.mp hf]
      exact ⟨hfrom, hto⟩
  · intro f hf
    rcases List.mem_append.mp hf with hf | hf
    · exact h.least f hf
    · rw [List.mem_singleton.mp hf]
      exact hleast

/-- A hop to a new entity discovers it with the highest rank so far. -/
theorem discover (h : Ranked g start place explored found) {e : JoinEdge} (he : e ∈ g.edges)
    (hfrom : Search.seen start found e.fromEntity = true)
    (hto : Search.seen start found e.toEntity = false)
    (hbefore : Before place explored found e) :
    Ranked g start place (explored ++ [e]) (e :: found) := by
  have htree : Tree g start (e :: found) := .grow h.tree he hfrom hto
  have hgrown : Tree g start ([e] ++ found) := htree
  have hkept : ∀ {x}, Search.seen start found x = true → trace (e :: found) x = trace found x :=
    fun hx => hgrown.trace_append hx
  have hnew : trace (e :: found) e.toEntity = trace found e.fromEntity ++ [e] := by
    rw [trace, if_pos rfl]
  refine ⟨htree, ?_, ?_, ?_, ?_⟩
  · intro f hf
    rcases List.mem_cons.mp hf with rfl | hf
    · exact List.mem_append_right _ (List.mem_singleton_self f)
    · exact List.mem_append_left _ (h.mem f hf)
  · intro f hf
    rcases List.mem_append.mp hf with hf | hf
    · exact ⟨seen_cons (h.seen f hf).1, seen_cons (h.seen f hf).2⟩
    · rw [List.mem_singleton.mp hf]
      exact ⟨seen_cons hfrom, by simp [Search.seen]⟩
  · rw [discovered_cons, List.pairwise_append]
    refine ⟨?_, List.pairwise_singleton _ _, ?_⟩
    · refine h.sorted.imp_of_mem fun hx hy hlt => ?_
      rw [hkept (mem_discovered.mp hx), hkept (mem_discovered.mp hy)]
      exact hlt
    · intro x hx y hy
      rw [List.mem_singleton.mp hy, hnew, hkept (mem_discovered.mp hx)]
      exact h.lt_of_seen hbefore (mem_discovered.mp hx)
  · intro f hf
    rcases List.mem_append.mp hf with hf | hf
    · rw [hkept (h.seen f hf).1, hkept (h.seen f hf).2]
      exact h.least f hf
    · rw [List.mem_singleton.mp hf, hnew, hkept hfrom]

/-- Hops of the same entity come before the next one by their places, all others by their ranks. -/
theorem before_next (hplaces : g.Places place) {before queue : List String}
    {done rest : List JoinEdge} {e : JoinEdge} (hout : g.outgoing e.fromEntity = done ++ e :: rest)
    (h : Ranked g start place (before.flatMap g.outgoing ++ done) found)
    (horder : discovered start found = before ++ e.fromEntity :: queue)
    (hnew : e ∉ before.flatMap g.outgoing ++ done) :
    Before place (before.flatMap g.outgoing ++ done) found e := by
  intro f hf
  rcases List.mem_append.mp hf with hf | hf
  · obtain ⟨x, hx, hf⟩ := List.mem_flatMap.mp hf
    have hsorted := h.sorted
    rw [horder, List.pairwise_append] at hsorted
    rw [eq_of_beq (List.mem_filter.mp hf).2]
    exact .inl (hsorted.2.2 x hx _ (List.mem_cons_self ..))
  · have hfmem : f ∈ g.outgoing e.fromEntity := hout ▸ List.mem_append_left _ hf
    refine .inr ⟨eq_of_beq (List.mem_filter.mp hfmem).2, ?_⟩
    exact hplaces _ done e rest hout (fun hdone => hnew (List.mem_append_right _ hdone)) f hf

end Ranked

/-- Exploring the hops of an entity, all those of the entities discovered before it having been
explored. -/
theorem explore_ranked (hplaces : g.Places place) {entity : String} {before : List String}
    {edges done : List JoinEdge} {s : Search} (hout : g.outgoing entity = done ++ edges)
    (h : Ranked g start place (before.flatMap g.outgoing ++ done) s.found)
    (horder : discovered start s.found = before ++ entity :: s.queue) :
    Ranked g start place ((before ++ [entity]).flatMap g.outgoing)
        (explore start start edges s).1.found ∧
      discovered start (explore start start edges s).1.found =
        before ++ entity :: (explore start start edges s).1.queue := by
  induction edges generalizing done s with
  | nil =>
    rw [List.append_nil] at hout
    refine ⟨?_, horder⟩
    rw [List.flatMap_append, List.flatMap_singleton, hout]
    exact h
  | cons e rest ih =>
    have hmem : e ∈ g.outgoing entity := hout ▸ List.mem_append_right _ (List.mem_cons_self ..)
    obtain ⟨he, hfrom⟩ := List.mem_filter.mp hmem
    obtain rfl : e.fromEntity = entity := eq_of_beq hfrom
    have hseen : seen start s.found e.fromEntity = true := by
      rw [← mem_discovered, horder]
      exact List.mem_append_right _ (List.mem_cons_self ..)
    have hbefore := h.before_next hplaces hout horder
    have hout' : g.outgoing e.fromEntity = (done ++ [e]) ++ rest := by
      rw [hout, List.append_assoc, List.singleton_append]
    rw [explore]
    split
    · rename_i hto
      refine ih hout' ?_ horder
      rw [← List.append_assoc]
      exact h.pass hseen hto hbefore
    · rename_i hto
      have hto : seen start s.found e.toEntity = false := Bool.not_eq_true _ ▸ hto
      have hne : e.toEntity ≠ start := by
        intro heq
        rw [heq, seen_start] at hto
        cases hto
      have hnew : e ∉ before.flatMap g.outgoing ++ done := by
        intro hold
        rw [(h.seen e hold).2] at hto
        cases hto
      simp only [if_neg hne]
      refine ih hout' ?_ ?_
      · rw [← List.append_assoc]
        exact h.discover he hseen hto (hbefore hnew)
      · rw [discovered_cons, horder, List.append_assoc, List.cons_append]

/-- A complete search explores the hops of all that it discovers. -/
theorem run_ranked (hplaces : g.Places place) (s : Search) :
    ∀ before : List String, Ranked g start place (before.flatMap g.outgoing) s.found →
      discovered start s.found = before ++ s.queue →
      Ranked g start place
        ((discovered start (run g start start s).1.found).flatMap g.outgoing)
        (run g start start s).1.found := by
  induction s using run.induct g start start with
  | case1 s hq =>
    intro before h horder
    rw [run_of_nil hq]
    rw [hq, List.append_nil] at horder
    rw [horder]
    exact h
  | case2 s entity queue hq step =>
    rename_i hstep
    rw [explore_start] at hstep
    cases hstep
  | case3 s entity queue hq step hstep =>
    rename_i ih
    intro before h horder
    rw [run_of_cons hq, if_neg hstep]
    rw [hq] at horder
    rw [← List.append_nil (before.flatMap _)] at h
    obtain ⟨hexplored, horder'⟩ :=
      explore_ranked hplaces (s := ⟨s.found, queue⟩) (List.nil_append _).symm h horder
    refine ih _ hexplored ?_
    rw [horder', List.append_assoc, List.singleton_append]

theorem spanning_ranked (hplaces : g.Places place) (start : String) :
    Ranked g start place ((discovered start (spanning g start)).flatMap g.outgoing)
      (spanning g start) :=
  run_ranked hplaces ⟨[], [start]⟩ [] (.initial g start place) rfl

/-- **First discoveries are best**: whatever a walk from the start leads to has been discovered, and
the walk does not have a lower rank than the hops by which it was reached. -/
theorem spanning_least (hplaces : g.Places place) {x : String} {hops : List JoinEdge}
    (hwalk : g.Walk start hops x) :
    seen start (spanning g start) x = true ∧
      rank place (trace (spanning g start) x) ≤ rank place hops := by
  have hranked := spanning_ranked hplaces start
  -- on the walk that is left, behind hops that lead to a discovered entity
  have hrest : ∀ {a : String} {rest : List JoinEdge}, g.Walk a rest x →
      ∀ passed : List JoinEdge, seen start (spanning g start) a = true →
        rank place (trace (spanning g start) a) ≤ rank place passed →
        seen start (spanning g start) x = true ∧
          rank place (trace (spanning g start) x) ≤ rank place (passed ++ rest) := by
    intro a rest hw
    induction hw with
    | stay a =>
      intro passed hseen hle
      rw [List.append_nil]
      exact ⟨hseen, hle⟩
    | @hop e rest b he _ ih =>
      intro passed hseen hle
      have hexplored : e ∈ (discovered start (spanning g start)).flatMap g.outgoing := by
        refine List.mem_flatMap.mpr ⟨e.fromEntity, mem_discovered.mpr hseen, ?_⟩
        exact List.mem_filter.mpr ⟨he, beq_self_eq_true _⟩
      rw [← List.singleton_append, ← List.append_assoc]
      refine ih hwalk (passed ++ [e]) (hranked.seen e hexplored).2 ?_
      exact (hranked.least e hexplored).trans (rank_concat_le hle e)
  have hstart : rank place (trace (spanning g start) start) ≤ rank place [] := by
    rw [(spanning_tree g start).trace_start]
  exact hrest hwalk [] (seen_start start _) hstart

end Search

end ReportSql.Join
