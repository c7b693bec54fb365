import ReportSql.Join.Search

/-!
# What a search has found

The hops that a search has found form a tree that grows from its start: each of them leads from an
entity discovered before to an entity discovered by it. The tree is the invariant of the search; it
makes the traced hops a walk, and a join plan, which grows in the same way, joins each entity once
and behind the one that it is joined to.
-/

namespace ReportSql.Join

open ReportSql.Catalog

/-! ## Walks -/

/-- The hops of the graph lead from one entity to another. -/
inductive Graph.Walk (g : Graph) : String → List JoinEdge → String → Prop where
  | stay (a : String) : Walk g a [] a
  | hop {e : JoinEdge} {rest : List JoinEdge} {b : String} : e ∈ g.edges →
      Walk g e.toEntity rest b → Walk g e.fromEntity (e :: rest) b

namespace Graph.Walk

variable {g : Graph} {a : String} {hops : List JoinEdge}

theorem snoc {e : JoinEdge} (h : g.Walk a hops e.fromEntity) (he : e ∈ g.edges) :
    g.Walk a (hops ++ [e]) e.toEntity := by
  generalize hb : e.fromEntity = b at h
  induction h with
  | stay a =>
    subst hb
    exact .hop he (.stay _)
  | hop hx _ ih => exact .hop hx (ih hb)

end Graph.Walk

namespace Search

variable {g : Graph} {start : String}

/-! ## Discovered entities -/

theorem seen_iff {found : List JoinEdge} {x : String} :
    seen start found x = true ↔ x = start ∨ x ∈ found.map JoinEdge.toEntity := by
  simp [seen]

theorem seen_start (start : String) (found : List JoinEdge) : seen start found start = true :=
  seen_iff.mpr (.inl rfl)

theorem seen_reverse (found : List JoinEdge) (x : String) :
    seen start found.reverse x = seen start found x := by
  simp [seen]

/-- Hops by which entities are discovered, the latest first. -/
inductive Tree (g : Graph) (start : String) : List JoinEdge → Prop where
  | root : Tree g start []
  | grow {e : JoinEdge} {earlier : List JoinEdge} : Tree g start earlier → e ∈ g.edges →
      seen start earlier e.fromEntity = true → seen start earlier e.toEntity = false →
      Tree g start (e :: earlier)

namespace Tree

variable {found : List JoinEdge}

theorem mem_edges (h : Tree g start found) : ∀ e ∈ found, e ∈ g.edges := by
  induction h with
  | root => simp
  | grow _ he _ _ ih =>
    intro x hx
    rcases List.mem_cons.mp hx with rfl | hx
    · exact he
    · exact ih x hx

/-- No entity is discovered twice. -/
theorem nodup (h : Tree g start found) : (start :: found.map JoinEdge.toEntity).Nodup := by
  induction h with
  | root => simp
  | @grow e earlier _ _ _ hto ih =>
    have hnew : ¬(e.toEntity = start ∨ e.toEntity ∈ earlier.map JoinEdge.toEntity) := by
      rw [← seen_iff, hto]
      exact Bool.false_ne_true
    rw [List.nodup_cons] at ih
    simp only [List.map_cons, List.nodup_cons, List.mem_cons, not_or] at hnew ⊢
    exact ⟨⟨Ne.symm hnew.1, ih.1⟩, hnew.2, ih.2⟩

/-- A hop starts from an entity that was discovered before it. -/
theorem seen_of_append {later earlier : List JoinEdge} {e : JoinEdge}
    (h : Tree g start (later ++ e :: earlier)) : seen start earlier e.fromEntity = true := by
  induction later with
  | nil =>
    cases h with
    | grow _ _ hfrom _ => exact hfrom
  | cons x later ih =>
    cases h with
    | grow hrest _ _ _ => exact ih hrest

/-- The hops traced back from a discovered entity lead to it. -/
theorem walk_trace (h : Tree g start found) {x : String} (hx : seen start found x = true) :
    g.Walk start (trace found x) x := by
  induction h generalizing x with
  | root =>
    obtain rfl : x = start := by simpa [seen] using hx
    exact .stay x
  | @grow e earlier _ he hfrom hto ih =>
    rw [trace]
    split
    · -- the hop that discovered the entity: its start was discovered earlier
      rename_i heq
      subst heq
      exact (ih hfrom).snoc he
    · rename_i hne
      refine ih (seen_iff.mpr ?_)
      rcases seen_iff.mp hx with rfl | hmem
      · exact .inl rfl
      · rcases List.mem_cons.mp hmem with rfl | hmem
        · exact absurd rfl hne
        · exact .inr hmem

end Tree

/-! ## The search -/

/-- A search under way has found a tree, and only discovered entities are queued. -/
structure Sound (g : Graph) (start : String) (s : Search) : Prop where
  tree : Tree g start s.found
  queued : ∀ x ∈ s.queue, seen start s.found x = true

theorem Sound.initial (g : Graph) (start : String) : Sound g start ⟨[], [start]⟩ := by
  refine ⟨.root, ?_⟩
  intro x hx
  rw [List.mem_singleton.mp hx]
  exact seen_start start []

/-- A hop from a discovered entity to a new one. -/
theorem Sound.discover {s : Search} (h : Sound g start s) {e : JoinEdge} (he : e ∈ g.edges)
    (hfrom : seen start s.found e.fromEntity = true)
    (hto : seen start s.found e.toEntity = false) :
    Sound g start ⟨e :: s.found, s.queue ++ [e.toEntity]⟩ := by
  refine ⟨.grow h.tree he hfrom hto, ?_⟩
  intro x hx
  rcases List.mem_append.mp hx with hx | hx
  · exact seen_cons (h.queued x hx)
  · rw [List.mem_singleton.mp hx]
    exact seen_iff.mpr (.inr (List.mem_cons_self ..))

theorem explore_sound {target : String} {edges : List JoinEdge} {s : Search}
    (h : Sound g start s)
    (hedges : ∀ e ∈ edges, e ∈ g.edges ∧ seen start s.found e.fromEntity = true) :
    Sound g start (explore start target edges s).1 ∧
      ((explore start target edges s).2 = true →
        seen start (explore start target edges s).1.found target = true) := by
  induction edges generalizing s with
  | nil =>
    refine ⟨h, ?_⟩
    intro hfalse
    cases hfalse
  | cons e rest ih =>
    obtain ⟨he, hfrom⟩ := hedges e (List.mem_cons_self ..)
    have hrest := fun x hx => hedges x (List.mem_cons_of_mem _ hx)
    rw [explore]
    split
    · exact ih h hrest
    · rename_i hto
      have hnext := h.discover he hfrom (Bool.not_eq_true _ ▸ hto)
      simp only
      split
      · rename_i heq
        refine ⟨hnext, fun _ => ?_⟩
        exact seen_iff.mpr (.inr (heq ▸ List.mem_cons_self ..))
      · refine ih hnext fun x hx => ?_
        exact ⟨(hrest x hx).1, seen_cons (hrest x hx).2⟩

theorem run_of_nil {target : String} {s : Search} (hq : s.queue = []) :
    run g start target s = (s, false) := by
  rw [run]
  split
  · rfl
  · rename_i hq'
    rw [hq] at hq'
    cases hq'

/-- One step of the search explores the hops of the first entity in the queue. -/
theorem run_of_cons {target entity : String} {queue : List String} {s : Search}
    (hq : s.queue = entity :: queue) :
    run g start target s =
      if (explore start target (g.outgoing entity) ⟨s.found, queue⟩).2 then
        explore start target (g.outgoing entity) ⟨s.found, queue⟩
      else run g start target (explore start target (g.outgoing entity) ⟨s.found, queue⟩).1 := by
  rw [run]
  split
  · rename_i hq'
    rw [hq] at hq'
    cases hq'
  · rename_i hq'
    rw [hq] at hq'
    cases hq'
    rfl

/-- The hops of the first entity in the queue keep a sound search sound. -/
theorem Sound.step {target entity : String} {queue : List String} {s : Search}
    (h : Sound g start s) (hq : s.queue = entity :: queue) :
    Sound g start (explore start target (g.outgoing entity) ⟨s.found, queue⟩).1 ∧
      ((explore start target (g.outgoing entity) ⟨s.found, queue⟩).2 = true →
        seen start (explore start target (g.outgoing entity) ⟨s.found, queue⟩).1.found target
          = true) := by
  have hentity : seen start s.found entity = true := h.queued entity (hq ▸ List.mem_cons_self ..)
  have hqueue : Sound g start ⟨s.found, queue⟩ :=
    ⟨h.tree, fun x hx => h.queued x (hq ▸ List.mem_cons_of_mem _ hx)⟩
  refine explore_sound hqueue fun e he => ?_
  obtain ⟨he, hfrom⟩ := List.mem_filter.mp he
  rw [eq_of_beq hfrom]
  exact ⟨he, hentity⟩

/-- A search stays sound; if it succeeds, the target is discovered. -/
theorem run_sound (target : String) {s : Search} (h : Sound g start s) :
    Sound g start (run g start target s).1 ∧
      ((run g start target s).2 = true →
        seen start (run g start target s).1.found target = true) := by
  -- on the steps of the search, by the recursion of `run`
  induction s using run.induct g start target with
  | case1 s hq =>
    rw [run_of_nil hq]
    refine ⟨h, ?_⟩
    intro hfalse
    cases hfalse
  | case2 s entity queue hq step hstep =>
    rw [run_of_cons hq, if_pos hstep]
    exact h.step hq
  | case3 s entity queue hq step hstep ih =>
    rw [run_of_cons hq, if_neg hstep]
    exact ih (h.step hq).1

end Search

/-- **Paths lead to their target**: a path that is found is a walk along hops of the graph. -/
theorem Graph.walk_of_path? {g : Graph} {start target : String} {p : JoinPath}
    (h : g.path? start target = some p) : g.Walk start p.edges target := by
  rw [path?] at h
  split at h
  · split at h
    · rename_i heq
      cases h
      subst heq
      exact .stay start
    · simp only at h
      split at h
      · rename_i hfound
        cases h
        obtain ⟨hsound, hseen⟩ := Search.run_sound target (Search.Sound.initial g start)
        exact hsound.tree.walk_trace (hseen hfound)
      · cases h
  · cases h

end ReportSql.Join
