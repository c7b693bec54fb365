import ReportSql.Join.Graph

/-!
# Shortest paths

A breadth-first search for a path of the least number of hops. Every entity's hops are explored in
the order of their declaration; the hop that discovers an entity first is the one by which it is
reached. The search ends because each step takes an entity from the queue, and what enters the queue
no longer counts as undiscovered.
-/

namespace ReportSql.Join

/-- A search under way: the hops by which entities were discovered, the latest first, and the
discovered entities whose hops have not been explored. -/
structure Search where
  found : List JoinEdge
  queue : List String

namespace Search

/-- Has the entity been discovered in a search from `start`? -/
def seen (start : String) (found : List JoinEdge) (entity : String) : Bool :=
  entity == start || found.any fun e => e.toEntity == entity

/-- Explores hops in order until one of them discovers the target. -/
def explore (start target : String) : List JoinEdge → Search → Search × Bool
  | [], s => (s, false)
  | e :: rest, s =>
    if seen start s.found e.toEntity then explore start target rest s
    else
      let next : Search := ⟨e :: s.found, s.queue ++ [e.toEntity]⟩
      if e.toEntity = target then (next, true) else explore start target rest next

/-- How many hops lead to an entity not yet discovered. -/
def undiscovered (g : Graph) (start : String) (found : List JoinEdge) : Nat :=
  g.edges.countP fun e => !seen start found e.toEntity

theorem seen_cons {start : String} {found : List JoinEdge} {e : JoinEdge} {x : String}
    (h : seen start found x = true) : seen start (e :: found) x = true := by
  simp only [seen, List.any_cons, Bool.or_eq_true] at h ⊢
  rcases h with h | h
  · exact .inl h
  · exact .inr (.inr h)

theorem undiscovered_cons_lt {g : Graph} {start : String} {found : List JoinEdge} {e : JoinEdge}
    (he : e ∈ g.edges) (hs : seen start found e.toEntity = false) :
    undiscovered g start (e :: found) < undiscovered g start found := by
  unfold undiscovered
  have hle : ∀ l : List JoinEdge,
      l.countP (fun x => !seen start (e :: found) x.toEntity)
        ≤ l.countP fun x => !seen start found x.toEntity := by
    intro l
    apply List.countP_mono_left
    intro x _ hx
    cases h : seen start found x.toEntity with
    | false => rfl
    | true => rw [seen_cons h] at hx; exact hx
  obtain ⟨before, after, h⟩ := List.append_of_mem he
  have hnow : seen start (e :: found) e.toEntity = true := by simp [seen]
  rw [h]
  simp only [List.countP_append, List.countP_cons, hs, hnow]
  have := hle before
  have := hle after
  simp
  omega

/-- Exploring never adds to what is left to do: an entity enters the queue only when it is
discovered. -/
theorem explore_remaining (g : Graph) (start target : String) (edges : List JoinEdge) (s : Search)
    (h : ∀ e ∈ edges, e ∈ g.edges) :
    undiscovered g start (explore start target edges s).1.found
        + (explore start target edges s).1.queue.length
      ≤ undiscovered g start s.found + s.queue.length := by
  induction edges generalizing s with
  | nil => exact Nat.le_refl _
  | cons e rest ih =>
    have hrest : ∀ x ∈ rest, x ∈ g.edges := fun x hx => h x (List.mem_cons_of_mem _ hx)
    rw [explore]
    split
    · exact ih s hrest
    · rename_i hs
      have hlt := undiscovered_cons_lt (h e (List.mem_cons_self ..)) (Bool.not_eq_true _ ▸ hs)
      have hnext : undiscovered g start (e :: s.found) + (s.queue ++ [e.toEntity]).length
          ≤ undiscovered g start s.found + s.queue.length := by
        simp only [List.length_append, List.length_cons, List.length_nil]
        omega
      simp only
      split
      · exact hnext
      · exact Nat.le_trans (ih ⟨e :: s.found, s.queue ++ [e.toEntity]⟩ hrest) hnext

/-- Explores the queue until the target is discovered or nothing is left to explore. -/
def run (g : Graph) (start target : String) (s : Search) : Search × Bool :=
  match _hq : s.queue with
  | [] => (s, false)
  | entity :: queue =>
    let step := explore start target (g.outgoing entity) ⟨s.found, queue⟩
    if step.2 then step else run g start target step.1
termination_by undiscovered g start s.found + s.queue.length
decreasing_by
  have hmem : ∀ e ∈ g.outgoing entity, e ∈ g.edges := fun e he => (List.mem_filter.mp he).1
  have hle := explore_remaining g start target (g.outgoing entity) ⟨s.found, queue⟩ hmem
  simp only [_hq, List.length_cons]
  exact Nat.lt_succ_of_le hle

/-- The hops by which an entity was reached, from the start on. The hop that discovered the entity
an earlier hop starts from was itself found earlier. -/
def trace : List JoinEdge → String → List JoinEdge
  | [], _ => []
  | e :: earlier, entity =>
    if e.toEntity = entity then trace earlier e.fromEntity ++ [e] else trace earlier entity

end Search

namespace Graph

/-- A path of the least number of hops between two entities, if there is one. -/
def path? (g : Graph) (start target : String) : Option JoinPath :=
  if g.contains start && g.contains target then
    if start = target then some .empty
    else
      let result := Search.run g start target ⟨[], [start]⟩
      if result.2 then some ⟨Search.trace result.1.found target⟩ else none
  else none

end Graph

end ReportSql.Join
