import ReportSql.Join.Plan
import ReportSql.Proofs.Search

/-!
# What a join plan joins

A memo whose entries are answers of the graph changes no answer, so that a plan may be read as if
every path were searched anew. A plan is a tree that grows from its root, as a search is: each hop
joins an entity that is not joined yet to one that is. The tree reaches all targets.
-/

namespace ReportSql.Join

/-! ## Memos -/

/-- The memo holds nothing but answers that the graph gives. -/
def Memo.Sound (m : Memo) (g : Graph) : Prop :=
  ∀ entry ∈ m.entries, entry.2 = g.path? entry.1.1 entry.1.2

namespace Memo

variable {m : Memo} {g : Graph}

theorem sound_empty (g : Graph) : empty.Sound g := by
  intro entry hentry
  cases hentry

theorem Sound.get?_eq (hm : m.Sound g) {start target : String} {known : Option JoinPath}
    (h : m.get? start target = some known) : known = g.path? start target := by
  obtain ⟨entry, hfind, rfl⟩ := Option.map_eq_some_iff.mp h
  have hkey : entry.1 = (start, target) := by simpa using List.find?_some hfind
  rw [hm entry (List.mem_of_find?_eq_some hfind), hkey]

/-- A path from the memo is the one that a search finds, and asking keeps the memo sound. -/
theorem Sound.path?_eq (hm : m.Sound g) (start target : String) :
    (m.path? g start target).1 = g.path? start target ∧ (m.path? g start target).2.Sound g := by
  unfold Memo.path?
  cases hget : m.get? start target with
  | some known => exact ⟨hm.get?_eq hget, hm⟩
  | none =>
    refine ⟨rfl, ?_⟩
    intro entry hentry
    rcases List.mem_append.mp hentry with hentry | hentry
    · exact hm entry hentry
    · rw [List.mem_singleton.mp hentry]

end Memo

namespace Plan

open Search (seen seen_iff seen_start seen_reverse Tree)

variable {g : Graph} {root : String}

/-- Joins the targets in order, each along a path that is searched anew. -/
def joinAll (g : Graph) (root : String) :
    List String → List JoinEdge → Except String (List JoinEdge)
  | [], plan => .ok plan
  | target :: rest, plan =>
    if seen root plan target then joinAll g root rest plan
    else
      match g.path? root target with
      | none => .error target
      | some path => joinAll g root rest (addHops plan path.edges root)

/-- **The memo changes no plan**, and planning keeps it sound. -/
theorem addTargets_eq (root : String) (targets : List String) (plan : List JoinEdge) {m : Memo}
    (hm : m.Sound g) :
    (addTargets g root targets plan m).1 = joinAll g root targets plan ∧
      (addTargets g root targets plan m).2.Sound g := by
  induction targets generalizing plan m with
  | nil => exact ⟨rfl, hm⟩
  | cons target rest ih =>
    rw [addTargets, joinAll]
    by_cases hseen : seen root plan target = true
    · rw [if_pos hseen, if_pos hseen]
      exact ih plan hm
    · rw [if_neg hseen, if_neg hseen]
      obtain ⟨hpath, hm'⟩ := hm.path?_eq root target
      rcases hres : m.path? g root target with ⟨found, m'⟩
      rw [hres] at hpath hm'
      rw [← hpath]
      cases found with
      | none => exact ⟨rfl, hm'⟩
      | some path => exact ih _ hm'

/-! ## Plans as trees -/

/-- The hops of the plan join entity after entity to the root. -/
def Grown (g : Graph) (root : String) (plan : List JoinEdge) : Prop :=
  Tree g root plan.reverse

theorem Grown.nil : Grown g root [] :=
  .root

theorem Grown.snoc {plan : List JoinEdge} (h : Grown g root plan) {e : JoinEdge}
    (he : e ∈ g.edges) (hfrom : seen root plan e.fromEntity = true)
    (hto : seen root plan e.toEntity = false) : Grown g root (plan ++ [e]) := by
  rw [Grown, List.reverse_concat]
  exact .grow h he (seen_reverse plan _ ▸ hfrom) (seen_reverse plan _ ▸ hto)

/-- Each entity is joined once, and the root never. -/
theorem Grown.nodup {plan : List JoinEdge} (h : Grown g root plan) :
    (root :: plan.map JoinEdge.toEntity).Nodup := by
  have hnodup := Tree.nodup h
  rw [List.map_reverse] at hnodup
  exact ((List.reverse_perm _).cons root).nodup_iff.mp hnodup

/-- What an entity is joined to has been joined before. -/
theorem Grown.seen_of_append {before after : List JoinEdge} {e : JoinEdge}
    (h : Grown g root (before ++ e :: after)) : seen root before e.fromEntity = true := by
  rw [Grown, List.reverse_append, List.reverse_cons, List.append_assoc] at h
  rw [← seen_reverse]
  exact Tree.seen_of_append h

theorem Grown.mem_edges {plan : List JoinEdge} (h : Grown g root plan) :
    ∀ e ∈ plan, e ∈ g.edges :=
  fun e he => Tree.mem_edges h e (List.mem_reverse.mpr he)

theorem seen_append {plan : List JoinEdge} {x : String} (h : seen root plan x = true)
    (more : List JoinEdge) : seen root (plan ++ more) x = true := by
  rw [seen_iff, List.map_append, List.mem_append]
  rcases seen_iff.mp h with h | h
  · exact .inl h
  · exact .inr (.inl h)

/-- Adding a walk from a joined entity keeps the plan a tree and what was joined joined, and joins
the end of the walk. -/
theorem addHops_grown {a b : String} {hops : List JoinEdge} (hwalk : g.Walk a hops b) :
    ∀ {plan : List JoinEdge}, Grown g root plan → seen root plan a = true →
      Grown g root (addHops plan hops root) ∧
        (∀ x, seen root plan x = true → seen root (addHops plan hops root) x = true) ∧
        seen root (addHops plan hops root) b = true := by
  induction hwalk with
  | stay a => exact fun h ha => ⟨h, fun _ hx => hx, ha⟩
  | @hop e rest b he _ ih =>
    intro plan h hfrom
    rw [addHops]
    by_cases hto : seen root plan e.toEntity = true
    · -- a hop is left out only if the walk can go on from an entity that is joined
      rw [if_pos hto]
      exact ih h hto
    · rw [if_neg hto]
      have hnow : seen root (plan ++ [e]) e.toEntity = true := by simp [seen_iff]
      obtain ⟨hgrown, hkept, hend⟩ := ih (h.snoc he hfrom (Bool.not_eq_true _ ▸ hto)) hnow
      exact ⟨hgrown, fun x hx => hkept x (seen_append hx [e]), hend⟩

/-- A plan is a tree that keeps what was joined joined, and joins all targets. -/
theorem joinAll_grown {targets : List String} {plan result : List JoinEdge}
    (h : Grown g root plan) (hok : joinAll g root targets plan = .ok result) :
    Grown g root result ∧ (∀ x, seen root plan x = true → seen root result x = true) ∧
      ∀ t ∈ targets, seen root result t = true := by
  -- on the targets; what is joined for one of them stays joined for the others
  induction targets generalizing plan with
  | nil =>
    cases hok
    refine ⟨h, fun _ hx => hx, ?_⟩
    intro t ht
    cases ht
  | cons target rest ih =>
    rw [joinAll] at hok
    split at hok
    · rename_i hseen
      obtain ⟨hgrown, hkept, hall⟩ := ih h hok
      refine ⟨hgrown, hkept, ?_⟩
      exact List.forall_mem_cons.mpr ⟨hkept target hseen, hall⟩
    · split at hok
      · cases hok
      · rename_i path hpath
        obtain ⟨hadded, hkept, hend⟩ :=
          addHops_grown (Graph.walk_of_path? hpath) h (seen_start root plan)
        obtain ⟨hgrown, hkept', hall⟩ := ih hadded hok
        refine ⟨hgrown, fun x hx => hkept' x (hkept x hx), ?_⟩
        exact List.forall_mem_cons.mpr ⟨hkept' target hend, hall⟩

end Plan

/-! ## Plans of a graph -/

theorem Memo.joinPlan_eq {m : Memo} {g : Graph} (hm : m.Sound g) (root : String)
    (targets : List String) :
    (m.joinPlan g root targets).1 = g.joinPlan root targets ∧
      (m.joinPlan g root targets).2.Sound g := by
  have hplan := Plan.addTargets_eq root targets [] hm
  have hfresh := Plan.addTargets_eq root targets [] (Memo.sound_empty g)
  rw [Graph.joinPlan, Memo.joinPlan, Memo.joinPlan]
  refine ⟨?_, hplan.2⟩
  simp only
  rw [hplan.1, hfresh.1]

/-- A join plan is a tree of hops of the graph that grows from the root and reaches all targets. -/
theorem Graph.joinPlan_grown {g : Graph} {root : String} {targets : List String} {plan : JoinPath}
    (h : g.joinPlan root targets = .ok plan) :
    Plan.Grown g root plan.edges ∧ ∀ t ∈ targets, Search.seen root plan.edges t = true := by
  have hfresh := Plan.addTargets_eq root targets [] (Memo.sound_empty g)
  rw [Graph.joinPlan, Memo.joinPlan] at h
  simp only at h
  rw [hfresh.1] at h
  cases hall : Plan.joinAll g root targets [] with
  | error t =>
    rw [hall] at h
    cases h
  | ok edges =>
    rw [hall] at h
    cases h
    obtain ⟨hgrown, -, hseen⟩ := Plan.joinAll_grown .nil hall
    exact ⟨hgrown, hseen⟩

end ReportSql.Join
