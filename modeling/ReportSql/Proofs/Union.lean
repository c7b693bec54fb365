import Mathlib.Data.List.Nodup
import ReportSql.Proofs.Paths
import ReportSql.Proofs.Plan

/-!
# A join plan is the union of its paths

All paths from one root are traced in one tree. Two of them therefore agree on every entity that
both reach, and a path to an entity passes nothing but what the paths to the entities on it pass.
This is why a plan may leave out a hop by looking at nothing but the entity that it leads to: the
hop that has joined the entity is the same.
-/

namespace ReportSql.Join

namespace Search

theorem Tree.trace_prefix {g : Graph} {start : String} {found : List JoinEdge}
    (h : Tree g start found) {x : String} {e : JoinEdge} (he : e ∈ trace found x) :
    trace found e.toEntity <+: trace found x := by
  induction h generalizing x with
  | root => cases he
  | @grow f earlier hrest hf hfrom hto ih =>
    have hgrown : Tree g start ([f] ++ earlier) := .grow hrest hf hfrom hto
    -- what an earlier hop leads to is reached as before
    have hearlier : ∀ {y : String}, e ∈ trace earlier y →
        trace (f :: earlier) e.toEntity = trace earlier e.toEntity := by
      intro y hy
      have hmem : e ∈ earlier := List.mem_reverse.mp ((trace_sublist earlier y).subset hy)
      exact hgrown.trace_append (seen_iff.mpr (.inr (List.mem_map_of_mem hmem)))
    by_cases hx : f.toEntity = x
    · subst hx
      have htrace : trace (f :: earlier) f.toEntity = trace earlier f.fromEntity ++ [f] := by
        rw [trace, if_pos rfl]
      rw [htrace] at he
      rcases List.mem_append.mp he with he | he
      · rw [hearlier he, htrace]
        exact (ih he).trans (List.prefix_append _ _)
      · obtain rfl := List.mem_singleton.mp he
        exact List.prefix_rfl
    · have htrace : trace (f :: earlier) x = trace earlier x := by
        rw [trace, if_neg hx]
      rw [htrace] at he ⊢
      rw [hearlier he]
      exact ih he

/-- Each entity is discovered by one hop. -/
theorem Tree.eq_of_toEntity {g : Graph} {start : String} {found : List JoinEdge}
    (h : Tree g start found) {e f : JoinEdge} (he : e ∈ found) (hf : f ∈ found)
    (heq : e.toEntity = f.toEntity) : e = f :=
  List.inj_on_of_nodup_map (List.nodup_cons.mp h.nodup).2 he hf heq

end Search

namespace Graph

variable {g : Graph} {root target : String} {p q : JoinPath} {e f : JoinEdge}

theorem Walk.eq_of_nil {a b : String} (h : g.Walk a [] b) : a = b := by
  cases h
  rfl

/-- All hops of the graph lead to its entities. -/
def Closed (g : Graph) : Prop :=
  ∀ e ∈ g.edges, g.contains e.toEntity = true

/-- The hop is part of a path from the root. -/
def OnPath (g : Graph) (root : String) (e : JoinEdge) : Prop :=
  ∃ target p, g.path? root target = some p ∧ e ∈ p.edges

theorem OnPath.mem_spanning (h : g.OnPath root e) : e ∈ Search.spanning g root := by
  obtain ⟨target, p, hp, he⟩ := h
  obtain ⟨-, -, -, rfl⟩ := path?_eq_some_iff.mp hp
  exact List.mem_reverse.mp ((Search.trace_sublist _ target).subset he)

/-- Paths from one root lead to an entity by the same hop. -/
theorem OnPath.eq_of_toEntity (he : g.OnPath root e) (hf : g.OnPath root f)
    (heq : e.toEntity = f.toEntity) : e = f :=
  (Search.spanning_tree g root).eq_of_toEntity he.mem_spanning hf.mem_spanning heq

/-- No path comes back to its root. -/
theorem OnPath.ne_root (h : g.OnPath root e) : e.toEntity ≠ root := by
  have hroot := (List.nodup_cons.mp (Search.spanning_tree g root).nodup).1
  rintro rfl
  exact hroot (List.mem_map_of_mem h.mem_spanning)

theorem edges_of_path?_root (h : g.path? root root = some p) : p.edges = [] := by
  obtain ⟨-, -, -, rfl⟩ := path?_eq_some_iff.mp h
  exact (Search.spanning_tree g root).trace_start

/-- **A path begins with the paths to all that it passes.** -/
theorem path?_of_mem (hg : g.Closed) (hp : g.path? root target = some p) (he : e ∈ p.edges) :
    ∃ q, g.path? root e.toEntity = some q ∧ e ∈ q.edges ∧ q.edges <+: p.edges := by
  have hspanning : e ∈ Search.spanning g root := OnPath.mem_spanning ⟨target, p, hp, he⟩
  have htree := Search.spanning_tree g root
  obtain ⟨hroot, -, -, rfl⟩ := path?_eq_some_iff.mp hp
  have hseen : Search.seen root (Search.spanning g root) e.toEntity = true :=
    Search.seen_iff.mpr (.inr (List.mem_map_of_mem hspanning))
  refine ⟨_, path?_eq_some_iff.mpr ⟨hroot, hg e (htree.mem_edges e hspanning), hseen, rfl⟩, ?_,
    htree.trace_prefix he⟩
  rw [htree.trace_of_mem hspanning]
  exact List.mem_append_right _ (List.mem_singleton_self e)

end Graph

namespace Plan

variable {g : Graph} {root : String} {plan hops : List JoinEdge} {e : JoinEdge}

open Search (seen seen_iff)

/-- The paths to all that the plan joins are part of the plan. -/
def OfPaths (g : Graph) (root : String) (plan : List JoinEdge) : Prop :=
  ∀ e ∈ plan, ∃ p, g.path? root e.toEntity = some p ∧ e ∈ p.edges ∧ p.edges ⊆ plan

theorem OfPaths.nil : OfPaths g root [] := by
  intro e he
  cases he

theorem OfPaths.onPath (h : OfPaths g root plan) : ∀ e ∈ plan, g.OnPath root e := by
  intro e he
  obtain ⟨p, hp, hmem, -⟩ := h e he
  exact ⟨e.toEntity, p, hp, hmem⟩

/-- **A hop is only left out if the plan has it**, and not another one to the same entity. -/
theorem mem_addHops (hplan : ∀ f ∈ plan, g.OnPath root f) (hhops : ∀ f ∈ hops, g.OnPath root f) :
    e ∈ addHops plan hops root ↔ e ∈ plan ∨ e ∈ hops := by
  induction hops generalizing plan with
  | nil => simp [addHops]
  | cons f rest ih =>
    obtain ⟨hf, hrest⟩ := List.forall_mem_cons.mp hhops
    rw [addHops]
    split
    · rename_i hseen
      have hjoined : f ∈ plan := by
        rcases seen_iff.mp hseen with hroot | hmem
        · exact absurd hroot hf.ne_root
        · obtain ⟨f', hf', heq⟩ := List.mem_map.mp hmem
          rwa [← (hplan f' hf').eq_of_toEntity hf heq]
      rw [ih hplan hrest, List.mem_cons]
      constructor
      · exact Or.imp_right .inr
      · rintro (he | rfl | he)
        · exact .inl he
        · exact .inl hjoined
        · exact .inr he
    · have hboth : ∀ f' ∈ plan ++ [f], g.OnPath root f' := by
        simpa [or_imp, forall_and] using ⟨hplan, hf⟩
      rw [ih hboth hrest]
      simp [or_assoc]

theorem OfPaths.addHops (hg : g.Closed) (h : OfPaths g root plan) {target : String} {p : JoinPath}
    (hp : g.path? root target = some p) :
    OfPaths g root (addHops plan p.edges root) ∧
      ∀ e, e ∈ addHops plan p.edges root ↔ e ∈ plan ∨ e ∈ p.edges := by
  have hmem : ∀ e, e ∈ Plan.addHops plan p.edges root ↔ e ∈ plan ∨ e ∈ p.edges :=
    fun e => mem_addHops h.onPath fun f hf => ⟨target, p, hp, hf⟩
  refine ⟨?_, hmem⟩
  intro e he
  rcases (hmem e).mp he with he | he
  · obtain ⟨q, hq, heq, hsub⟩ := h e he
    exact ⟨q, hq, heq, fun f hf => (hmem f).mpr (.inl (hsub hf))⟩
  · obtain ⟨q, hq, heq, hstarts⟩ := Graph.path?_of_mem hg hp he
    exact ⟨q, hq, heq, fun f hf => (hmem f).mpr (.inr (hstarts.subset hf))⟩

/-- A target that is joined already has a path, unless it is the root, and the plan has it all. -/
theorem OfPaths.of_seen (h : OfPaths g root plan) {target : String}
    (hseen : seen root plan target = true) :
    (target = root ∨ ∃ p, g.path? root target = some p) ∧
      ∀ p, g.path? root target = some p → p.edges ⊆ plan := by
  rcases seen_iff.mp hseen with rfl | hmem
  · refine ⟨.inl rfl, fun p hp => ?_⟩
    rw [Graph.edges_of_path?_root hp]
    exact List.nil_subset _
  · obtain ⟨e, he, rfl⟩ := List.mem_map.mp hmem
    obtain ⟨q, hq, -, hsub⟩ := h e he
    refine ⟨.inr ⟨q, hq⟩, fun p hp => ?_⟩
    obtain rfl := Option.some.inj (hq.symm.trans hp)
    exact hsub

/-- The target has to be joined to the root, but there is no path to it. -/
def unreachable (g : Graph) (root target : String) : Bool :=
  target ≠ root ∧ g.path? root target = none

/-- The next target fails, or the plan gets its path. -/
theorem OfPaths.joinNext (hg : g.Closed) (h : OfPaths g root plan) (target : String) :
    unreachable g root target = true ∧
        (∀ rest, joinAll g root (target :: rest) plan = .error target) ∨
      unreachable g root target = false ∧
        ∃ plan', OfPaths g root plan' ∧
          (∀ rest, joinAll g root (target :: rest) plan = joinAll g root rest plan') ∧
          ∀ e, e ∈ plan' ↔ e ∈ plan ∨ ∃ p, g.path? root target = some p ∧ e ∈ p.edges := by
  cases hseen : seen root plan target with
  | true =>
    obtain ⟨hreached, hsub⟩ := h.of_seen hseen
    refine .inr ⟨?_, plan, h, fun rest => by rw [joinAll, if_pos hseen], fun e => ?_⟩
    · rcases hreached with rfl | ⟨p, hp⟩
      · simp [unreachable]
      · simp [unreachable, hp]
    · constructor
      · exact .inl
      · rintro (he | ⟨p, hp, he⟩)
        · exact he
        · exact hsub p hp he
  | false =>
    have hnew : ¬seen root plan target = true := Bool.not_eq_true _ ▸ hseen
    cases hp : g.path? root target with
    | none =>
      have hne : target ≠ root := by
        rintro rfl
        exact hnew (Search.seen_start _ _)
      refine .inl ⟨by simp [unreachable, hne, hp], fun rest => ?_⟩
      rw [joinAll, if_neg hnew, hp]
    | some p =>
      obtain ⟨hadded, hmem⟩ := h.addHops hg hp
      refine .inr ⟨by simp [unreachable, hp], _, hadded, fun rest => ?_, by simp [hmem]⟩
      rw [joinAll, if_neg hnew, hp]

theorem joinAll_union (hg : g.Closed) {targets : List String} (h : OfPaths g root plan) :
    (∀ t, joinAll g root targets plan = .error t ↔
        targets.find? (unreachable g root) = some t) ∧
      ∀ result, joinAll g root targets plan = .ok result →
        ∀ e, e ∈ result ↔ e ∈ plan ∨
          ∃ t ∈ targets, ∃ p, g.path? root t = some p ∧ e ∈ p.edges := by
  induction targets generalizing plan with
  | nil => simp [joinAll, eq_comm]
  | cons target rest ih =>
    rcases h.joinNext hg target with ⟨hmissed, hfails⟩ | ⟨hreached, plan', hplan', hnext, hmem⟩
    · rw [hfails, List.find?_cons, hmissed]
      refine ⟨fun t => by simp, ?_⟩
      intro result hresult
      cases hresult
    · obtain ⟨herror, hok⟩ := ih hplan'
      rw [hnext, List.find?_cons, hreached]
      refine ⟨herror, fun result hresult e => ?_⟩
      rw [hok result hresult e, hmem e, or_assoc]
      simp

end Plan

namespace Graph

variable {g : Graph} {root : String} {targets : List String} {plan : JoinPath}

/-- Planning from the root joins the targets one after another. -/
theorem joinPlan_eq (g : Graph) (root : String) (targets : List String) :
    g.joinPlan root targets = (Plan.joinAll g root targets []).map JoinPath.mk := by
  obtain ⟨hplan, -⟩ := Plan.addTargets_eq root targets [] (Memo.sound_empty g)
  rw [joinPlan, Memo.joinPlan, ← hplan]

/-- A plan fails with the first target that cannot be joined. -/
theorem joinPlan_eq_error_iff (hg : g.Closed) {t : String} :
    g.joinPlan root targets = .error t ↔ targets.find? (Plan.unreachable g root) = some t := by
  rw [joinPlan_eq, ← (Plan.joinAll_union hg Plan.OfPaths.nil).1 t]
  cases Plan.joinAll g root targets [] <;> simp [Except.map]

theorem mem_joinPlan (hg : g.Closed) (h : g.joinPlan root targets = .ok plan) (e : JoinEdge) :
    e ∈ plan.edges ↔ ∃ t ∈ targets, ∃ p, g.path? root t = some p ∧ e ∈ p.edges := by
  rw [joinPlan_eq] at h
  cases hall : Plan.joinAll g root targets [] with
  | error t => simp [hall, Except.map] at h
  | ok edges =>
    rw [hall] at h
    cases h
    rw [(Plan.joinAll_union hg Plan.OfPaths.nil).2 edges hall e]
    simp

theorem exists_joinPlan_iff (hg : g.Closed) :
    (∃ plan, g.joinPlan root targets = .ok plan) ↔
      ∀ t ∈ targets, t = root ∨ ∃ p, g.path? root t = some p := by
  constructor
  · rintro ⟨plan, hplan⟩ t ht
    have hnone : targets.find? (Plan.unreachable g root) = none := by
      refine Option.eq_none_iff_forall_ne_some.mpr fun t hfind => ?_
      rw [(joinPlan_eq_error_iff hg).mpr hfind] at hplan
      cases hplan
    have hreached := List.find?_eq_none.mp hnone t ht
    rw [Plan.unreachable, decide_eq_true_eq, not_and_or, not_not] at hreached
    exact hreached.imp_right Option.ne_none_iff_exists'.mp
  · intro hall
    cases hplan : g.joinPlan root targets with
    | ok plan => exact ⟨plan, rfl⟩
    | error t =>
      have hfind := (joinPlan_eq_error_iff hg).mp hplan
      have hmissed : Plan.unreachable g root t = true := List.find?_some hfind
      obtain ⟨hne, hnone⟩ := of_decide_eq_true hmissed
      rcases hall t (List.mem_of_find?_eq_some hfind) with heq | ⟨p, hp⟩
      · exact absurd heq hne
      · rw [hnone] at hp
        cases hp

end Graph

end ReportSql.Join

namespace ReportSql.Catalog

open ReportSql.Join

variable {entities : List Entity} {root : String} {targets : List String}

theorem closed_ofEntities (entities : List Entity) : (Graph.ofEntities entities).Closed := by
  intro e he
  exact contains_ofEntities.mpr (mem_edges_ofEntities.mp he).2

/-- The root declares a relationship to the entity. -/
def DirectlyRelated (entities : List Entity) (root target : String) : Prop :=
  target ∈ entities.map Entity.id ∧
    ∃ e place, DeclaredAt entities e place ∧ e.fromEntity = root ∧ e.toEntity = target

/-- The plan consists of the hops of the paths to its targets. It has each of them once, joins each
entity once and behind the one that it is joined to, and never joins the root. Whatever the order
of the targets, there is a plan, and it has the same hops. -/
structure UnionOfPaths (entities : List Entity) (root : String) (targets : List String)
    (plan : JoinPath) : Prop where
  mem_iff : ∀ e, e ∈ plan.edges ↔
    ∃ t ∈ targets, ∃ p, (Graph.ofEntities entities).path? root t = some p ∧ e ∈ p.edges
  nodup : plan.edges.Nodup
  joined_once : (root :: plan.edges.map JoinEdge.toEntity).Nodup
  joined_behind : ∀ before e after, plan.edges = before ++ e :: after →
    e.fromEntity = root ∨ e.fromEntity ∈ before.map JoinEdge.toEntity
  order_free : ∀ targets', targets.Perm targets' →
    ∃ plan', (Graph.ofEntities entities).joinPlan root targets' = .ok plan' ∧
      plan.edges.Perm plan'.edges

/-- The path to a directly related entity takes one hop, and none if the entity is the root. -/
theorem DirectlyRelated.path? {target : String} (h : DirectlyRelated entities root target) :
    ∃ p, (Graph.ofEntities entities).path? root target = some p ∧
      p.edges.map JoinEdge.toEntity = [target].filter (· ≠ root) := by
  obtain ⟨htarget, e, place, hdeclared, hfrom, hto⟩ := h
  have hchain : Chain entities root [e] target := by
    rw [← hfrom, ← hto]
    exact .hop hdeclared (.stay _)
  obtain ⟨hroot, hwalk⟩ := hchain.walk htarget
  obtain ⟨p, hp, hle⟩ := Graph.path?_of_walk (Graph.places_idxOf _)
    (contains_ofEntities.mpr hroot) (contains_ofEntities.mpr htarget) hwalk
  refine ⟨p, hp, ?_⟩
  have hlength : p.edges.length ≤ 1 := length_le_of_rank_le hle
  have hpath := Graph.walk_of_path? hp
  have hdistinct := Graph.nodup_of_path? hp
  generalize p.edges = hops at hlength hpath hdistinct ⊢
  match hops, hpath with
  | [], hpath => simp [hpath.eq_of_nil]
  | [f], hpath =>
    have hend : f.toEntity = target := by
      cases hpath with
      | hop _ hrest => exact hrest.eq_of_nil
    have hne : f.toEntity ≠ root := by simpa [eq_comm] using hdistinct
    rw [List.map_singleton, List.filter_cons_of_pos (by simpa [← hend] using hne), hend,
      List.filter_nil]
  | _ :: _ :: _, _ => simp at hlength

theorem unionOfPaths {plan : JoinPath}
    (h : (Graph.ofEntities entities).joinPlan root targets = .ok plan) :
    UnionOfPaths entities root targets plan := by
  have hg := closed_ofEntities entities
  have hnodup : ∀ {targets plan}, (Graph.ofEntities entities).joinPlan root targets = .ok plan →
      plan.edges.Nodup := by
    intro targets plan hplan
    exact (List.nodup_cons.mp (Graph.joinPlan_grown hplan).1.nodup).2.of_map
  obtain ⟨hgrown, -⟩ := Graph.joinPlan_grown h
  refine ⟨Graph.mem_joinPlan hg h, hnodup h, hgrown.nodup, ?_, ?_⟩
  · intro before e after hplan
    rw [hplan] at hgrown
    exact Search.seen_iff.mp hgrown.seen_of_append
  · intro targets' hperm
    obtain ⟨plan', h'⟩ := (Graph.exists_joinPlan_iff hg).mpr fun t ht =>
      (Graph.exists_joinPlan_iff hg).mp ⟨plan, h⟩ t (hperm.mem_iff.mpr ht)
    refine ⟨plan', h', (List.perm_ext_iff_of_nodup (hnodup h) (hnodup h')).mpr fun e => ?_⟩
    rw [Graph.mem_joinPlan hg h, Graph.mem_joinPlan hg h']
    simp only [hperm.mem_iff]

/-- Directly related targets other than the root take one join each. -/
theorem length_joinPlan_of_directlyRelated {plan : JoinPath} (hnodup : targets.Nodup)
    (hdirect : ∀ t ∈ targets, DirectlyRelated entities root t)
    (h : (Graph.ofEntities entities).joinPlan root targets = .ok plan) :
    plan.edges.length = (targets.filter (· ≠ root)).length := by
  have hunion := unionOfPaths h
  have hperm : (plan.edges.map JoinEdge.toEntity).Perm (targets.filter (· ≠ root)) := by
    refine (List.perm_ext_iff_of_nodup (List.nodup_cons.mp hunion.joined_once).2
      (hnodup.filter _)).mpr fun x => ?_
    have hjoined : x ∈ plan.edges.map JoinEdge.toEntity ↔
        ∃ t ∈ targets, x ∈ [t].filter (· ≠ root) := by
      constructor
      · intro hx
        obtain ⟨e, he, rfl⟩ := List.mem_map.mp hx
        obtain ⟨t, ht, p, hp, he⟩ := (hunion.mem_iff e).mp he
        obtain ⟨q, hq, hpassed⟩ := (hdirect t ht).path?
        obtain rfl := Option.some.inj (hp.symm.trans hq)
        exact ⟨t, ht, hpassed ▸ List.mem_map_of_mem he⟩
      · rintro ⟨t, ht, hx⟩
        obtain ⟨p, hp, hpassed⟩ := (hdirect t ht).path?
        rw [← hpassed] at hx
        obtain ⟨e, he, rfl⟩ := List.mem_map.mp hx
        exact List.mem_map_of_mem ((hunion.mem_iff e).mpr ⟨t, ht, p, hp, he⟩)
    rw [hjoined]
    simp
  rw [← hperm.length_eq, List.length_map]

/-- **A plan is the union of its paths.** It fails with the first target other than the root that no
path leads to. Otherwise it is the union of the paths to its targets; targets that the root is
directly related to take one join each, except for the root, which is joined already. -/
theorem plan_is_union_of_paths (entities : List Entity) (root : String) (targets : List String) :
    (∀ t, (Graph.ofEntities entities).joinPlan root targets = .error t ↔
        targets.find? (fun x => x ≠ root ∧ (Graph.ofEntities entities).path? root x = none) =
          some t) ∧
      (∀ plan, (Graph.ofEntities entities).joinPlan root targets = .ok plan →
        UnionOfPaths entities root targets plan) ∧
      (targets.Nodup → (∀ t ∈ targets, DirectlyRelated entities root t) →
        ∃ plan, (Graph.ofEntities entities).joinPlan root targets = .ok plan ∧
          plan.edges.length = (targets.filter (· ≠ root)).length) := by
  have hg := closed_ofEntities entities
  refine ⟨fun t => Graph.joinPlan_eq_error_iff hg, fun plan => unionOfPaths, ?_⟩
  intro hnodup hdirect
  obtain ⟨plan, hplan⟩ := (Graph.exists_joinPlan_iff hg).mpr fun t ht =>
    .inr ((hdirect t ht).path?.imp fun p hp => hp.1)
  exact ⟨plan, hplan, length_joinPlan_of_directlyRelated hnodup hdirect hplan⟩

/-- The users of the telematics catalog are directly related to users, but a plan does not join its
root again. -/
theorem self_related_root_is_not_joined :
    ¬ ∀ (entities : List Entity) (root : String) (targets : List String),
      (entities.map Entity.id).Nodup → targets.Nodup →
      (∀ t ∈ targets, DirectlyRelated entities root t) →
      ∃ plan, (Graph.ofEntities entities).joinPlan root targets = .ok plan ∧
        plan.edges.length = targets.length := by
  intro h
  have hdirect : ∀ t ∈ ["users"], DirectlyRelated Telematics.entities "users" t := by
    intro t ht
    obtain rfl := List.mem_singleton.mp ht
    exact ⟨by decide, ⟨"users", "users", "master_id", "user_id", .left, .manyToOne⟩, 0,
      ⟨Telematics.users, by decide +kernel, _, rfl, rfl⟩, rfl, rfl⟩
  obtain ⟨plan, hplan, hlength⟩ :=
    h Telematics.entities "users" ["users"] (by decide) (by decide) hdirect
  have hempty : (Graph.ofEntities Telematics.entities).joinPlan "users" ["users"] =
      .ok ⟨[]⟩ := by rfl
  rw [hempty] at hplan
  cases hplan
  cases hlength

end ReportSql.Catalog
