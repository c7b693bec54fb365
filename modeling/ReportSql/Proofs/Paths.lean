import Mathlib.Data.List.Forall2
import ReportSql.Catalog.Telematics
import ReportSql.Proofs.Catalog
import ReportSql.Proofs.Exploration

/-!
# Shortest paths along declared relationships

A chain follows relationships that its entities declare, from one entity to the next. There is a
path between two entities exactly if a chain leads from one to the other; the path is a chain with
the fewest hops, and among these the one whose relationships are declared first, compared hop by hop
from the start.
-/

namespace ReportSql.Catalog

open ReportSql.Join

variable {entities : List Entity}

/-! ## Chains of relationships -/

/-- The hop goes along the relationship at the given place in the list of the entity that it starts
from. -/
def DeclaredAt (entities : List Entity) (e : JoinEdge) (place : Nat) : Prop :=
  ∃ x ∈ entities, ∃ rel, x.relationships[place]? = some rel ∧ e = .ofRelationship x.id rel

/-- The hops go along declared relationships, in their direction, and lead from one entity to
another. -/
inductive Chain (entities : List Entity) : String → List JoinEdge → String → Prop where
  | stay (a : String) : Chain entities a [] a
  | hop {e : JoinEdge} {place : Nat} {rest : List JoinEdge} {b : String} :
      DeclaredAt entities e place → Chain entities e.toEntity rest b →
      Chain entities e.fromEntity (e :: rest) b

/-- A chain with no more hops than any other between its ends. -/
def ShortestChain (entities : List Entity) (start : String) (hops : List JoinEdge)
    (target : String) : Prop :=
  Chain entities start hops target ∧
    ∀ others, Chain entities start others target → hops.length ≤ others.length

theorem mem_edges_ofEntities {e : JoinEdge} :
    e ∈ (Graph.ofEntities entities).edges ↔
      (∃ place, DeclaredAt entities e place) ∧ e.toEntity ∈ entities.map Entity.id := by
  simp only [Graph.ofEntities, Graph.edgesOf, List.mem_flatMap, List.mem_map, List.mem_filter,
    List.contains_iff_mem, DeclaredAt]
  constructor
  · rintro ⟨x, hx, rel, ⟨hrel, htarget⟩, rfl⟩
    obtain ⟨place, hplace⟩ := List.mem_iff_getElem?.mp hrel
    exact ⟨⟨place, x, hx, rel, hplace, rfl⟩, htarget⟩
  · rintro ⟨⟨place, x, hx, rel, hplace, rfl⟩, htarget⟩
    exact ⟨x, hx, rel, ⟨List.mem_of_getElem? hplace, htarget⟩, rfl⟩

theorem contains_ofEntities {x : String} :
    (Graph.ofEntities entities).contains x = true ↔ x ∈ entities.map Entity.id := by
  rw [Graph.contains, List.contains_iff_mem]
  rfl

namespace Chain

variable {a b : String} {hops : List JoinEdge}

/-- A chain that ends at an entity passes nothing but entities, and the graph has all its hops. -/
theorem walk (h : Chain entities a hops b) (hb : b ∈ entities.map Entity.id) :
    a ∈ entities.map Entity.id ∧ (Graph.ofEntities entities).Walk a hops b := by
  induction h with
  | stay a => exact ⟨hb, .stay a⟩
  | hop hdeclared _ ih =>
    obtain ⟨hto, hwalk⟩ := ih hb
    refine ⟨?_, .hop (mem_edges_ofEntities.mpr ⟨⟨_, hdeclared⟩, hto⟩) hwalk⟩
    obtain ⟨x, hx, rel, -, rfl⟩ := hdeclared
    exact List.mem_map_of_mem hx

theorem of_walk (h : (Graph.ofEntities entities).Walk a hops b) : Chain entities a hops b := by
  induction h with
  | stay a => exact .stay a
  | hop he _ ih =>
    obtain ⟨⟨place, hdeclared⟩, -⟩ := mem_edges_ofEntities.mp he
    exact .hop hdeclared ih

end Chain

/-! ## Places in lists -/

/-- In a list of which some entries are left out, what comes first still comes first. -/
theorem idxOf_lt_of_filter {kept : JoinEdge → Bool} {all before after : List JoinEdge}
    {e f : JoinEdge} (h : all.filter kept = before ++ e :: after) (he : e ∉ before)
    (hf : f ∈ before) : all.idxOf f < all.idxOf e := by
  have hkept : ∀ x ∈ before ++ e :: after, kept x = true := by
    intro x hx
    exact (List.mem_filter.mp (h ▸ hx)).2
  have hef : e ≠ f := fun heq => he (heq ▸ hf)
  induction all generalizing before with
  | nil => cases before <;> cases h
  | cons x rest ih =>
    rw [List.filter_cons] at h
    split at h
    · cases before with
      | nil => cases hf
      | cons y before =>
        obtain ⟨rfl, hrest⟩ := List.cons.inj h
        have hxe : x ≠ e := fun heq => he (heq ▸ List.mem_cons_self ..)
        rw [List.idxOf_cons_ne _ hxe]
        by_cases hxf : x = f
        · rw [List.idxOf_cons_eq _ hxf]
          exact Nat.succ_pos _
        · rw [List.idxOf_cons_ne _ hxf]
          refine Nat.succ_lt_succ (ih hrest (fun hmem => he (List.mem_cons_of_mem _ hmem)) ?_ ?_)
          · exact (List.mem_cons.mp hf).resolve_left (Ne.symm hxf)
          · exact fun z hz => hkept z (List.mem_cons_of_mem _ hz)
    · rename_i hx
      have hne : ∀ z ∈ before ++ e :: after, x ≠ z := by
        rintro z hz rfl
        exact hx (hkept x hz)
      rw [List.idxOf_cons_ne _ (hne e (by simp)), List.idxOf_cons_ne _ (hne f (by simp [hf]))]
      exact Nat.succ_lt_succ (ih h he hf hkept)

/-- The hops along all relationships that an entity declares, in order. -/
def hopsFrom (entities : List Entity) (a : String) : List JoinEdge :=
  (entities.find? (·.id == a)).toList.flatMap fun x =>
    x.relationships.map (JoinEdge.ofRelationship x.id)

theorem filter_id_eq {a : String} (hids : (entities.map Entity.id).Nodup) :
    entities.filter (·.id == a) = (entities.find? (·.id == a)).toList := by
  induction entities with
  | nil => rfl
  | cons x rest ih =>
    obtain ⟨hx, hrest⟩ := List.nodup_cons.mp hids
    by_cases hid : x.id = a
    · have hnone : rest.filter (·.id == a) = [] := by
        refine List.filter_eq_nil_iff.mpr fun y hy hya => hx ?_
        rw [hid, ← eq_of_beq hya]
        exact List.mem_map_of_mem hy
      simp [hid, hnone]
    · simp [hid, ih hrest]

/-- The graph has the hops that an entity declares, those to unknown entities left out. -/
theorem outgoing_ofEntities (hids : (entities.map Entity.id).Nodup) (a : String) :
    (Graph.ofEntities entities).outgoing a =
      (hopsFrom entities a).filter fun e => (entities.map Entity.id).contains e.toEntity := by
  have hown : ∀ x : Entity,
      (Graph.edgesOf (entities.map Entity.id) x).filter (fun e => e.fromEntity == a) =
        if x.id == a then Graph.edgesOf (entities.map Entity.id) x else [] := by
    intro x
    simp only [Graph.edgesOf, List.filter_map]
    split <;> simp_all [Function.comp_def, JoinEdge.ofRelationship]
  have hsplit : ∀ l : List Entity,
      (l.flatMap fun x => if x.id == a then Graph.edgesOf (entities.map Entity.id) x else []) =
        (l.filter (·.id == a)).flatMap (Graph.edgesOf (entities.map Entity.id)) := by
    intro l
    induction l with
    | nil => rfl
    | cons x rest ih =>
      rw [List.flatMap_cons, ih, List.filter_cons]
      split <;> simp
  have hknown : Graph.edgesOf (entities.map Entity.id) = fun x =>
      (x.relationships.map (JoinEdge.ofRelationship x.id)).filter fun e =>
        (entities.map Entity.id).contains e.toEntity := by
    funext x
    rw [Graph.edgesOf, List.filter_map]
    rfl
  rw [Graph.outgoing, Graph.ofEntities, List.filter_flatMap]
  simp only [hown]
  rw [hsplit, filter_id_eq hids, hknown, hopsFrom, List.filter_flatMap]

theorem declaredAt_iff (hids : (entities.map Entity.id).Nodup) {e : JoinEdge} {place : Nat} :
    DeclaredAt entities e place ↔ (hopsFrom entities e.fromEntity)[place]? = some e := by
  constructor
  · rintro ⟨x, hx, rel, hrel, rfl⟩
    have hfind : entities.find? (·.id == x.id) = some x := find?_id_of_mem hids hx
    simp [hopsFrom, JoinEdge.ofRelationship, hfind, hrel]
  · intro h
    cases hfind : entities.find? (·.id == e.fromEntity) with
    | none => simp [hopsFrom, hfind] at h
    | some x =>
      simp only [hopsFrom, hfind, Option.toList_some, List.flatMap_singleton, List.getElem?_map,
        Option.map_eq_some_iff] at h
      obtain ⟨rel, hrel, rfl⟩ := h
      exact ⟨x, (id_of_find? hfind).1, rel, hrel, rfl⟩

/-- The place at which a hop is declared first. -/
def firstPlace (entities : List Entity) (e : JoinEdge) : Nat :=
  (hopsFrom entities e.fromEntity).idxOf e

theorem firstPlace_le (hids : (entities.map Entity.id).Nodup) {e : JoinEdge} {place : Nat}
    (h : DeclaredAt entities e place) : firstPlace entities e ≤ place := by
  obtain ⟨hlt, hget⟩ := List.getElem?_eq_some_iff.mp ((declaredAt_iff hids).mp h)
  by_contra hle
  have hnot := List.not_of_lt_findIdx (p := (· == e)) (Nat.lt_of_not_le hle)
  simp [hget] at hnot

theorem declaredAt_firstPlace (hids : (entities.map Entity.id).Nodup) {e : JoinEdge} {place : Nat}
    (h : DeclaredAt entities e place) : DeclaredAt entities e (firstPlace entities e) := by
  rw [declaredAt_iff hids] at h ⊢
  exact List.getElem?_idxOf (List.mem_of_getElem? h)

theorem places_firstPlace (hids : (entities.map Entity.id).Nodup) :
    (Graph.ofEntities entities).Places (firstPlace entities) := by
  intro a before e after hout he f hf
  have hmem : ∀ x ∈ before ++ e :: after, x.fromEntity = a := by
    intro x hx
    rw [← hout] at hx
    exact eq_of_beq (List.mem_filter.mp hx).2
  rw [outgoing_ofEntities hids] at hout
  rw [firstPlace, firstPlace, hmem f (List.mem_append_left _ hf), hmem e (by simp)]
  exact idxOf_lt_of_filter hout he hf

end ReportSql.Catalog

namespace ReportSql.Join

/-! ## Paths -/

/-- The entities that hops pass behind an entity are those that the hops lead to. -/
theorem JoinPath.entitiesAfter_eq {g : Graph} {a b : String} {hops : List JoinEdge}
    (h : g.Walk a hops b) :
    JoinPath.entitiesAfter (some a) hops = hops.map JoinEdge.toEntity := by
  induction h with
  | stay a => rfl
  | hop _ _ ih => rw [entitiesAfter, if_pos rfl, List.nil_append, ih, List.map_cons]

/-- A path lists its start and then the entities that its hops lead to. -/
theorem JoinPath.entities_eq {g : Graph} {a b : String} {p : JoinPath} (h : g.Walk a p.edges b)
    (hp : p.edges ≠ []) : p.entities = a :: p.edges.map JoinEdge.toEntity := by
  rw [entities]
  generalize p.edges = hops at h hp ⊢
  cases h with
  | stay a => exact absurd rfl hp
  | hop _ hrest =>
    rw [entitiesAfter, if_neg nofun, entitiesAfter_eq hrest]
    rfl

theorem Search.trace_sublist (found : List JoinEdge) (x : String) :
    (Search.trace found x).Sublist found.reverse := by
  induction found generalizing x with
  | nil => exact .refl _
  | cons e earlier ih =>
    rw [Search.trace, List.reverse_cons]
    split
    · exact (ih e.fromEntity).append (.refl [e])
    · exact (ih x).trans (List.sublist_append_left _ _)

namespace Graph

variable {g : Graph} {start target : String} {p : JoinPath}

/-- A path visits no entity twice. -/
theorem nodup_of_path? (h : g.path? start target = some p) :
    (start :: p.edges.map JoinEdge.toEntity).Nodup := by
  obtain ⟨-, -, -, rfl⟩ := path?_eq_some_iff.mp h
  have hnodup : (start :: (Search.spanning g start).reverse.map JoinEdge.toEntity).Nodup := by
    rw [List.map_reverse]
    exact ((List.reverse_perm _).cons start).nodup_iff.mpr (Search.spanning_tree g start).nodup
  exact hnodup.sublist (((Search.trace_sublist _ target).map JoinEdge.toEntity).cons_cons start)

/-- There is a path wherever hops of the graph lead, and it has no higher rank than they. -/
theorem path?_of_walk {place : JoinEdge → Nat} (hplaces : g.Places place)
    (hstart : g.contains start = true) (htarget : g.contains target = true)
    {hops : List JoinEdge} (h : g.Walk start hops target) :
    ∃ p, g.path? start target = some p ∧ rank place p.edges ≤ rank place hops := by
  obtain ⟨hseen, hle⟩ := Search.spanning_least hplaces h
  exact ⟨_, path?_eq_some_iff.mpr ⟨hstart, htarget, hseen, rfl⟩, hle⟩

theorem places_idxOf (g : Graph) : g.Places (g.edges.idxOf ·) :=
  fun _ _ _ _ hout he _ hf => Catalog.idxOf_lt_of_filter hout he hf

end Graph

end ReportSql.Join

namespace ReportSql.Catalog

open ReportSql.Join

variable {entities : List Entity} {start target : String}

/-- The path is a shortest chain of declared relationships that visits no entity twice, and its
entities are its start and those that its hops lead to; a path that goes nowhere lists none. -/
structure ShortestPath (entities : List Entity) (start target : String) (p : JoinPath) : Prop where
  shortest : ShortestChain entities start p.edges target
  distinct : (start :: p.edges.map JoinEdge.toEntity).Nodup
  entities_eq : p.entities =
    if start = target then [] else start :: p.edges.map JoinEdge.toEntity

theorem length_le_of_rank_le {place : JoinEdge → Nat} {u v : List JoinEdge}
    (h : rank place u ≤ rank place v) : u.length ≤ v.length := by
  rcases Prod.Lex.toLex_le_toLex.mp h with hlt | ⟨heq, -⟩
  · exact hlt.le
  · exact heq.le

theorem map_le_of_rank_le {place : JoinEdge → Nat} {u v : List JoinEdge}
    (h : rank place u ≤ rank place v) (hlength : u.length = v.length) :
    u.map place ≤ v.map place := by
  rcases Prod.Lex.toLex_le_toLex.mp h with hlt | ⟨-, hle⟩
  · exact absurd hlength hlt.ne
  · exact hle

theorem known_of_path? {p : JoinPath}
    (h : (Graph.ofEntities entities).path? start target = some p) :
    start ∈ entities.map Entity.id ∧ target ∈ entities.map Entity.id := by
  obtain ⟨hstart, htarget, -⟩ := Graph.path?_eq_some_iff.mp h
  exact ⟨contains_ofEntities.mp hstart, contains_ofEntities.mp htarget⟩

theorem shortestChain_of_path? {p : JoinPath}
    (h : (Graph.ofEntities entities).path? start target = some p) :
    ShortestChain entities start p.edges target := by
  obtain ⟨hstart, htarget⟩ := known_of_path? h
  refine ⟨.of_walk (Graph.walk_of_path? h), ?_⟩
  intro others hothers
  obtain ⟨-, hwalk⟩ := hothers.walk htarget
  obtain ⟨q, hq, hle⟩ := Graph.path?_of_walk (Graph.places_idxOf _)
    (contains_ofEntities.mpr hstart) (contains_ofEntities.mpr htarget) hwalk
  obtain rfl := Option.some.inj (h.symm.trans hq)
  exact length_le_of_rank_le hle

/-- The hops of a chain follow from the places of its relationships. -/
theorem Chain.eq_of_places (hids : (entities.map Entity.id).Nodup) {hops hops' : List JoinEdge}
    {b b' : String} (h : Chain entities start hops b) (h' : Chain entities start hops' b')
    {places : List Nat} (hplaces : List.Forall₂ (DeclaredAt entities) hops places)
    (hplaces' : List.Forall₂ (DeclaredAt entities) hops' places) : hops = hops' := by
  induction h generalizing hops' places with
  | stay a =>
    cases hplaces
    cases hplaces'
    rfl
  | @hop e place rest b _ _ ih =>
    cases hplaces with
    | cons he hrest =>
      generalize ha : e.fromEntity = a at h'
      cases hplaces' with
      | cons he' hrest' =>
        cases h' with
        | @hop e' _ _ _ _ hchain' =>
          rw [declaredAt_iff hids] at he he'
          rw [ha] at he
          obtain rfl := Option.some.inj (he.symm.trans he')
          rw [ih hchain' hrest hrest']

/-- Each hop of a chain is declared at the place at which it is declared first. -/
theorem Chain.forall₂_firstPlace (hids : (entities.map Entity.id).Nodup) {hops : List JoinEdge}
    {b : String} (h : Chain entities start hops b) :
    List.Forall₂ (DeclaredAt entities) hops (hops.map (firstPlace entities)) := by
  induction h with
  | stay a => exact .nil
  | hop hdeclared _ ih => exact .cons (declaredAt_firstPlace hids hdeclared) ih

theorem le_of_forall₂_le {u v : List Nat} (h : List.Forall₂ (· ≤ ·) u v) : u ≤ v := by
  induction h with
  | nil => exact le_rfl
  | cons hle _ ih =>
    rcases hle.lt_or_eq with hlt | rfl
    · exact (List.cons_lt_cons_iff.mpr (.inl hlt)).le
    · exact List.cons_le_cons _ ih

/-- **Declaration order decides ties.** The path is a shortest chain, and of all shortest chains
between its ends it is the one with the lexicographically least places of declaration. -/
theorem path_is_declared_first (hids : (entities.map Entity.id).Nodup) {p : JoinPath}
    (h : (Graph.ofEntities entities).path? start target = some p) :
    ShortestChain entities start p.edges target ∧
      ∃ places, List.Forall₂ (DeclaredAt entities) p.edges places ∧
        ∀ hops places', ShortestChain entities start hops target →
          List.Forall₂ (DeclaredAt entities) hops places' →
          (hops = p.edges ∧ places' = places) ∨ List.Lex (· < ·) places places' := by
  obtain ⟨hstart, htarget⟩ := known_of_path? h
  have hp := shortestChain_of_path? h
  refine ⟨hp, p.edges.map (firstPlace entities), hp.1.forall₂_firstPlace hids, ?_⟩
  intro hops places' hhops hplaces'
  obtain ⟨q, hq, hle⟩ := Graph.path?_of_walk (places_firstPlace hids)
    (contains_ofEntities.mpr hstart) (contains_ofEntities.mpr htarget) (hhops.1.walk htarget).2
  obtain rfl := Option.some.inj (h.symm.trans hq)
  have hlength : p.edges.length = hops.length := le_antisymm (hp.2 _ hhops.1) (hhops.2 _ hp.1)
  have hfirst : p.edges.map (firstPlace entities) ≤ hops.map (firstPlace entities) :=
    map_le_of_rank_le hle hlength
  have hplaces : hops.map (firstPlace entities) ≤ places' := by
    refine le_of_forall₂_le (List.forall₂_map_left_iff.mpr ?_)
    exact hplaces'.imp fun e place => firstPlace_le hids
  rcases (hfirst.trans hplaces).lt_or_eq with hlt | heq
  · exact .inr hlt
  · have hdeclared := hp.1.forall₂_firstPlace hids
    rw [heq] at hdeclared
    exact .inl ⟨hhops.1.eq_of_places hids hp.1 hplaces' hdeclared, heq.symm⟩

/-- An entity without fields that is related to others, in the given order. -/
def related (id : String) (targets : List String) : Entity where
  id := id
  displayName := id
  displayNamePlural := id
  description := ""
  icon := ""
  color := ""
  category := none
  schema := "s"
  table := id
  fields := []
  relationships := targets.map fun target => ⟨target, .manyToOne, target ++ "_id", "id", .left⟩
  defaultFields := []
  searchableFields := []
  timestampField := none

/-- Two shortest chains lead from `a` to `d`. -/
def diamond : List Entity :=
  [related "a" ["c", "b"], related "b" ["d"], related "c" ["d"], related "d" []]

theorem diamond_path_is_declared_first :
    ∃ p, (Graph.ofEntities diamond).path? "a" "d" = some p ∧ p.entities = ["a", "c", "d"] ∧
      ShortestChain diamond "a" p.edges "d" ∧
      ∃ places, List.Forall₂ (DeclaredAt diamond) p.edges places ∧
        ∀ hops places', ShortestChain diamond "a" hops "d" →
          List.Forall₂ (DeclaredAt diamond) hops places' →
          (hops = p.edges ∧ places' = places) ∨ List.Lex (· < ·) places places' := by
  have hpath : (Graph.ofEntities diamond).path? "a" "d" =
      some ⟨[⟨"a", "c", "c_id", "id", .left, .manyToOne⟩,
        ⟨"c", "d", "d_id", "id", .left, .manyToOne⟩]⟩ := by decide +kernel
  exact ⟨_, hpath, by decide, path_is_declared_first (by decide) hpath⟩

end ReportSql.Catalog
