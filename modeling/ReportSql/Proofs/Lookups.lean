import Mathlib.Data.List.Nodup
import ReportSql.Proofs.Defects
import ReportSql.Proofs.Paths

/-!
# Lookups of a registry

A registry answers by id: with entities, with fields of entities, with relationships, and with the
hops that a path search explores. Ids are distinct in a catalog that a registry is built from, so
that an id finds the one part that has it; and all targets are known in it, so that the graph leaves
out no relationship. `Mirrors` says that all these answers show the same catalog.
-/

namespace ReportSql.Catalog

open ReportSql.Join

/-! ## Parts by their ids -/

section

variable {α : Type} {key : α → String} {id : String} {l : List α}

/-- The element is the only one of the list with the id, and it stands there once. -/
def IsOnly (key : α → String) (id : String) (l : List α) (a : α) : Prop :=
  ∃ before after, l = before ++ a :: after ∧ key a = id ∧ id ∉ (before ++ after).map key

/-- Where ids are distinct, the first element with an id is the only one. -/
theorem find?_eq_some_iff_isOnly (hnodup : (l.map key).Nodup) {a : α} :
    l.find? (key · == id) = some a ↔ IsOnly key id l a := by
  rw [List.find?_eq_some_iff_append]
  constructor
  · rintro ⟨hid, before, after, rfl, -⟩
    obtain rfl := eq_of_beq hid
    rw [List.map_append, List.map_cons, List.nodup_middle, List.nodup_cons] at hnodup
    rw [← List.map_append] at hnodup
    exact ⟨before, after, rfl, rfl, hnodup.1⟩
  · rintro ⟨before, after, rfl, rfl, hothers⟩
    refine ⟨beq_self_eq_true _, before, after, rfl, ?_⟩
    intro b hb
    have hne : key b ≠ key a := by
      intro heq
      rw [← heq] at hothers
      exact hothers (List.mem_map_of_mem (List.mem_append_left _ hb))
    simpa using hne

theorem find?_eq_none_iff_notMem : l.find? (key · == id) = none ↔ id ∉ l.map key := by
  simp [List.find?_eq_none, List.mem_map]

theorem IsOnly.mem {a : α} (h : IsOnly key id l a) : a ∈ l ∧ key a = id := by
  obtain ⟨before, after, rfl, hid, -⟩ := h
  exact ⟨by simp, hid⟩

end

namespace Registry

variable (r : Registry)

/-! ## Lookups -/

theorem entity?_eq_some_iff_isOnly {id : String} {e : Entity} :
    r.entity? id = some e ↔ IsOnly Entity.id id r.entities e :=
  find?_eq_some_iff_isOnly r.wellFormed.ids

theorem entity?_eq_none_iff {id : String} :
    r.entity? id = none ↔ id ∉ r.entities.map Entity.id :=
  find?_eq_none_iff_notMem

theorem entity?_id {e : Entity} (he : e ∈ r.entities) : r.entity? e.id = some e :=
  r.entity?_eq_some_iff.mpr ⟨he, rfl⟩

theorem field?_eq_some_iff {entity field : String} {f : Field} :
    r.field? entity field = some f ↔
      ∃ e, IsOnly Entity.id entity r.entities e ∧ IsOnly Field.id field e.fields f := by
  rw [field?, Option.bind_eq_some_iff]
  constructor
  · rintro ⟨e, he, hf⟩
    have hnodup := r.wellFormed.fieldIds e (r.entity?_eq_some_iff.mp he).1
    exact ⟨e, r.entity?_eq_some_iff_isOnly.mp he, (find?_eq_some_iff_isOnly hnodup).mp hf⟩
  · rintro ⟨e, he, hf⟩
    have hnodup := r.wellFormed.fieldIds e he.mem.1
    exact ⟨e, r.entity?_eq_some_iff_isOnly.mpr he, (find?_eq_some_iff_isOnly hnodup).mpr hf⟩

theorem field?_eq_none_iff {entity field : String} :
    r.field? entity field = none ↔
      ∀ e ∈ r.entities, e.id = entity → field ∉ e.fields.map Field.id := by
  rw [field?, Option.bind_eq_none_iff]
  constructor
  · rintro h e he rfl
    exact find?_eq_none_iff_notMem.mp (h e (r.entity?_id he))
  · intro h e he
    obtain ⟨hmem, hid⟩ := r.entity?_eq_some_iff.mp he
    exact find?_eq_none_iff_notMem.mpr (h e hmem hid)

theorem relationships_id {e : Entity} (he : e ∈ r.entities) :
    r.relationships e.id = e.relationships := by
  rw [relationships, r.entity?_id he]

theorem relationships_of_notMem {id : String} (hid : id ∉ r.entities.map Entity.id) :
    r.relationships id = [] := by
  rw [relationships, r.entity?_eq_none_iff.mpr hid]

/-! ## Graph -/

/-- Every relationship leads to an entity of the catalog. -/
theorem target_mem {e : Entity} (he : e ∈ r.entities) {rel : Relationship}
    (hrel : rel ∈ e.relationships) : (r.entities.map Entity.id).contains rel.target = true := by
  obtain ⟨t, ht, hid, -⟩ := r.wellFormed.relationships e he rel hrel
  rw [List.contains_iff_mem, ← hid]
  exact List.mem_map_of_mem ht

/-- The graph leaves out no relationship. -/
theorem edgesOf_eq {e : Entity} (he : e ∈ r.entities) :
    Graph.edgesOf (r.entities.map Entity.id) e =
      e.relationships.map (JoinEdge.ofRelationship e.id) := by
  rw [Graph.edgesOf, List.filter_eq_self.mpr fun rel hrel => r.target_mem he hrel]

theorem edges_graph : r.graph.edges =
    r.entities.flatMap fun e => e.relationships.map (JoinEdge.ofRelationship e.id) := by
  rw [graph, Graph.ofEntities]
  exact List.flatMap_congr fun e he => r.edgesOf_eq he

/-- The hops from an entity go along the relationships that it declares, in their order. -/
theorem outgoing_graph (id : String) :
    r.graph.outgoing id = (r.relationships id).map (JoinEdge.ofRelationship id) := by
  rw [graph, outgoing_ofEntities r.wellFormed.ids, hopsFrom]
  change ((r.entity? id).toList.flatMap _).filter _ = _
  cases hfind : r.entity? id with
  | none => rw [r.relationships_of_notMem (r.entity?_eq_none_iff.mp hfind)]; rfl
  | some e =>
    obtain ⟨he, rfl⟩ := r.entity?_eq_some_iff.mp hfind
    rw [r.relationships_id he, Option.toList_some, List.flatMap_singleton, List.filter_eq_self]
    intro hop hhop
    obtain ⟨rel, hrel, rfl⟩ := List.mem_map.mp hhop
    exact r.target_mem he hrel

/-- Lookups, the graph and the path search show the entities of a catalog, each with its fields and
its relationships, and nothing else. -/
structure Mirrors (entities : List Entity) : Prop where
  entity : ∀ id e, r.entity? id = some e ↔ IsOnly Entity.id id entities e
  noEntity : ∀ id, r.entity? id = none ↔ id ∉ entities.map Entity.id
  field : ∀ entity field f, r.field? entity field = some f ↔
    ∃ e, IsOnly Entity.id entity entities e ∧ IsOnly Field.id field e.fields f
  noField : ∀ entity field, r.field? entity field = none ↔
    ∀ e ∈ entities, e.id = entity → field ∉ e.fields.map Field.id
  relationships : ∀ e ∈ entities, r.relationships e.id = e.relationships
  noRelationships : ∀ id, id ∉ entities.map Entity.id → r.relationships id = []
  /-- The graph has one node for each entity. -/
  nodes : r.graph.entities = entities.map Entity.id ∧ r.graph.entities.Nodup
  contains : ∀ id, r.graph.contains id = true ↔ id ∈ entities.map Entity.id
  /-- The graph has one hop for each relationship, also where several lead from one entity to the
  same one or back to itself. -/
  edges : r.graph.edges =
    entities.flatMap fun e => e.relationships.map (JoinEdge.ofRelationship e.id)
  outgoing : ∀ e ∈ entities, r.graph.outgoing e.id = e.relationships.map fun rel =>
    ⟨e.id, rel.target, rel.sourceField, rel.targetField, rel.join, rel.cardinality⟩
  noOutgoing : ∀ id, id ∉ entities.map Entity.id → r.graph.outgoing id = []
  /-- A step of the path search explores the hops along the relationships of the entity that it
  takes from the queue, in the order in which they are declared. -/
  explored : ∀ start target (s : Search) id queue, s.queue = id :: queue →
    let step := Search.explore start target
      ((r.relationships id).map (JoinEdge.ofRelationship id)) ⟨s.found, queue⟩
    Search.run r.graph start target s =
      if step.2 then step else Search.run r.graph start target step.1

/-- **A registry shows the catalog that it was built from.** An id finds the one entity that has it,
an id of a field finds the one field of that entity that has it, and nothing is found for any other
id; the graph has the entities and the relationships of the catalog, all of them and each once, and
the path search explores them in the order of their declaration. -/
theorem build_mirrors {entities : List Entity} {categories : List Category} {r : Registry}
    (h : build entities categories = .ok r) : r.Mirrors entities := by
  obtain ⟨rfl, -⟩ := build_eq_ok_iff.mp h
  constructor
  case entity => exact fun _ _ => r.entity?_eq_some_iff_isOnly
  case noEntity => exact fun _ => r.entity?_eq_none_iff
  case field => exact fun _ _ _ => r.field?_eq_some_iff
  case noField => exact fun _ _ => r.field?_eq_none_iff
  case relationships => exact fun _ => r.relationships_id
  case noRelationships => exact fun _ => r.relationships_of_notMem
  case nodes => exact ⟨rfl, r.wellFormed.ids⟩
  case contains => exact fun _ => contains_ofEntities
  case edges => exact r.edges_graph
  case outgoing =>
    intro e he
    rw [r.outgoing_graph, r.relationships_id he]
    rfl
  case noOutgoing =>
    intro id hid
    rw [r.outgoing_graph, r.relationships_of_notMem hid, List.map_nil]
  case explored =>
    intro start target s id queue hq
    rw [← r.outgoing_graph]
    exact Search.run_of_cons hq

end Registry

/-- Trips that lead to stops at both ends and to the trip before; stops are declared after them. -/
def roundTrips : List Entity :=
  let numbers (ids : List String) : List Field := ids.map fun id => Telematics.field id id .number
  [{ related "trips" ["stops", "trips", "stops"] with
      fields := numbers ["id", "trips_id", "stops_id"] },
    { related "stops" [] with fields := numbers ["id"] }]

/-- The relationship to stops is followed twice, and so is the one that leads back to trips. -/
theorem roundTrips_mirrored :
    ∃ r, Registry.build roundTrips [] = .ok r ∧ r.graph.entities = ["trips", "stops"] ∧
      r.graph.outgoing "trips" =
        [⟨"trips", "stops", "stops_id", "id", .left, .manyToOne⟩,
          ⟨"trips", "trips", "trips_id", "id", .left, .manyToOne⟩,
          ⟨"trips", "stops", "stops_id", "id", .left, .manyToOne⟩] ∧
      r.graph.edges.length = 3 ∧ r.field? "stops" "stops_id" = none := by
  have hbuilt : Registry.build roundTrips [] = .ok ⟨roundTrips, [], by decide +kernel⟩ :=
    Registry.build_eq_ok_iff.mpr ⟨rfl, rfl⟩
  have hmirrors := Registry.build_mirrors hbuilt
  exact ⟨_, hbuilt, hmirrors.nodes.1, hmirrors.outgoing _ (.head _), by rw [hmirrors.edges]; rfl,
    (hmirrors.noField "stops" "stops_id").mpr (by decide)⟩

end ReportSql.Catalog
