import ReportSql.Join.Path

/-!
# The relationship graph

The entities of a catalog with the hops along their relationships, in the order of declaration.
-/

namespace ReportSql.Join

open ReportSql.Catalog

/-- The entities and hops of a catalog, in the order of their declaration. -/
structure Graph where
  entities : List String
  edges : List JoinEdge

namespace Graph

/-- The hops along the relationships of an entity that lead to a known entity. -/
def edgesOf (known : List String) (e : Entity) : List JoinEdge :=
  (e.relationships.filter fun r => known.contains r.target).map (JoinEdge.ofRelationship e.id)

/-- The graph of the given entities. -/
def ofEntities (entities : List Entity) : Graph :=
  let known := entities.map Entity.id
  ⟨known, entities.flatMap (edgesOf known)⟩

def contains (g : Graph) (entity : String) : Bool :=
  g.entities.contains entity

/-- The hops from an entity, in order. -/
def outgoing (g : Graph) (entity : String) : List JoinEdge :=
  g.edges.filter fun e => e.fromEntity == entity

end Graph

end ReportSql.Join
