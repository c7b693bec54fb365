import ReportSql.Catalog.Entity

/-!
# Join paths

A hop from one entity to another along a declared relationship, and paths of such hops.
-/

namespace ReportSql.Join

open ReportSql.Json (Value)
open ReportSql.Sql (JoinKind)
open ReportSql.Catalog

/-- One hop along a relationship. -/
structure JoinEdge where
  fromEntity : String
  toEntity : String
  fromField : String
  toField : String
  join : JoinKind
  cardinality : Cardinality
  deriving DecidableEq

namespace JoinEdge

/-- The hop along a relationship of an entity. -/
def ofRelationship (entity : String) (r : Relationship) : JoinEdge :=
  ⟨entity, r.target, r.sourceField, r.targetField, r.join, r.cardinality⟩

/-- The hop as an equation between two fields. -/
def text (e : JoinEdge) : String :=
  e.fromEntity ++ "." ++ e.fromField ++ " = " ++ e.toEntity ++ "." ++ e.toField

def toValue (e : JoinEdge) : Value :=
  .object [("fromEntity", .string e.fromEntity),
    ("toEntity", .string e.toEntity),
    ("fromField", .string e.fromField),
    ("toField", .string e.toField),
    ("join", joinKindValue e.join),
    ("cardinality", e.cardinality.toValue)]

end JoinEdge

/-- Hops one after another. -/
structure JoinPath where
  edges : List JoinEdge
  deriving DecidableEq

namespace JoinPath

/-- The path that stays where it is. -/
def empty : JoinPath :=
  ⟨[]⟩

/-- Can following the path multiply rows? -/
def fansOut (p : JoinPath) : Bool :=
  p.edges.any fun e => e.cardinality.fansOut

/-- The entities that hops pass, after an entity that has been passed. -/
def entitiesAfter : Option String → List JoinEdge → List String
  | _, [] => []
  | last, e :: rest =>
    (if last = some e.fromEntity then [] else [e.fromEntity])
      ++ e.toEntity :: entitiesAfter (some e.toEntity) rest

/-- The entities that the path passes, its start and its end among them. -/
def entities (p : JoinPath) : List String :=
  entitiesAfter none p.edges

/-- The path as equations between fields. -/
def text (p : JoinPath) : String :=
  if p.edges.isEmpty then "(same entity)"
  else " -> ".intercalate (p.edges.map JoinEdge.text)

def toValue (p : JoinPath) : Value :=
  .object [("edges", .array (p.edges.map JoinEdge.toValue))]

end JoinPath

end ReportSql.Join
