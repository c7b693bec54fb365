import ReportSql.Catalog.Field
import ReportSql.Sql.Query

/-!
# Entities

An entity is backed by one table. It has fields, and relationships to other entities that a
statement can follow by a join.
-/

namespace ReportSql.Catalog

open ReportSql.Json (Value Reader RecordReader)
open ReportSql.Sql (JoinKind)

/-- How many rows of one side of a relationship match how many of the other. -/
inductive Cardinality where
  | oneToOne
  | oneToMany
  | manyToOne
  | manyToMany
  deriving DecidableEq

namespace Cardinality

def name : Cardinality → String
  | oneToOne => "one-to-one"
  | oneToMany => "one-to-many"
  | manyToOne => "many-to-one"
  | manyToMany => "many-to-many"

def all : List Cardinality :=
  [oneToOne, oneToMany, manyToOne, manyToMany]

/-- Can following the relationship multiply rows? -/
def fansOut : Cardinality → Bool
  | oneToMany | manyToMany => true
  | oneToOne | manyToOne => false

def reader : Reader Cardinality :=
  .oneOf (all.map fun c => (c.name, c))

def toValue (c : Cardinality) : Value :=
  .string c.name

end Cardinality

/-- The name of a kind of join in documents. -/
def joinKindName : JoinKind → String
  | .inner => "inner"
  | .left => "left"
  | .right => "right"

/-- A kind of join in a document, by its name. -/
def joinKindReader : Reader JoinKind :=
  .oneOf ([JoinKind.inner, .left, .right].map fun k => (joinKindName k, k))

/-- A kind of join as a document holds it. -/
def joinKindValue (k : JoinKind) : Value :=
  .string (joinKindName k)

/-- A relationship from the entity that declares it to `target`. -/
structure Relationship where
  target : String
  cardinality : Cardinality
  sourceField : String
  targetField : String
  join : JoinKind
  deriving DecidableEq

namespace Relationship

def reader : Reader Relationship :=
  RecordReader.reader
    (mk <$> .field "target" .string
      <*> .field "cardinality" Cardinality.reader
      <*> .field "source_field" .string
      <*> .field "target_field" .string
      <*> .fieldOr "join" .left joinKindReader)

def toValue (r : Relationship) : Value :=
  .object [("target", .string r.target),
    ("cardinality", r.cardinality.toValue),
    ("source_field", .string r.sourceField),
    ("target_field", .string r.targetField),
    ("join", joinKindValue r.join)]

end Relationship

/-- Something that reports can be made of, backed by one table. -/
structure Entity where
  id : String
  displayName : String
  displayNamePlural : String
  description : String
  icon : String
  color : String
  category : Option String
  schema : String
  table : String
  fields : List Field
  relationships : List Relationship
  defaultFields : List String
  searchableFields : List String
  timestampField : Option String
  deriving DecidableEq

namespace Entity

/-- The field of the given id. -/
def field? (e : Entity) (id : String) : Option Field :=
  e.fields.find? (·.id == id)

def reader : Reader Entity :=
  RecordReader.reader
    (mk <$> .field "id" .string
      <*> .field "display_name" .string
      <*> .field "display_name_plural" .string
      <*> .fieldOr "description" "" .string
      <*> .fieldOr "icon" "" .string
      <*> .fieldOr "color" "" .string
      <*> .optional "category" .string
      <*> .field "schema" .string
      <*> .field "table" .string
      <*> .fieldOr "fields" [] (.list Field.reader)
      <*> .fieldOr "relationships" [] (.list Relationship.reader)
      <*> .fieldOr "default_fields" [] (.list .string)
      <*> .fieldOr "searchable_fields" [] (.list .string)
      <*> .optional "timestamp_field" .string)

def toValue (e : Entity) : Value :=
  .object ([("id", .string e.id),
      ("display_name", .string e.displayName),
      ("display_name_plural", .string e.displayNamePlural),
      ("description", .string e.description),
      ("icon", .string e.icon),
      ("color", .string e.color)]
    ++ optionalMember "category" .string e.category
    ++ [("schema", .string e.schema),
      ("table", .string e.table),
      ("fields", .array (e.fields.map Field.toValue)),
      ("relationships", .array (e.relationships.map Relationship.toValue))]
    ++ listMember "default_fields" .string e.defaultFields
    ++ listMember "searchable_fields" .string e.searchableFields
    ++ optionalMember "timestamp_field" .string e.timestampField)

end Entity

/-- A group of entities in a listing. -/
structure Category where
  id : String
  name : String
  description : String
  deriving DecidableEq

namespace Category

def reader : Reader Category :=
  RecordReader.reader
    (mk <$> .field "id" .string <*> .field "name" .string
      <*> .fieldOr "description" "" .string)

/-- The members of a category in a document. -/
def members (c : Category) : List (String × Value) :=
  [("id", .string c.id), ("name", .string c.name), ("description", .string c.description)]

end Category

end ReportSql.Catalog
