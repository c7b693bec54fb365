import ReportSql.Join.Plan

/-!
# The catalog

A registry is a catalog that has passed all checks: ids are distinct, encodings have a positive
scale, and every category, field and entity that is named exists. `check` reports the first
defect, in a first pass over ids and encodings and a second one over names.
-/

namespace ReportSql.Catalog

open ReportSql.Json (Value Reader RecordReader)

/-- What an entity lists a field as. -/
inductive FieldRole where
  | byDefault
  | searchable
  | timestamp
  deriving DecidableEq

namespace FieldRole

def name : FieldRole → String
  | byDefault => "default field"
  | searchable => "searchable field"
  | timestamp => "timestamp field"

end FieldRole

/-- A defect of a catalog. -/
inductive CatalogError where
  | duplicateEntity (entity : String)
  | duplicateField (entity field : String)
  | invalidEncoding (entity field : String)
  | unknownCategory (entity category : String)
  | unknownField (entity field : String) (role : FieldRole)
  | unknownTarget (entity target : String)
  | unknownJoinField (entity target field : String)
  deriving DecidableEq

namespace CatalogError

def message : CatalogError → String
  | duplicateEntity entity => "Duplicate entity id '" ++ entity ++ "'"
  | duplicateField entity field =>
    "Duplicate field id '" ++ field ++ "' on entity '" ++ entity ++ "'"
  | invalidEncoding entity field =>
    "Field '" ++ entity ++ "." ++ field ++ "' declares a non-positive encoding scale"
  | unknownCategory entity category =>
    "Entity '" ++ entity ++ "' belongs to unknown category '" ++ category ++ "'"
  | unknownField entity field role =>
    "Entity '" ++ entity ++ "' lists unknown field '" ++ field ++ "' as its " ++ role.name
  | unknownTarget entity target =>
    "Entity '" ++ entity ++ "' has a relationship to unknown entity '" ++ target ++ "'"
  | unknownJoinField entity target field =>
    "Relationship " ++ entity ++ " -> " ++ target ++ " references unknown field '" ++ field ++ "'"

end CatalogError

/-! ## First pass: ids and encodings -/

/-- Checks the fields of an entity after those with the ids `seen`. -/
def checkFields (entity : String) : List String → List Field → Except CatalogError Unit
  | _, [] => .ok ()
  | seen, f :: rest =>
    if seen.contains f.id then .error (.duplicateField entity f.id)
    else if f.encoding.any fun e => decide (e.scale.toInt ≤ 0) then
      .error (.invalidEncoding entity f.id)
    else checkFields entity (f.id :: seen) rest

/-- Checks ids and encodings of entities after those with the ids `seen`. -/
def checkIds : List String → List Entity → Except CatalogError Unit
  | _, [] => .ok ()
  | seen, e :: rest =>
    if seen.contains e.id then .error (.duplicateEntity e.id)
    else do
      checkFields e.id [] e.fields
      checkIds (e.id :: seen) rest

/-! ## Second pass: names -/

/-- Is the id one of a field of the entity? -/
def Entity.declares (e : Entity) (field : String) : Bool :=
  e.fields.any (·.id == field)

/-- The fields that an entity lists, with what it lists them as. -/
def Entity.listed (e : Entity) : List (String × FieldRole) :=
  e.defaultFields.map (·, .byDefault) ++ e.searchableFields.map (·, .searchable)
    ++ e.timestampField.toList.map (·, .timestamp)

def checkListed (e : Entity) : List (String × FieldRole) → Except CatalogError Unit
  | [] => .ok ()
  | (field, role) :: rest =>
    if e.declares field then checkListed e rest else .error (.unknownField e.id field role)

def checkRelationships (entities : List Entity) (e : Entity) :
    List Relationship → Except CatalogError Unit
  | [] => .ok ()
  | r :: rest =>
    match entities.find? (·.id == r.target) with
    | none => .error (.unknownTarget e.id r.target)
    | some target =>
      if !e.declares r.sourceField then .error (.unknownJoinField e.id r.target r.sourceField)
      else if !target.declares r.targetField then
        .error (.unknownJoinField e.id r.target r.targetField)
      else checkRelationships entities e rest

/-- Checks the names that an entity mentions. -/
def checkNames (entities : List Entity) (categories : List Category) (e : Entity) :
    Except CatalogError Unit := do
  match e.category with
  | some category =>
    if categories.any (·.id == category) then pure ()
    else throw (.unknownCategory e.id category)
  | none => pure ()
  checkListed e e.listed
  checkRelationships entities e e.relationships

def checkAllNames (entities : List Entity) (categories : List Category) :
    List Entity → Except CatalogError Unit
  | [] => .ok ()
  | e :: rest => do
    checkNames entities categories e
    checkAllNames entities categories rest

/-- Reports the first defect of a catalog. -/
def check (entities : List Entity) (categories : List Category) : Except CatalogError Unit := do
  checkIds [] entities
  checkAllNames entities categories entities

instance decidableAccepted (entities : List Entity) (categories : List Category) :
    Decidable (check entities categories = .ok ()) :=
  match check entities categories with
  | .ok () => .isTrue rfl
  | .error _ => .isFalse nofun

/-! ## Registry -/

/-- A catalog without defects. -/
structure Registry where
  entities : List Entity
  categories : List Category
  accepted : check entities categories = .ok ()

namespace Registry

/-- The registry of a catalog, or its first defect. -/
def build (entities : List Entity) (categories : List Category) : Except CatalogError Registry :=
  match h : check entities categories with
  | .ok () => .ok ⟨entities, categories, h⟩
  | .error e => .error e

/-- The entity of the given id. -/
def entity? (r : Registry) (id : String) : Option Entity :=
  r.entities.find? (·.id == id)

/-- The field of an entity. -/
def field? (r : Registry) (entity field : String) : Option Field :=
  (r.entity? entity).bind fun e => e.field? field

/-- The relationships that an entity declares; none for an unknown id. -/
def relationships (r : Registry) (entity : String) : List Relationship :=
  match r.entity? entity with
  | some e => e.relationships
  | none => []

/-- The entities that an entity is directly related to, in order. -/
def related (r : Registry) (entity : String) : List String :=
  (r.relationships entity).map Relationship.target

/-- The relationships as a graph. -/
def graph (r : Registry) : Join.Graph :=
  .ofEntities r.entities

/-- A category with the ids of its entities. -/
structure Listing where
  category : Category
  entities : List String

namespace Listing

def toValue (l : Listing) : Value :=
  .object (l.category.members ++ [("entities", .array (l.entities.map .string))])

end Listing

/-- The categories with their entities, both in the order of declaration. -/
def listings (r : Registry) : List Listing :=
  r.categories.map fun c =>
    ⟨c, (r.entities.filter fun e => e.category == some c.id).map Entity.id⟩

end Registry

/-! ## Documents -/

/-- A catalog as it is written down. -/
structure CatalogFile where
  categories : List Category
  entities : List Entity

namespace CatalogFile

def reader : Reader CatalogFile :=
  RecordReader.reader
    (mk <$> .fieldOr "categories" [] (.list Category.reader)
      <*> .fieldOr "entities" [] (.list Entity.reader))

end CatalogFile

end ReportSql.Catalog
