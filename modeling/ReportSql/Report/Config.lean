import ReportSql.Report.Filter
import ReportSql.Time.Window

/-!
# Reports

A report as it is asked for: an entity to start from, fields to show, filters, sort keys, keys to
group by, a time window and a limit of rows.
-/

namespace ReportSql.Report

open ReportSql.Json (Value Reader RecordReader)
open ReportSql.Catalog (Aggregation optionalMember)
open ReportSql.Time (TimeRange TimeField)

/-- A field of an entity by its ids. -/
structure FieldRef where
  entity : String
  field : String
  deriving DecidableEq

namespace FieldRef

def reader : Reader FieldRef :=
  RecordReader.reader (mk <$> .field "entityId" .string <*> .field "fieldId" .string)

def toValue (r : FieldRef) : Value :=
  .object [("entityId", .string r.entity), ("fieldId", .string r.field)]

end FieldRef

/-- A field to show. -/
structure SelectedField where
  entity : String
  field : String
  label : Option String
  aggregation : Option Aggregation
  deriving DecidableEq

namespace SelectedField

def ref (s : SelectedField) : FieldRef :=
  ⟨s.entity, s.field⟩

/-- The output name of a field that has no label: the aggregation if there is one, the entity and
the field. -/
def defaultLabel (s : SelectedField) : String :=
  match s.aggregation with
  | some a => a.name ++ "_" ++ s.entity ++ "_" ++ s.field
  | none => s.entity ++ "_" ++ s.field

/-- The output name of a field. -/
def outputName (s : SelectedField) : String :=
  s.label.getD s.defaultLabel

def reader : Reader SelectedField :=
  RecordReader.reader
    (mk <$> .field "entityId" .string
      <*> .field "fieldId" .string
      <*> .optional "alias" .string
      <*> .optional "aggregation" Aggregation.reader)

def toValue (s : SelectedField) : Value :=
  .object ([("entityId", .string s.entity), ("fieldId", .string s.field)]
    ++ optionalMember "alias" .string s.label
    ++ optionalMember "aggregation" Aggregation.toValue s.aggregation)

end SelectedField

/-- The direction of a sort key. -/
inductive SortDirection where
  | asc
  | desc
  deriving DecidableEq

namespace SortDirection

def name : SortDirection → String
  | asc => "asc"
  | desc => "desc"

/-- Directions are read in small or in capital letters. -/
def reader : Reader SortDirection :=
  .oneOf [("asc", asc), ("ASC", asc), ("desc", desc), ("DESC", desc)]

def toValue (d : SortDirection) : Value :=
  .string d.name

end SortDirection

/-- A key to sort by. -/
structure SortKey where
  entity : String
  field : String
  direction : SortDirection
  deriving DecidableEq

namespace SortKey

def ref (s : SortKey) : FieldRef :=
  ⟨s.entity, s.field⟩

def reader : Reader SortKey :=
  RecordReader.reader
    (mk <$> .field "entityId" .string
      <*> .field "fieldId" .string
      <*> .fieldOr "direction" .asc SortDirection.reader)

def toValue (s : SortKey) : Value :=
  .object [("entityId", .string s.entity), ("fieldId", .string s.field),
    ("direction", s.direction.toValue)]

end SortKey

namespace Filter

def ref (f : Filter) : FieldRef :=
  ⟨f.entity, f.field⟩

end Filter

/-- A report as it is asked for. -/
structure Config where
  name : Option String
  description : Option String
  primaryEntity : Option String
  selected : List SelectedField
  filters : List Filter
  sorting : List SortKey
  groupBy : List FieldRef
  timeRange : Option TimeRange
  timeField : Option TimeField
  limit : Option Int64
  deriving DecidableEq

namespace Config

/-- The report that asks for nothing yet. -/
def empty : Config :=
  ⟨none, none, none, [], [], [], [], none, none, none⟩

/-- A new report that starts from an entity. -/
def new (primary : String) : Config :=
  { empty with primaryEntity := some primary }

/-- The entity that the report starts from, if it is set and not empty. -/
def primary? (c : Config) : Option String :=
  c.primaryEntity.filter fun p => !p.isEmpty

/-- The entity that a time window names, while there is a window. -/
def windowEntity (c : Config) : Option String :=
  if c.timeRange.isSome then c.timeField.bind TimeField.entity else none

/-- The entities that the report mentions, with repetitions: selected fields, filters, sort keys,
keys to group by, and the time field while there is a window. -/
def mentioned (c : Config) : List String :=
  c.selected.map SelectedField.entity ++ c.filters.map Filter.entity
    ++ c.sorting.map SortKey.entity ++ c.groupBy.map FieldRef.entity ++ c.windowEntity.toList

/-- The first occurrences of the entities other than the primary one. -/
def distinctFrom (primary : String) : List String → List String → List String
  | found, [] => found
  | found, e :: rest =>
    if e == primary || found.contains e then distinctFrom primary found rest
    else distinctFrom primary (found ++ [e]) rest

/-- The entities other than the primary one that the report mentions, each once, in the order of
their first mention. -/
def referenced (c : Config) : List String :=
  distinctFrom (c.primary?.getD "") [] c.mentioned

def reader : Reader Config :=
  RecordReader.reader
    (mk <$> .optional "name" .string
      <*> .optional "description" .string
      <*> .optional "primaryEntity" .string
      <*> .fieldOr "selectedFields" [] (.list SelectedField.reader)
      <*> .fieldOr "filters" [] (.list Filter.reader)
      <*> .fieldOr "sorting" [] (.list SortKey.reader)
      <*> .fieldOr "groupBy" [] (.list FieldRef.reader)
      <*> .optional "timeRange" TimeRange.reader
      <*> .optional "timeField" TimeField.reader
      <*> .optional "limit" .int64)

def toValue (c : Config) : Value :=
  .object (optionalMember "name" .string c.name
    ++ optionalMember "description" .string c.description
    ++ optionalMember "primaryEntity" .string c.primaryEntity
    ++ [("selectedFields", .array (c.selected.map SelectedField.toValue)),
      ("filters", .array (c.filters.map Filter.toValue)),
      ("sorting", .array (c.sorting.map SortKey.toValue)),
      ("groupBy", .array (c.groupBy.map FieldRef.toValue))]
    ++ optionalMember "timeRange" TimeRange.toValue c.timeRange
    ++ optionalMember "timeField" TimeField.toValue c.timeField
    ++ optionalMember "limit" Value.ofInt64 c.limit)

end Config

end ReportSql.Report
