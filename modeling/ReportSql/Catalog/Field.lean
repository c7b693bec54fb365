import ReportSql.Json.Read

/-!
# Fields

A field of an entity: what it is called, the column that holds it, the type of its values, what it
may be summarised with, and how its numbers are encoded.
-/

namespace ReportSql.Catalog

open ReportSql.Json (Value Reader RecordReader)

/-- The type of the values of a field. -/
inductive FieldType where
  | string
  | number
  | boolean
  | datetime
  | date
  | time
  | json
  | enum
  deriving DecidableEq

namespace FieldType

def name : FieldType → String
  | string => "string"
  | number => "number"
  | boolean => "boolean"
  | datetime => "datetime"
  | date => "date"
  | time => "time"
  | json => "json"
  | enum => "enum"

def all : List FieldType :=
  [string, number, boolean, datetime, date, time, json, enum]

/-- Types whose values are ordered, so that ranges of them make sense. -/
def isOrdered : FieldType → Bool
  | number | datetime | date => true
  | _ => false

/-- Types that a time window can apply to. -/
def isTemporal : FieldType → Bool
  | datetime | date => true
  | _ => false

/-- Types whose values can be compared for equality. -/
def isScalar : FieldType → Bool
  | json => false
  | _ => true

def reader : Reader FieldType :=
  .oneOf (all.map fun t => (t.name, t))

def toValue (t : FieldType) : Value :=
  .string t.name

end FieldType

/-- What the values of a group of rows are summarised to. -/
inductive Aggregation where
  | count
  | countDistinct
  | sum
  | avg
  | min
  | max
  deriving DecidableEq

namespace Aggregation

def name : Aggregation → String
  | count => "count"
  | countDistinct => "count_distinct"
  | sum => "sum"
  | avg => "avg"
  | min => "min"
  | max => "max"

def all : List Aggregation :=
  [count, countDistinct, sum, avg, min, max]

/-- Does the aggregation read decoded values? Counts read the column as it is. -/
def decodesInput : Aggregation → Bool
  | sum | avg | min | max => true
  | count | countDistinct => false

/-- The type of the summary of values of a type. -/
def resultType (a : Aggregation) (input : FieldType) : FieldType :=
  match a with
  | count | countDistinct | sum | avg => .number
  | min | max => input

def reader : Reader Aggregation :=
  .oneOf (all.map fun a => (a.name, a))

def toValue (a : Aggregation) : Value :=
  .string a.name

end Aggregation

/-- A fixed-point encoding: the column holds the value times `scale`. -/
structure NumericEncoding where
  scale : Int64
  unit : String
  deriving DecidableEq

namespace NumericEncoding

/-- Degrees times ten million. -/
def geocoordinate : NumericEncoding :=
  ⟨10000000, "degrees"⟩

/-- Kilometres an hour times a hundred. -/
def speed : NumericEncoding :=
  ⟨100, "km/h"⟩

/-- What a column is divided by. -/
def divisor (e : NumericEncoding) : Decimal.Double :=
  .ofInt e.scale.toInt

def reader : Reader NumericEncoding :=
  RecordReader.reader (mk <$> .field "scale" .int64 <*> .field "unit" .string)

def toValue (e : NumericEncoding) : Value :=
  .object [("scale", .ofInt64 e.scale), ("unit", .string e.unit)]

end NumericEncoding

/-- A field of an entity. -/
structure Field where
  id : String
  /-- The column that holds the field, if it is not named like the field. -/
  column : Option String
  displayName : String
  description : Option String
  type : FieldType
  filterable : Bool
  sortable : Bool
  primaryKey : Bool
  foreignKey : Bool
  foreignEntity : Option String
  foreignField : Option String
  enumValues : Option (List String)
  aggregations : List Aggregation
  encoding : Option NumericEncoding
  deriving DecidableEq

/-- The member of an optional part, if it is there. -/
def optionalMember {α : Type} (name : String) (toValue : α → Value) (a : Option α) :
    List (String × Value) :=
  match a with
  | some a => [(name, toValue a)]
  | none => []

/-- The member of a list that is left out when the list is empty. -/
def listMember {α : Type} (name : String) (toValue : α → Value) (as : List α) :
    List (String × Value) :=
  if as.isEmpty then [] else [(name, .array (as.map toValue))]

namespace Field

/-- The column that holds the field. -/
def columnName (f : Field) : String :=
  f.column.getD f.id

/-- May the field be summarised so? -/
def allows (f : Field) (a : Aggregation) : Bool :=
  f.aggregations.contains a

def reader : Reader Field :=
  RecordReader.reader
    (mk <$> .field "id" .string
      <*> .optional "column" .string
      <*> .field "display_name" .string
      <*> .optional "description" .string
      <*> .field "type" FieldType.reader
      <*> .fieldOr "filterable" false .bool
      <*> .fieldOr "sortable" false .bool
      <*> .fieldOr "primary_key" false .bool
      <*> .fieldOr "foreign_key" false .bool
      <*> .optional "foreign_entity" .string
      <*> .optional "foreign_field" .string
      <*> .optional "enum_values" (.list .string)
      <*> .fieldOr "aggregations" [] (.list Aggregation.reader)
      <*> .optional "encoding" NumericEncoding.reader)

def toValue (f : Field) : Value :=
  .object (("id", .string f.id)
    :: optionalMember "column" .string f.column
    ++ ("display_name", .string f.displayName)
    :: optionalMember "description" .string f.description
    ++ [("type", f.type.toValue),
      ("filterable", .bool f.filterable),
      ("sortable", .bool f.sortable),
      ("primary_key", .bool f.primaryKey),
      ("foreign_key", .bool f.foreignKey)]
    ++ optionalMember "foreign_entity" .string f.foreignEntity
    ++ optionalMember "foreign_field" .string f.foreignField
    ++ optionalMember "enum_values" (fun vs => .array (vs.map .string)) f.enumValues
    ++ listMember "aggregations" Aggregation.toValue f.aggregations
    ++ optionalMember "encoding" NumericEncoding.toValue f.encoding)

end Field

end ReportSql.Catalog
