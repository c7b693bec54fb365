import ReportSql.Report.Config

/-!
# Why a report has no statement

Every rule that a report can break is a cause of its own, together with the part of the report that
breaks it. `CompileError.message` holds the wording.
-/

namespace ReportSql.Statement

open ReportSql.Json (Value)
open ReportSql.Catalog (FieldType Aggregation optionalMember)
open ReportSql.Report (FieldRef Operator)
open ReportSql.Time (TimeField WindowError)

/-- A part of a report. Elements of lists are counted from zero. -/
inductive Location where
  | primaryEntity
  | selected (index : Nat)
  | filter (index : Nat)
  | sort (index : Nat)
  | groupBy (index : Nat)
  | timeField
  | timeRange
  deriving DecidableEq

namespace Location

def indexed (what : String) (index : Nat) : String :=
  what ++ " #" ++ .ofList (Decimal.natText index)

/-- The part in words. -/
def text : Location → String
  | primaryEntity => "primary entity"
  | selected i => indexed "selected field" i
  | filter i => indexed "filter" i
  | sort i => indexed "sort key" i
  | groupBy i => indexed "group-by key" i
  | timeField => "time field"
  | timeRange => "time range"

/-- The name of the section that the part belongs to. -/
def sectionName : Location → String
  | primaryEntity => "primaryEntity"
  | selected _ => "selectedField"
  | filter _ => "filter"
  | sort _ => "sort"
  | groupBy _ => "groupBy"
  | timeField => "timeField"
  | timeRange => "timeRange"

/-- The position in the list of the section, if the section is one. -/
def index? : Location → Option Nat
  | selected i | filter i | sort i | groupBy i => some i
  | primaryEntity | timeField | timeRange => none

def toValue (l : Location) : Value :=
  .object (("section", .string l.sectionName) :: optionalMember "index" Value.ofNat l.index?)

end Location

/-- What names nothing, or nothing of the right kind. -/
inductive SchemaProblem where
  | noPrimaryEntity
  | unknownPrimaryEntity (entity : String)
  | nothingSelected
  | unknownEntity (ref : FieldRef)
  | unknownField (ref : FieldRef)
  | noTimeField
  /-- The field that a time window applies to holds no moments. -/
  | notTemporal (ref : FieldRef) (asked : TimeField) (type : FieldType)
  | window (ref : FieldRef) (cause : WindowError)
  deriving DecidableEq

namespace SchemaProblem

def entity? : SchemaProblem → Option String
  | noPrimaryEntity | nothingSelected | noTimeField => none
  | unknownPrimaryEntity entity => some entity
  | unknownEntity ref | unknownField ref | notTemporal ref _ _ | window ref _ => some ref.entity

def field? : SchemaProblem → Option String
  | noPrimaryEntity | nothingSelected | noTimeField | unknownPrimaryEntity _ => none
  | unknownEntity ref | unknownField ref | notTemporal ref _ _ | window ref _ => some ref.field

def message : SchemaProblem → String
  | noPrimaryEntity => "no primary entity selected"
  | unknownPrimaryEntity entity => "unknown entity '" ++ entity ++ "'"
  | nothingSelected => "at least one field must be selected"
  | unknownEntity ref => "unknown entity '" ++ ref.entity ++ "'"
  | unknownField ref =>
    "unknown field '" ++ ref.field ++ "' on entity '" ++ ref.entity ++ "'"
  | noTimeField => "a time range needs a time field"
  | notTemporal _ asked type =>
    "time field '" ++ asked.text ++ "' is a " ++ type.name ++ " field, not a datetime or date"
  | window _ cause => cause.message

end SchemaProblem

/-- What is wrong with the operator or the operands of a filter. -/
inductive TypeProblem where
  | notApplicable (op : Operator) (type : FieldType)
  | noValue (op : Operator)
  | notSingle (op : Operator)
  | notTwoValues (op : Operator)
  | notPlainList (op : Operator)
  | notList (op : Operator)
  deriving DecidableEq

namespace TypeProblem

def operator : TypeProblem → Operator
  | notApplicable op _ | noValue op | notSingle op | notTwoValues op | notPlainList op
  | notList op => op

/-- What is said about the operator of a filter on the given field. -/
def complaint (field : String) : TypeProblem → String
  | notApplicable _ type => "does not apply to " ++ type.name ++ " field '" ++ field ++ "'"
  | noValue _ => "needs a value"
  | notSingle _ => "needs a single text or number value"
  | notTwoValues _ => "needs two values"
  | notPlainList _ => "needs a list of plain values"
  | notList _ => "needs a list of values"

def message (field : String) (p : TypeProblem) : String :=
  "operator '" ++ p.operator.name ++ "' " ++ p.complaint field

end TypeProblem

/-- How a report breaks the rules of grouping. -/
inductive AggregationProblem where
  | notGrouped (a : Aggregation)
  | notPermitted (a : Aggregation)
  | neitherGroupedNorAggregated
  | sortedByOther
  deriving DecidableEq

namespace AggregationProblem

def message (ref : FieldRef) : AggregationProblem → String
  | notGrouped a => "'" ++ a.name ++ "' needs at least one group-by field"
  | notPermitted a => "'" ++ a.name ++ "' is not permitted on field '" ++ ref.field ++ "'"
  | neitherGroupedNorAggregated =>
    "field '" ++ ref.entity ++ "." ++ ref.field ++ "' must be grouped or aggregated"
  | sortedByOther => "a grouped report can only sort by group-by keys or aggregated fields"

end AggregationProblem

/-- Why a report has no statement. -/
inductive CompileError where
  | schema (place : Location) (problem : SchemaProblem)
  /-- No relationships lead from the primary entity to one that the report mentions. -/
  | join (place : Location) (start target : String)
  | type (place : Location) (ref : FieldRef) (problem : TypeProblem)
  | aggregation (place : Location) (ref : FieldRef) (problem : AggregationProblem)
  deriving DecidableEq

namespace CompileError

/-- The part of the report that breaks a rule. -/
def location : CompileError → Location
  | schema place _ | join place _ _ | type place _ _ | aggregation place _ _ => place

/-- The name of the kind of the error. -/
def kindName : CompileError → String
  | schema _ _ => "schema"
  | join _ _ _ => "join"
  | type _ _ _ => "type"
  | aggregation _ _ _ => "aggregation"

/-- The entity that the error is about. -/
def entity? : CompileError → Option String
  | schema _ problem => problem.entity?
  | join _ _ target => some target
  | type _ ref _ | aggregation _ ref _ => some ref.entity

/-- The field that the error is about. -/
def field? : CompileError → Option String
  | schema _ problem => problem.field?
  | join _ _ _ => none
  | type _ ref _ | aggregation _ ref _ => some ref.field

/-- What is wrong, without its kind and place. -/
def detail : CompileError → String
  | schema _ problem => problem.message
  | join _ start target =>
    "no relationship path from '" ++ start ++ "' to '" ++ target ++ "'"
  | type _ ref problem => problem.message ref.field
  | aggregation _ ref problem => problem.message ref

/-- The words that a message of the kind starts with. -/
def heading : CompileError → String
  | schema _ _ => "Schema error"
  | join _ _ _ => "Join error"
  | type _ _ _ => "Type error"
  | aggregation _ _ _ => "Aggregation error"

def message (e : CompileError) : String :=
  e.heading ++ " at " ++ e.location.text ++ ": " ++ e.detail

def toValue (e : CompileError) : Value :=
  let start : List (String × Value) :=
    [("kind", .string e.kindName), ("location", e.location.toValue)]
  match e with
  | join _ origin target => .object (start ++ [("from", .string origin), ("to", .string target)])
  | _ =>
    .object (start ++ optionalMember "entity_id" .string e.entity?
      ++ optionalMember "field_id" .string e.field? ++ [("message", .string e.detail)])

end CompileError

end ReportSql.Statement
