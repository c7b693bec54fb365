import ReportSql.Catalog.Field

/-!
# Filters

A filter compares a field with operands. `Operator.applies` says which types of fields an operator
is for, and `Operator.operands` how many operands it takes.
-/

namespace ReportSql.Report

open ReportSql.Json (Value Reader RecordReader)
open ReportSql.Catalog (FieldType optionalMember)

/-- How a filter compares its field. -/
inductive Operator where
  | equals
  | notEquals
  | contains
  | notContains
  | startsWith
  | endsWith
  | greaterThan
  | greaterEqual
  | lessThan
  | lessEqual
  | between
  | isIn
  | notIn
  | isNull
  | isNotNull
  deriving DecidableEq

/-- The operands that an operator takes. -/
inductive Operands where
  | none
  | one
  | two
  | list
  deriving DecidableEq

namespace Operands

def name : Operands → String
  | none => "none"
  | one => "one"
  | two => "two"
  | list => "list"

end Operands

namespace Operator

def name : Operator → String
  | equals => "equals"
  | notEquals => "not_equals"
  | contains => "contains"
  | notContains => "not_contains"
  | startsWith => "starts_with"
  | endsWith => "ends_with"
  | greaterThan => "greater_than"
  | greaterEqual => "greater_equal"
  | lessThan => "less_than"
  | lessEqual => "less_equal"
  | between => "between"
  | isIn => "in"
  | notIn => "not_in"
  | isNull => "is_null"
  | isNotNull => "is_not_null"

def all : List Operator :=
  [equals, notEquals, contains, notContains, startsWith, endsWith, greaterThan, greaterEqual,
   lessThan, lessEqual, between, isIn, notIn, isNull, isNotNull]

def operands : Operator → Operands
  | isNull | isNotNull => .none
  | between => .two
  | isIn | notIn => .list
  | _ => .one

/-- Does the operator look for its operand inside a text? -/
def isPattern : Operator → Bool
  | contains | notContains | startsWith | endsWith => true
  | _ => false

/-- Does the operator compare by order? -/
def isRange : Operator → Bool
  | greaterThan | greaterEqual | lessThan | lessEqual | between => true
  | _ => false

/-- Is the operator one for fields of the type? -/
def applies (op : Operator) (type : FieldType) : Bool :=
  match op with
  | isNull | isNotNull => true
  | equals | notEquals | isIn | notIn => type.isScalar
  | contains | notContains | startsWith | endsWith => type == .string
  | greaterThan | greaterEqual | lessThan | lessEqual | between => type.isOrdered

/-- Operators are read by their names; two of them have a short name as well. -/
def reader : Reader Operator :=
  .oneOf (all.map (fun op => (op.name, op)) ++ [("greater", greaterThan), ("less", lessThan)])

def toValue (op : Operator) : Value :=
  .string op.name

end Operator

/-- A condition on a field. The conditions of a report all have to be met. -/
structure Filter where
  id : String
  entity : String
  field : String
  operator : Operator
  value : Option Value
  /-- The upper end of a range. -/
  upper : Option Value
  deriving DecidableEq

namespace Filter

def reader : Reader Filter :=
  RecordReader.reader
    (mk <$> .fieldOr "id" "" .string
      <*> .field "entityId" .string
      <*> .field "fieldId" .string
      <*> .field "operator" Operator.reader
      <*> .optional "value" .value
      <*> .optional "value2" .value)

def toValue (f : Filter) : Value :=
  .object ([("id", .string f.id),
      ("entityId", .string f.entity),
      ("fieldId", .string f.field),
      ("operator", f.operator.toValue)]
    ++ optionalMember "value" (fun v => v) f.value
    ++ optionalMember "value2" (fun v => v) f.upper)

end Filter

end ReportSql.Report
