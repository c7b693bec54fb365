import ReportSql.Statement.Compiled

/-!
# Exchange with the database side

What is handed over for execution, and what comes back.
-/

namespace ReportSql.Execution

open ReportSql.Json (Value Reader RecordReader)
open ReportSql.Catalog (optionalMember)
open ReportSql.Statement (Compiled ExpectedColumn)

/-! ## Requests -/

/-- What is handed over to run a compiled report: its statement, its values and its columns. -/
def requestValue (c : Compiled) : Value :=
  .object [("sql", .string c.sql),
    ("parameters", .array c.parameters),
    ("expectedColumns", .array (c.columns.map ExpectedColumn.toValue))]

/-- What is handed over to show a compiled report: its statement, placeholders in place. -/
def previewValue (c : Compiled) : Value :=
  .object [("sql", .string c.sql)]

/-! ## Results -/

/-- What the database side says of a column. -/
structure ResultColumn where
  name : String
  displayName : String
  type : String
  entity : Option String
  field : Option String
  deriving DecidableEq

namespace ResultColumn

/-- An expected column as a column of a result. -/
def ofExpected (c : ExpectedColumn) : ResultColumn :=
  ⟨c.name, c.displayName, c.type.name, some c.entity, some c.field⟩

def reader : Reader ResultColumn :=
  RecordReader.reader
    (mk <$> .field "name" .string
      <*> .fieldOr "displayName" "" .string
      <*> .fieldOr "type" "string" .string
      <*> .optional "entityId" .string
      <*> .optional "fieldId" .string)

def toValue (c : ResultColumn) : Value :=
  .object ([("name", .string c.name),
      ("displayName", .string c.displayName),
      ("type", .string c.type)]
    ++ optionalMember "entityId" .string c.entity
    ++ optionalMember "fieldId" .string c.field)

end ResultColumn

/-- The rows of a result. A row holds a value for each column name. -/
structure QueryResult where
  columns : List ResultColumn
  rows : List (List (String × Value))
  totalRows : UInt64
  executionTimeMs : Decimal.Binary64

namespace QueryResult

def reader : Reader QueryResult :=
  RecordReader.reader
    (mk <$> .field "columns" (.list ResultColumn.reader)
      <*> .field "rows" (.list .members)
      <*> .field "totalRows" .uint64
      <*> .field "executionTimeMs" .double)

def toValue (r : QueryResult) : Value :=
  .object [("columns", .array (r.columns.map ResultColumn.toValue)),
    ("rows", .array (r.rows.map .object)),
    ("totalRows", .ofUInt64 r.totalRows),
    ("executionTimeMs", .number (.real r.executionTimeMs))]

end QueryResult

end ReportSql.Execution
