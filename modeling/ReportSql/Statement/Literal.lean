import ReportSql.Statement.Compiled

/-!
# Statements to look at

A statement with each placeholder replaced by its value, for showing it to people. The statement
that is run keeps its placeholders.
-/

namespace ReportSql.Statement

open ReportSql.Json (Value Number)
open ReportSql.Sql (Token)

/-- The piece that shows a value. A number is shown as an integer if a signed word holds it. -/
def literal : Value → Token
  | .null => .null
  | .bool b => .boolean b
  | .number (.integer n) =>
    if n.toInt64?.isSome then .integer n.value else .real (Number.integer n).toDouble
  | .number (.real x) => .real (.finite x)
  | .string s => .string s
  | v => .string v.compactText

/-- A piece with its value in place of a placeholder, if there is a value for it. -/
def inlined (values : List Value) : Token → Token
  | .placeholder (index + 1) =>
    match values[index]? with
    | some v => literal v
    | none => .placeholder (index + 1)
  | t => t

/-- The statement with its values in place. -/
def Compiled.preview (c : Compiled) : String :=
  Sql.statementText c.dialect (c.query.tokens.map (inlined c.parameters))

end ReportSql.Statement
