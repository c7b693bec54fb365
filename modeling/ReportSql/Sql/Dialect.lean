import ReportSql.Json.Read
import ReportSql.Decimal.Text

/-!
# Dialects

The differences between the SQL dialects that a statement is written in: the quotes around
identifiers, the placeholders of bound values, truth values, and whether there is a pattern match
without regard to case. A quote inside a quoted text is written twice in all of them.
-/

namespace ReportSql.Sql

/-- A dialect of SQL. -/
inductive Dialect where
  | postgres
  | duckdb
  | mysql
  deriving DecidableEq

/-- A text between two quotes, with each quote inside it doubled. -/
def quoted (quote : Char) (s : String) : List Char :=
  quote :: s.toList.flatMap (fun c => if c = quote then [quote, quote] else [c]) ++ [quote]

namespace Dialect

def name : Dialect → String
  | postgres => "postgres"
  | duckdb => "duckdb"
  | mysql => "mysql"

def all : List Dialect :=
  [postgres, duckdb, mysql]

/-- The quote around identifiers. -/
def identifierQuote : Dialect → Char
  | postgres | duckdb => '"'
  | mysql => '\x60'

def quoteIdentifier (d : Dialect) (s : String) : List Char :=
  quoted d.identifierQuote s

/-- All dialects write texts in single quotes. -/
def quoteString (_ : Dialect) (s : String) : List Char :=
  quoted '\x27' s

/-- The text of a truth value. -/
def boolText : Dialect → Bool → String
  | postgres, b | duckdb, b => if b then "true" else "false"
  | mysql, b => if b then "1" else "0"

/-- The placeholder of the bound value at a position, counted from one. -/
def placeholder : Dialect → Nat → List Char
  | postgres, n | duckdb, n => '$' :: Decimal.natText n
  | mysql, _ => ['?']

/-- Is there a pattern match that disregards case? -/
def hasCaselessMatch : Dialect → Bool
  | postgres | duckdb => true
  | mysql => false

/-- The dialect of a name in any case of ASCII letters. -/
def ofName? (s : String) : Except String Dialect :=
  let lower := s.map Char.toLower
  if lower == "postgres" || lower == "postgresql" then .ok postgres
  else if lower == "duckdb" then .ok duckdb
  else if lower == "mysql" then .ok mysql
  else .error ("unsupported dialect: " ++ lower)

/-- A dialect in a document, by its exact name. -/
def reader : Json.Reader Dialect :=
  .oneOf (all.map fun d => (d.name, d))

def toValue (d : Dialect) : Json.Value :=
  .string d.name

end Dialect

end ReportSql.Sql
