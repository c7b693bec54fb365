import ReportSql.Sql.Expr

/-!
# Statements

A SELECT statement as data, and the pieces that it is written with: one selected expression and
one clause a line.
-/

namespace ReportSql.Sql

/-- An expression of the SELECT list, under its label if one is named. -/
structure SelectItem where
  expr : Expr
  label : Option String

/-- A table, in its schema and under its label if they are named. -/
structure TableRef where
  schema : Option String
  table : String
  label : Option String
  deriving DecidableEq

/-- How the rows of two tables are joined. -/
inductive JoinKind where
  | inner
  | left
  | right
  deriving DecidableEq

/-- A joined table with its condition. -/
structure Join where
  kind : JoinKind
  table : TableRef
  condition : Expr

/-- A key of the ORDER BY list. -/
structure OrderItem where
  expr : Expr
  descending : Bool

/-- A SELECT statement. -/
structure Query where
  select : List SelectItem
  source : Option TableRef
  joins : List Join
  condition : Option Expr
  groupBy : List Expr
  orderBy : List OrderItem
  limit : Option UInt64

/-- The label behind an expression or a table. -/
def labelTokens (label : Option String) : List Token :=
  match label with
  | some name => [.space, .keyword .asAlias, .space, .identifier name]
  | none => []

namespace SelectItem

def tokens (item : SelectItem) : List Token :=
  item.expr.tokens ++ labelTokens item.label

end SelectItem

namespace TableRef

def tokens (t : TableRef) : List Token :=
  .qualified t.schema t.table :: labelTokens t.label

end TableRef

namespace JoinKind

def token : JoinKind → Token
  | inner => .keyword .inner
  | left => .keyword .left
  | right => .keyword .right

end JoinKind

namespace Join

def tokens (j : Join) : List Token :=
  [j.kind.token, .space, .keyword .join, .space] ++ j.table.tokens
    ++ [.space, .keyword .onCondition, .space] ++ j.condition.tokens

end Join

namespace OrderItem

def tokens (item : OrderItem) : List Token :=
  item.expr.tokens ++ [.space, .keyword (if item.descending then .desc else .asc)]

end OrderItem

namespace Query

/-- Adds a condition to those that the rows have to meet. -/
def filter (q : Query) (condition : Expr) : Query :=
  { q with
    condition := some (match q.condition with
      | some existing => .binary .and existing condition
      | none => condition) }

/-- Groups of pieces with `between` between them. -/
def separated (between : List Token) : List (List Token) → List Token
  | [] => []
  | [ts] => ts
  | ts :: rest => ts ++ between ++ separated between rest

/-- The clause that starts on a line of its own with the given keyword, if it has any items. -/
def listClause (k : Keyword) (items : List (List Token)) : List Token :=
  if items.isEmpty then []
  else [.newline, .keyword k, .space] ++ separated [.comma, .space] items

def selectTokens (q : Query) : List Token :=
  .keyword .select ::
    if q.select.isEmpty then []
    else
      [.newline, .indent 1]
        ++ separated [.comma, .newline, .indent 1] (q.select.map SelectItem.tokens)

def sourceTokens (q : Query) : List Token :=
  match q.source with
  | some t => [.newline, .keyword .fromTable, .space] ++ t.tokens
  | none => []

def joinTokens (q : Query) : List Token :=
  q.joins.flatMap fun j => .newline :: j.tokens

def whereTokens (q : Query) : List Token :=
  match q.condition with
  | some e => [.newline, .keyword .whereRows, .space] ++ e.tokens
  | none => []

def limitClause (q : Query) : List Token :=
  match q.limit with
  | some n => .newline :: limitTokens n
  | none => []

/-- The pieces of the statement. -/
def tokens (q : Query) : List Token :=
  q.selectTokens ++ q.sourceTokens ++ q.joinTokens ++ q.whereTokens
    ++ listClause .groupBy (q.groupBy.map Expr.tokens)
    ++ listClause .orderBy (q.orderBy.map OrderItem.tokens)
    ++ q.limitClause

/-- The text of the statement. -/
def text (q : Query) (d : Dialect) : String :=
  statementText d q.tokens

end Query

end ReportSql.Sql
