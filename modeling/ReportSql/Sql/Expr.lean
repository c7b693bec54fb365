import ReportSql.Sql.Token

/-!
# Expressions

The expressions of a statement and the pieces that they are written with. No expression holds a
value that a user gave: such a value is bound at the position that `Expr.param` names.
-/

namespace ReportSql.Sql

/-- Operators between two expressions. -/
inductive BinaryOp where
  | eq
  | ne
  | lt
  | gt
  | le
  | ge
  | and
  | div
  deriving DecidableEq

namespace BinaryOp

def token : BinaryOp → Token
  | eq => .sign .eq
  | ne => .sign .ne
  | lt => .sign .lt
  | gt => .sign .gt
  | le => .sign .le
  | ge => .sign .ge
  | and => .keyword .and
  | div => .sign .div

end BinaryOp

/-- An expression of a statement. -/
inductive Expr where
  /-- A column, of the table with the given label if one is named. -/
  | column (table : Option String) (name : String)
  /-- A constant that the catalog declares. -/
  | number (x : Decimal.Double)
  /-- A bound value by its position, counted from one. -/
  | param (index : Nat)
  | binary (op : BinaryOp) (left right : Expr)
  | call (function : String) (distinct : Bool) (args : List Expr)
  | isIn (e : Expr) (negated : Bool) (values : List Expr)
  | between (e : Expr) (negated : Bool) (low high : Expr)
  /-- A test for no value; negated, for any value. -/
  | isNull (e : Expr) (negated : Bool)
  | like (e : Expr) (negated caseless : Bool) (escape : Char) (pattern : Expr)

namespace Expr

/-- The word that negates a test, if it is negated. -/
def negation (negated : Bool) : List Token :=
  if negated then [.space, .keyword .not] else []

mutual

/-- The pieces of an expression. Membership in an empty list has no form in SQL and is written as
the truth value that it has. -/
def tokens : Expr → List Token
  | column none name => [.identifier name]
  | column (some table) name => [.identifier table, .dot, .identifier name]
  | number x => [.real x]
  | param index => [.placeholder index]
  | binary op left right => tokens left ++ [.space, op.token, .space] ++ tokens right
  | call function distinct args =>
    [.function function, .leftParen]
      ++ (if distinct then [.keyword .distinct, .space] else [])
      ++ listTokens args ++ [.rightParen]
  | isIn _ negated [] => [.keyword (if negated then .trueValue else .falseValue)]
  | isIn e negated (v :: values) =>
    tokens e ++ negation negated ++ [.space, .keyword .isIn, .space, .leftParen]
      ++ listTokens (v :: values) ++ [.rightParen]
  | between e negated low high =>
    tokens e ++ negation negated ++ [.space, .keyword .between, .space]
      ++ tokens low ++ [.space, .keyword .and, .space] ++ tokens high
  | isNull e negated =>
    tokens e ++ [.space, .keyword (if negated then .isNotNull else .isNull)]
  | like e negated caseless escape pattern =>
    tokens e ++ negation negated
      ++ [.space, .keyword (if caseless then .caselessLike else .like), .space]
      ++ tokens pattern ++ [.space, .keyword .escape, .space, .string (.singleton escape)]

/-- Expressions with commas between them. -/
def listTokens : List Expr → List Token
  | [] => []
  | e :: rest => tokens e ++ restTokens rest

/-- Expressions with a comma before each. -/
def restTokens : List Expr → List Token
  | [] => []
  | e :: rest => [.comma, .space] ++ tokens e ++ restTokens rest

end

theorem listTokens_singleton (e : Expr) : listTokens [e] = e.tokens := by
  simp [listTokens, restTokens]

/-- A call with one argument. -/
theorem tokens_call_singleton (function : String) (distinct : Bool) (e : Expr) :
    (call function distinct [e]).tokens =
      [.function function, .leftParen] ++ (if distinct then [.keyword .distinct, .space] else [])
        ++ e.tokens ++ [.rightParen] := by
  simp [tokens, listTokens_singleton]

/-! ## Aggregates -/

def count (e : Expr) : Expr :=
  call "COUNT" false [e]

def countDistinct (e : Expr) : Expr :=
  call "COUNT" true [e]

def sum (e : Expr) : Expr :=
  call "SUM" false [e]

def avg (e : Expr) : Expr :=
  call "AVG" false [e]

def min (e : Expr) : Expr :=
  call "MIN" false [e]

def max (e : Expr) : Expr :=
  call "MAX" false [e]

end Expr

end ReportSql.Sql
