import ReportSql.Json.Print
import ReportSql.Report.Filter
import ReportSql.Sql.Expr

/-!
# Conditions with bound values

A statement holds no value that a user gave. Each value is bound instead, and the statement refers
to it by its position; `bind` hands out positions in the order of binding.
-/

namespace ReportSql.Statement

open ReportSql.Json (Value)
open ReportSql.Report (Filter Operator)
open ReportSql.Sql (Expr)

/-- The values bound so far, the first at position one. -/
structure Bound where
  values : List Value
  deriving DecidableEq

namespace Bound

def empty : Bound :=
  ⟨[]⟩

end Bound

/-- Something built while values are bound. -/
abbrev Binding (α : Type) :=
  StateM Bound α

/-- Binds a value and answers the expression that refers to it. -/
def bind (v : Value) : Binding Expr :=
  fun b => (.param (b.values.length + 1), ⟨b.values ++ [v]⟩)

/-- Binds values in order. -/
def bindAll : List Value → Binding (List Expr)
  | [] => pure []
  | v :: rest => do
    let e ← bind v
    let es ← bindAll rest
    return e :: es

/-! ## Patterns -/

/-- The character that makes the next character of a pattern stand for itself. -/
def escapeMark : Char :=
  '!'

/-- The characters that mean something else than themselves in a pattern. -/
def isPatternMark (c : Char) : Bool :=
  c == escapeMark || c == '%' || c == '_'

/-- The pattern that matches a text and nothing else. -/
def escapePattern (s : List Char) : List Char :=
  s.flatMap fun c => if isPatternMark c then [escapeMark, c] else [c]

/-- The text that a pattern operator looks for. -/
def soughtText : Value → List Char
  | .string s => s.toList
  | v => v.compact

/-- The pattern by which an operator looks for a text. -/
def pattern (op : Operator) (s : List Char) : List Char :=
  match op with
  | .startsWith => escapePattern s ++ ['%']
  | .endsWith => '%' :: escapePattern s
  | _ => '%' :: escapePattern s ++ ['%']

/-! ## Filters -/

/-- The value of an operand; a missing one is `null`. -/
def operand (v : Option Value) : Value :=
  v.getD .null

/-- The values of a list operand. -/
def listOperand (v : Option Value) : List Value :=
  (v.bind Value.items?).getD []

/-- The comparison of an expression with a bound value. -/
def comparison (op : Sql.BinaryOp) (e : Expr) (f : Filter) : Binding Expr := do
  let v ← bind (operand f.value)
  return .binary op e v

/-- The match of an expression with a bound pattern, case disregarded. -/
def patternMatch (negated : Bool) (e : Expr) (f : Filter) : Binding Expr := do
  let p ← bind (.string (.ofList (pattern f.operator (soughtText (operand f.value)))))
  return .like e negated true escapeMark p

/-- The condition that a filter puts on an expression. -/
def filterCondition (e : Expr) (f : Filter) : Binding Expr :=
  match f.operator with
  | .equals => comparison .eq e f
  | .notEquals => comparison .ne e f
  | .greaterThan => comparison .gt e f
  | .greaterEqual => comparison .ge e f
  | .lessThan => comparison .lt e f
  | .lessEqual => comparison .le e f
  | .between => do
    let low ← bind (operand f.value)
    let high ← bind (operand f.upper)
    return .between e false low high
  | .isIn => do
    let values ← bindAll (listOperand f.value)
    return .isIn e false values
  | .notIn => do
    let values ← bindAll (listOperand f.value)
    return .isIn e true values
  | .contains | .startsWith | .endsWith => patternMatch false e f
  | .notContains => patternMatch true e f
  | .isNull => pure (.isNull e false)
  | .isNotNull => pure (.isNull e true)

end ReportSql.Statement
