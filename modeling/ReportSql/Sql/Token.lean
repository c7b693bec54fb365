import ReportSql.Decimal.Word
import ReportSql.Sql.Dialect
import ReportSql.Text.Upper

/-!
# Tokens

The pieces that a statement consists of. No keyword that changes data is among them. `tokenText`
writes a piece in a dialect; `render` writes a statement unless it holds a number that SQL has no
text for.
-/

namespace ReportSql.Sql

open ReportSql.Decimal

/-- The keywords of a read-only statement. -/
inductive Keyword where
  | select
  | fromTable
  | whereRows
  | and
  | not
  | asAlias
  | onCondition
  | join
  | inner
  | left
  | right
  | groupBy
  | orderBy
  | asc
  | desc
  | limit
  | isIn
  | between
  | like
  | caselessLike
  | escape
  | isNull
  | isNotNull
  | distinct
  | trueValue
  | falseValue
  deriving DecidableEq

namespace Keyword

/-- The words of a keyword. Where case cannot be disregarded in a match, the plain match stands
for it. -/
def text (d : Dialect) : Keyword → String
  | select => "SELECT"
  | fromTable => "FROM"
  | whereRows => "WHERE"
  | and => "AND"
  | not => "NOT"
  | asAlias => "AS"
  | onCondition => "ON"
  | join => "JOIN"
  | inner => "INNER"
  | left => "LEFT"
  | right => "RIGHT"
  | groupBy => "GROUP BY"
  | orderBy => "ORDER BY"
  | asc => "ASC"
  | desc => "DESC"
  | limit => "LIMIT"
  | isIn => "IN"
  | between => "BETWEEN"
  | like => "LIKE"
  | caselessLike => if d.hasCaselessMatch then "ILIKE" else "LIKE"
  | escape => "ESCAPE"
  | isNull => "IS NULL"
  | isNotNull => "IS NOT NULL"
  | distinct => "DISTINCT"
  | trueValue => "TRUE"
  | falseValue => "FALSE"

end Keyword

/-- Comparison signs and the division sign. -/
inductive Sign where
  | eq
  | ne
  | lt
  | gt
  | le
  | ge
  | div
  deriving DecidableEq

namespace Sign

def text : Sign → String
  | eq => "="
  | ne => "<>"
  | lt => "<"
  | gt => ">"
  | le => "<="
  | ge => ">="
  | div => "/"

end Sign

/-- A piece of a statement. -/
inductive Token where
  | keyword (k : Keyword)
  | sign (s : Sign)
  | comma
  | dot
  | leftParen
  | rightParen
  | space
  | newline
  /-- The blanks at the start of a line, two for each level. -/
  | indent (levels : Nat)
  | identifier (name : String)
  /-- A table, in its schema if one is named. -/
  | qualified (schema : Option String) (name : String)
  | integer (n : Int)
  | real (x : Double)
  | string (s : String)
  | boolean (b : Bool)
  | null
  /-- The place of a bound value, counted from one. -/
  | placeholder (index : Nat)
  /-- The name of a function, written in upper case. -/
  | function (name : String)
  deriving DecidableEq

/-- The text of a piece. A number that is not finite has none. -/
def tokenText (d : Dialect) : Token → List Char
  | .keyword k => (k.text d).toList
  | .sign s => s.text.toList
  | .comma => [',']
  | .dot => ['.']
  | .leftParen => ['(']
  | .rightParen => [')']
  | .space => [' ']
  | .newline => ['\n']
  | .indent levels => List.replicate (2 * levels) ' '
  | .identifier name => d.quoteIdentifier name
  | .qualified (some schema) name =>
    d.quoteIdentifier schema ++ '.' :: d.quoteIdentifier name
  | .qualified none name => d.quoteIdentifier name
  | .integer n => intText n
  | .real (.finite x) => statementStyle.write x
  | .real (.infinite _) => []
  | .real .nan => []
  | .string s => d.quoteString s
  | .boolean b => (d.boolText b).toList
  | .null => ['N', 'U', 'L', 'L']
  | .placeholder index => d.placeholder index
  | .function name => Text.upper name.toList

/-- The text of the pieces one after another. -/
def statementText (d : Dialect) (tokens : List Token) : String :=
  .ofList (tokens.flatMap (tokenText d))

/-- A number that SQL has no text for. -/
inductive Unwritable where
  | nan
  | infinite
  deriving DecidableEq

namespace Unwritable

def message : Unwritable → String
  | nan => "Cannot serialize NaN to SQL"
  | infinite => "Cannot serialize Infinity to SQL"

end Unwritable

/-- Why a piece cannot be written, if it cannot. -/
def Token.unwritable? : Token → Option Unwritable
  | .real .nan => some .nan
  | .real (.infinite _) => some .infinite
  | _ => none

/-- The text of a statement, unless a piece cannot be written. -/
def render (d : Dialect) (tokens : List Token) : Except Unwritable String :=
  match tokens.findSome? Token.unwritable? with
  | some u => .error u
  | none => .ok (statementText d tokens)

/-- The clause that limits the rows. A statement writes no number beyond a signed word. -/
def limitTokens (limit : UInt64) : List Token :=
  [.keyword .limit, .space, .integer ((signedWord? limit.toNat).getD Int64.maxValue).toInt]

end ReportSql.Sql
