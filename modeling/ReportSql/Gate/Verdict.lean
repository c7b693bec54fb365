import ReportSql.Gate.Normal
import ReportSql.Text.Replace
import ReportSql.Text.Upper

/-!
# The gate for written statements

A statement that somebody wrote is let through in its normal form if it starts with a word that
reads, and if no word that changes data occurs in it, not even inside quotes.
-/

namespace ReportSql.Gate

/-- The words that a statement that reads may start with. -/
def readingWords : List (List Char) :=
  ["select".toList, "with".toList]

/-- The words that no statement may hold. -/
def forbiddenWords : List (List Char) :=
  ["insert".toList, "update".toList, "delete".toList, "drop".toList, "create".toList,
   "alter".toList, "truncate".toList, "grant".toList, "revoke".toList]

/-- Why a statement is not let through. -/
inductive Rejection where
  | empty
  | notReadOnly
  /-- A forbidden word occurs, as it is written in upper case. -/
  | forbidden (word : String)
  deriving DecidableEq

namespace Rejection

def message : Rejection → String
  | empty => "Query is empty"
  | notReadOnly => "Only SELECT or WITH queries are allowed"
  | forbidden word => "Query contains forbidden keyword: " ++ word

end Rejection

/-- The verdict on a statement in its normal form. -/
def judge (s : List Char) : Except Rejection (List Char) :=
  if s.isEmpty then .error .empty
  else if (Text.wholeWord? readingWords s).isNone then .error .notReadOnly
  else
    match Text.findWord? forbiddenWords none s with
    | some word => .error (.forbidden (.ofList (Text.upper word)))
    | none => .ok s

/-- Lets a statement through in its normal form, or rejects it. -/
def check (s : List Char) : Except Rejection (List Char) :=
  judge (normalize s)

end ReportSql.Gate
