import ReportSql.Execution.Masking
import ReportSql.Json.Value

/-!
# Failures of execution

A message from a database is put into one of a few kinds by the phrases that occur in it, and each
kind comes with advice.
-/

namespace ReportSql.Execution

open ReportSql.Json (Value)

/-- The kind of a failure. -/
inductive FailureKind where
  | connection
  | auth
  | syntaxError
  | reference
  | timeout
  | security
  | other
  deriving DecidableEq

namespace FailureKind

def name : FailureKind → String
  | connection => "connection"
  | auth => "auth"
  | syntaxError => "syntax"
  | reference => "reference"
  | timeout => "timeout"
  | security => "security"
  | other => "other"

/-- What can be done about a failure of the kind. -/
def guidance : FailureKind → String
  | connection => "Could not reach the database. Check that it is running and reachable."
  | auth => "The database rejected the credentials."
  | syntaxError => "The generated SQL was rejected as invalid."
  | reference => "A table or column in the catalog does not exist in the database."
  | timeout => "The query took too long. Narrow the time range or add filters."
  | security => "The statement is not allowed."
  | other => "The query failed."

/-- The phrases that tell the kind of a failure; the first kind with a phrase that occurs is the
one. -/
def phrases : List (FailureKind × List String) :=
  [(timeout, ["timeout", "timed out", "canceling statement"]),
   (auth, ["password authentication", "authentication failed", "access denied",
     "permission denied"]),
   (connection, ["connection refused", "could not connect", "connection reset",
     "no route to host", "name or service not known"]),
   (security, ["read-only transaction", "not allowed", "forbidden keyword"]),
   (syntaxError, ["syntax error", "parse error"]),
   (reference, ["does not exist", "unknown column", "no such table", "no such column",
     "undefined"])]

/-- The kind of a failure with the given message. Case is disregarded. -/
def ofMessage (message : List Char) : FailureKind :=
  let lower := message.flatMap Text.lowerLatin
  match phrases.find? fun entry => entry.2.any fun p => Text.containsWord p.toList lower with
  | some entry => entry.1
  | none => other

end FailureKind

/-- A failure as it may be shown. -/
structure Failure where
  kind : FailureKind
  message : String
  deriving DecidableEq

namespace Failure

/-- The failure that a database reports with a message. -/
def ofMessage (message : String) : Failure :=
  ⟨.ofMessage message.toList, .ofList (sanitize message.toList)⟩

def text (f : Failure) : String :=
  f.kind.name ++ " error: " ++ f.message

def toValue (f : Failure) : Value :=
  .object [("kind", .string f.kind.name), ("message", .string f.message)]

end Failure

end ReportSql.Execution
