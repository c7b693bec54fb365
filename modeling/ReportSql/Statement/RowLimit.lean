import ReportSql.Decimal.Word
import ReportSql.Json.Value

/-!
# Row limits

Every statement has a limit of rows: at least one row and at most as many as the cap allows. A limit
that had to be changed is reported.
-/

namespace ReportSql.Statement

open ReportSql.Decimal (signedWord? unsignedWord?)
open ReportSql.Json (Value)

/-- A limit that was asked for, and the one in force instead. -/
structure LimitClamp where
  requested : Int64
  applied : UInt64
  deriving DecidableEq

namespace LimitClamp

def toValue (c : LimitClamp) : Value :=
  .object [("requested", .ofInt64 c.requested), ("applied", .ofUInt64 c.applied)]

end LimitClamp

/-- The limits of rows in force where a report is compiled. -/
structure RowLimits where
  /-- The limit of a report that sets none. -/
  standard : UInt64
  cap : UInt64
  deriving DecidableEq

namespace RowLimits

/-- The limit that a report asks for; the standard one as far as a signed word holds it. -/
def requested (l : RowLimits) : Option Int64 → Int64
  | some n => n
  | none => (signedWord? l.standard.toNat).getD Int64.maxValue

/-- The limit nearest to the requested one that is positive and within the cap. A cap of no rows
counts as one of a single row. -/
def applied (l : RowLimits) (requested : Int64) : UInt64 :=
  match unsignedWord? requested.toInt with
  | some n => min (max n 1) (max l.cap 1)
  | none => 1

/-- The limit in force, and the report on it if it is not the requested one. -/
def apply (l : RowLimits) (limit : Option Int64) : UInt64 × Option LimitClamp :=
  let requested := l.requested limit
  let applied := l.applied requested
  (applied, if signedWord? applied.toNat = some requested then none else some ⟨requested, applied⟩)

end RowLimits

end ReportSql.Statement
