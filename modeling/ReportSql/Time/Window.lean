import ReportSql.Decimal.Word
import ReportSql.Json.Read
import ReportSql.Time.Timestamp

/-!
# Time windows

A window is the last so many units before a reference moment, or lies between two written bounds
of which one may be open. `TimeRange.resolve` turns it into the texts of its bounds in universal
time.
-/

namespace ReportSql.Time

open ReportSql.Decimal (product?)
open ReportSql.Json (Value Reader RecordReader)

/-- The unit of a relative window. -/
inductive TimeUnit where
  | hours
  | days
  | weeks
  | months
  | years
  deriving DecidableEq

namespace TimeUnit

def name : TimeUnit → String
  | hours => "hours"
  | days => "days"
  | weeks => "weeks"
  | months => "months"
  | years => "years"

def all : List TimeUnit :=
  [hours, days, weeks, months, years]

/-- The length of the unit in seconds: a month counts 30 days and a year 365. -/
def seconds : TimeUnit → Int
  | hours => 3600
  | days => 86400
  | weeks => 604800
  | months => 30 * 86400
  | years => 365 * 86400

/-- The longest span in seconds: as many milliseconds as a signed word holds. -/
def maxSpan : Int :=
  9223372036854775

/-- The length of equally long pieces of time in seconds, when it is a span. -/
def spanOf? (length amount : Int64) : Option Int :=
  (product? amount length).bind fun n =>
    if -maxSpan ≤ n.toInt ∧ n.toInt ≤ maxSpan then some n.toInt else none

/-- The length of a number of units in seconds, when it is a span. Months and years are counted in
days first, which a signed word has to hold. -/
def span? (unit : TimeUnit) (amount : Int64) : Option Int :=
  match unit with
  | hours => spanOf? 3600 amount
  | days => spanOf? 86400 amount
  | weeks => spanOf? 604800 amount
  | months => (product? amount 30).bind (spanOf? 86400)
  | years => (product? amount 365).bind (spanOf? 86400)

def reader : Reader TimeUnit :=
  .oneOf (all.map fun u => (u.name, u))

def toValue (unit : TimeUnit) : Value :=
  .string unit.name

end TimeUnit

/-- A time window as it is asked for. -/
inductive TimeRange where
  /-- The last `amount` units before the reference moment. -/
  | relative (amount : Int64) (unit : TimeUnit)
  /-- Between two written bounds; either may be open. -/
  | absolute (start finish : Option String)
  deriving DecidableEq

/-- Why a window cannot be resolved. -/
inductive WindowError where
  | notPositive (amount : Int64)
  | outOfRange (amount : Int64)
  | unbounded
  /-- The text of a bound, without blanks at its ends. -/
  | notTimestamp (text : String)
  deriving DecidableEq

namespace WindowError

def message : WindowError → String
  | notPositive amount =>
    "relative window must be positive, got " ++ .ofList (Decimal.intText amount.toInt)
  | outOfRange amount =>
    "relative window of " ++ .ofList (Decimal.intText amount.toInt) ++ " is out of range"
  | unbounded => "absolute window needs a start or an end date"
  | notTimestamp text => "'" ++ text ++ "' is not an ISO-8601 date or timestamp"

end WindowError

/-- The moment that a written bound stands for. -/
def readBound (s : String) : Except WindowError Instant :=
  match Instant.ofText? s with
  | some t => .ok t
  | none => .error (.notTimestamp (.ofList (Text.trim s.toList)))

/-- The text of a bound. -/
def boundText (t : Instant) : String :=
  .ofList t.text

/-- The texts of the bounds of a window. -/
structure WindowBounds where
  start : Option String
  finish : Option String
  deriving DecidableEq

namespace TimeRange

/-- Reads a bound if there is one. -/
def readOpen : Option String → Except WindowError (Option Instant)
  | none => .ok none
  | some s => (readBound s).map some

/-- The bounds of the window as seen from the reference moment. -/
def resolve (now : Instant) : TimeRange → Except WindowError WindowBounds
  | relative amount unit =>
    if amount.toInt ≤ 0 then .error (.notPositive amount)
    else
      match (unit.span? amount).bind now.earlier? with
      | none => .error (.outOfRange amount)
      | some start => .ok ⟨some (boundText start), some (boundText now)⟩
  | absolute start finish => do
    let start ← readOpen start
    let finish ← readOpen finish
    if start.isNone && finish.isNone then .error .unbounded
    else .ok ⟨start.map boundText, finish.map boundText⟩

/-- Refuses the windows that no reference moment makes resolvable. -/
def check : TimeRange → Except WindowError Unit
  | relative amount _ => if amount.toInt ≤ 0 then .error (.notPositive amount) else .ok ()
  | absolute start finish => do
    if start.isNone && finish.isNone then .error .unbounded
    else
      let _ ← readOpen start
      let _ ← readOpen finish
      .ok ()

def reader : Reader TimeRange :=
  Json.taggedReader "type"
    [("relative",
      relative <$> .fieldOr "relativeValue" 0 .int64
        <*> .fieldOr "relativeUnit" .days TimeUnit.reader),
     ("absolute",
      absolute <$> .optional "startDate" .string <*> .optional "endDate" .string)]

def toValue : TimeRange → Value
  | relative amount unit =>
    .object [("type", .string "relative"), ("relativeValue", .ofInt64 amount),
      ("relativeUnit", unit.toValue)]
  | absolute start finish =>
    .object (("type", .string "absolute")
      :: (start.map fun s => ("startDate", Value.string s)).toList
      ++ (finish.map fun s => ("endDate", Value.string s)).toList)

end TimeRange

/-! ## Time fields -/

/-- The field that a window applies to: a field of the named entity, or of the primary one. -/
structure TimeField where
  entity : Option String
  field : String
  deriving DecidableEq

namespace TimeField

/-- The text before the first double colon, and the text behind it. -/
def splitColons : List Char → Option (List Char × List Char)
  | [] => none
  | [_] => none
  | a :: b :: s =>
    if a == ':' && b == ':' then some ([], s)
    else (splitColons (b :: s)).map fun (before, after) => (a :: before, after)

/-- The time field that a text stands for: `entity::field`, or a field alone. Neither part may be
empty. -/
def ofText? (s : String) : Option TimeField :=
  match splitColons s.toList with
  | some (entity, field) =>
    if entity.isEmpty || field.isEmpty then none
    else some ⟨some (.ofList entity), .ofList field⟩
  | none => if s.isEmpty then none else some ⟨none, s⟩

/-- What is said of a text that stands for no time field. -/
def invalidMessage (s : String) : String :=
  "invalid time field '" ++ s ++ "'"

/-- The text of a time field. -/
def text (t : TimeField) : String :=
  match t.entity with
  | some entity => entity ++ "::" ++ t.field
  | none => t.field

/-- The entity that owns the field. -/
def owner (t : TimeField) (primary : String) : String :=
  t.entity.getD primary

def reader : Reader TimeField :=
  .filterMap .string ofText?

def toValue (t : TimeField) : Value :=
  .string t.text

end TimeField

end ReportSql.Time
