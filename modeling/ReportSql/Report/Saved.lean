import ReportSql.Json.Print
import ReportSql.Report.Config

/-!
# Saved reports

The form in which reports are kept in files: the same parts as in a report, put into sections and
marked with a version. A report is read from that form or from its own.
-/

namespace ReportSql.Report

open ReportSql.Json (Value Reader RecordReader Fault)
open ReportSql.Catalog (optionalMember)
open ReportSql.Time (TimeRange TimeField)

/-- What a report is called. -/
structure Heading where
  name : String
  description : Option String
  deriving DecidableEq

namespace Heading

def reader : Reader Heading :=
  RecordReader.reader (mk <$> .fieldOr "name" "" .string <*> .optional "description" .string)

def toValue (h : Heading) : Value :=
  .object (("name", .string h.name) :: optionalMember "description" .string h.description)

end Heading

/-- What a report shows. -/
structure DataSource where
  primaryEntity : String
  selected : List SelectedField
  deriving DecidableEq

namespace DataSource

def reader : Reader DataSource :=
  RecordReader.reader
    (mk <$> .field "primaryEntity" .string
      <*> .fieldOr "selectedFields" [] (.list SelectedField.reader))

def toValue (d : DataSource) : Value :=
  .object [("primaryEntity", .string d.primaryEntity),
    ("selectedFields", .array (d.selected.map SelectedField.toValue))]

end DataSource

/-- Which rows a report shows, and in which order. -/
structure Conditions where
  filters : List Filter
  sorting : List SortKey
  timeRange : Option TimeRange
  timeField : Option TimeField
  groupBy : List FieldRef
  limit : Option Int64
  deriving DecidableEq

namespace Conditions

def reader : Reader Conditions :=
  RecordReader.reader
    (mk <$> .fieldOr "filters" [] (.list Filter.reader)
      <*> .fieldOr "sorting" [] (.list SortKey.reader)
      <*> .optional "timeRange" TimeRange.reader
      <*> .optional "timeField" TimeField.reader
      <*> .fieldOr "groupBy" [] (.list FieldRef.reader)
      <*> .optional "limit" .int64)

def toValue (q : Conditions) : Value :=
  .object ([("filters", .array (q.filters.map Filter.toValue)),
      ("sorting", .array (q.sorting.map SortKey.toValue))]
    ++ optionalMember "timeRange" TimeRange.toValue q.timeRange
    ++ optionalMember "timeField" TimeField.toValue q.timeField
    ++ ("groupBy", .array (q.groupBy.map FieldRef.toValue))
    :: optionalMember "limit" Value.ofInt64 q.limit)

end Conditions

/-- A report as it is kept in a file. -/
structure Saved where
  version : String
  heading : Heading
  source : DataSource
  query : Conditions
  deriving DecidableEq

/-- Why a report cannot be read. -/
inductive ReportError where
  | unreadable (fault : Fault)
  | unsupportedVersion (version : String)
  deriving DecidableEq

namespace ReportError

def message : ReportError → String
  | unreadable .malformed => "Invalid report JSON: malformed text"
  | unreadable .unfinished => "Invalid report JSON: the text ends early"
  | unreadable .mismatch => "Invalid report JSON: not a report"
  | unsupportedVersion version =>
    "Unsupported report file version '" ++ version ++ "' (expected \"1.0\")"

end ReportError

namespace Saved

/-- The version that is written and read. -/
def currentVersion : String :=
  "1.0"

def reader : Reader Saved :=
  RecordReader.reader
    (mk <$> .field "version" .string
      <*> .fieldOr "report" ⟨"", none⟩ Heading.reader
      <*> .field "dataSource" DataSource.reader
      <*> .field "query" Conditions.reader)

def toValue (s : Saved) : Value :=
  .object [("version", .string s.version),
    ("report", s.heading.toValue),
    ("dataSource", s.source.toValue),
    ("query", s.query.toValue)]

/-- The saved form of a report. -/
def ofConfig (c : Config) : Saved :=
  ⟨currentVersion, ⟨c.name.getD "", c.description⟩,
    ⟨c.primaryEntity.getD "", c.selected⟩,
    ⟨c.filters, c.sorting, c.timeRange, c.timeField, c.groupBy, c.limit⟩⟩

/-- The report that was saved. An empty name or entity means that none was set. -/
def toConfig (s : Saved) : Config where
  name := some s.heading.name |>.filter fun n => !n.isEmpty
  description := s.heading.description
  primaryEntity := some s.source.primaryEntity |>.filter fun p => !p.isEmpty
  selected := s.source.selected
  filters := s.query.filters
  sorting := s.query.sorting
  groupBy := s.query.groupBy
  timeRange := s.query.timeRange
  timeField := s.query.timeField
  limit := s.query.limit

/-- Refuses versions other than the current one. -/
def checked (s : Saved) : Except ReportError Saved :=
  if s.version = currentVersion then .ok s else .error (.unsupportedVersion s.version)

/-- The saved report that a text holds. -/
def ofText (text : String) : Except ReportError Saved :=
  match Json.readText reader text with
  | .ok s => s.checked
  | .error f => .error (.unreadable f)

/-- The text of a saved report. -/
def text (s : Saved) : String :=
  s.toValue.prettyText

end Saved

namespace Config

/-- The report that a value holds, in its saved form if a version is given. -/
def ofValue (v : Value) : Except ReportError Config :=
  if (v.get? "version").isSome then
    match Json.readValue Saved.reader v with
    | .ok s => s.checked.map Saved.toConfig
    | .error f => .error (.unreadable f)
  else
    match Json.readValue reader v with
    | .ok c => .ok c
    | .error f => .error (.unreadable f)

/-- The report that a text holds. -/
def ofText (text : String) : Except ReportError Config :=
  match Value.ofText? text with
  | .ok v => ofValue v
  | .error f => .error (.unreadable f)

end Config

end ReportSql.Report
