import ReportSql.Report.Config

/-!
# Editing reports

The steps by which a report is put together. They keep selected fields, sort keys and keys to group
by free of repetitions; a report that was read may hold some, and `dedup` drops them.
-/

namespace ReportSql.Report.Config

open ReportSql.Catalog (Aggregation)
open ReportSql.Time (TimeRange TimeField)

def isSelected (c : Config) (r : FieldRef) : Bool :=
  c.selected.any fun s => s.ref == r

/-- Selects a field, unless it is selected already. -/
def addField (c : Config) (s : SelectedField) : Config × Bool :=
  if c.isSelected s.ref then (c, false) else ({ c with selected := c.selected ++ [s] }, true)

/-- Deselects a field, and drops its sort key and its key to group by with it. -/
def removeField (c : Config) (r : FieldRef) : Config × Bool :=
  if c.isSelected r then
    ({ c with
      selected := c.selected.filter fun s => s.ref != r
      sorting := c.sorting.filter fun s => s.ref != r
      groupBy := c.groupBy.filter (· != r) }, true)
  else (c, false)

/-- Changes the first element that a test holds of. -/
def modifyFirst {α : Type} (p : α → Bool) (f : α → α) : List α → List α
  | [] => []
  | a :: rest => if p a then f a :: rest else a :: modifyFirst p f rest

/-- Sets or clears the aggregation of a selected field. -/
def setAggregation (c : Config) (r : FieldRef) (a : Option Aggregation) : Config × Bool :=
  if c.isSelected r then
    ({ c with
      selected := modifyFirst (fun s => s.ref == r) (fun s => { s with aggregation := a })
        c.selected }, true)
  else (c, false)

/-- The id that is given to a filter without one. -/
def filterId (n : Nat) : String :=
  "filter-" ++ .ofList (Decimal.natText n)

/-- Is the id one of a filter? -/
def hasFilter (c : Config) (id : String) : Bool :=
  c.filters.any (·.id == id)

/-- The first id from the `n`th on that no filter has, among as many as given and the next. -/
def freshId (c : Config) : Nat → Nat → String
  | 0, n => filterId n
  | tries + 1, n => if c.hasFilter (filterId n) then freshId c tries (n + 1) else filterId n

/-- Appends a filter and answers its id. A filter without an id gets a fresh one: of as many ids
as there are filters and one more, one is free. -/
def addFilter (c : Config) (f : Filter) : Config × String :=
  let n := c.filters.length
  let id := if f.id.isEmpty then c.freshId n (n + 1) else f.id
  ({ c with filters := c.filters ++ [{ f with id := id }] }, id)

/-- Drops the filters of the given id. -/
def removeFilter (c : Config) (id : String) : Config × Bool :=
  if c.hasFilter id then ({ c with filters := c.filters.filter (·.id != id) }, true)
  else (c, false)

/-- Is there a sort key for the field? -/
def hasSort (c : Config) (r : FieldRef) : Bool :=
  c.sorting.any fun s => s.ref == r

/-- Adds a sort key, or changes the direction of the one there is. -/
def addSort (c : Config) (r : FieldRef) (d : SortDirection) : Config :=
  if c.hasSort r then
    { c with
      sorting := modifyFirst (fun s => s.ref == r) (fun s => { s with direction := d })
        c.sorting }
  else { c with sorting := c.sorting ++ [⟨r.entity, r.field, d⟩] }

def removeSort (c : Config) (r : FieldRef) : Config × Bool :=
  if c.hasSort r then ({ c with sorting := c.sorting.filter fun s => s.ref != r }, true)
  else (c, false)

/-- The elements whose key has not occurred before. -/
def firstBy {α : Type} (key : α → FieldRef) : List FieldRef → List α → List α
  | _, [] => []
  | seen, a :: rest =>
    if seen.contains (key a) then firstBy key seen rest
    else a :: firstBy key (key a :: seen) rest

/-- Replaces the keys to group by; of repeated keys the first stays. -/
def setGroupBy (c : Config) (keys : List FieldRef) : Config :=
  { c with groupBy := firstBy id [] keys }

def setTimeWindow (c : Config) (range : TimeRange) (field : TimeField) : Config :=
  { c with timeRange := some range, timeField := some field }

def clearTimeWindow (c : Config) : Config :=
  { c with timeRange := none, timeField := none }

def setLimit (c : Config) (limit : Option Int64) : Config :=
  { c with limit := limit }

/-- Drops repeated selected fields, sort keys and keys to group by; the first of each stays. -/
def dedup (c : Config) : Config :=
  { c with
    selected := firstBy SelectedField.ref [] c.selected
    sorting := firstBy SortKey.ref [] c.sorting
    groupBy := firstBy id [] c.groupBy }

end ReportSql.Report.Config
