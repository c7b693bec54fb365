import ReportSql.Catalog.Registry
import ReportSql.Report.Edit
import ReportSql.Statement.Error

/-!
# Resolved reports

A resolved report names entities and fields of the catalog, and all rules hold for it. `resolve`
checks the rules in a fixed order and reports the first one that is broken: the primary entity, the
selected fields, the filters, the sort keys, the keys to group by, the rules of grouping, and the
time window. Of repeated selected fields, sort keys and keys to group by the first one stays.
-/

namespace ReportSql.Statement

open ReportSql.Json (Value)
open ReportSql.Catalog
open ReportSql.Report
open ReportSql.Time (TimeRange TimeField)

/-- A field of the catalog together with its entity. -/
structure Target where
  entity : Entity
  field : Field
  deriving DecidableEq

namespace Target

def ref (t : Target) : FieldRef :=
  ⟨t.entity.id, t.field.id⟩

end Target

/-- A part of a report at its position, with the field that it names. -/
structure Placed (α : Type) where
  index : Nat
  part : α
  target : Target

/-- A report that obeys all rules. -/
structure Resolved where
  primary : Entity
  selected : List (Placed SelectedField)
  filters : List (Placed Filter)
  sorting : List (Placed SortKey)
  groupBy : List (Placed FieldRef)
  window : Option (TimeRange × Target)

namespace Resolved

def isGrouped (r : Resolved) : Bool :=
  !r.groupBy.isEmpty

/-- Is the field a key to group by? -/
def isKey (r : Resolved) (ref : FieldRef) : Bool :=
  r.groupBy.any fun key => key.part == ref

/-- The aggregation under which a field is selected. -/
def aggregation? (r : Resolved) (ref : FieldRef) : Option Aggregation :=
  (r.selected.find? fun s => s.part.ref == ref && s.part.aggregation.isSome).bind
    fun s => s.part.aggregation

end Resolved

/-! ## Fields -/

/-- The field of the catalog that a part of the report names. -/
def target (r : Registry) (place : Location) (ref : FieldRef) : Except CompileError Target :=
  match r.entity? ref.entity with
  | none => .error (.schema place (.unknownEntity ref))
  | some entity =>
    match entity.field? ref.field with
    | none => .error (.schema place (.unknownField ref))
    | some field => .ok ⟨entity, field⟩

/-- Finds the fields that the elements of a list name, the first of them at position `index`, and
checks each element against its field. -/
def placeAll {α : Type} (r : Registry) (place : Nat → Location) (ref : α → FieldRef)
    (check : Location → α → Field → Except CompileError Unit) (index : Nat) :
    List α → Except CompileError (List (Placed α))
  | [] => .ok []
  | part :: rest => do
    let t ← target r (place index) (ref part)
    check (place index) part t.field
    let more ← placeAll r place ref check (index + 1) rest
    .ok (⟨index, part, t⟩ :: more)

/-- Nothing is asked of the field beyond its being there. -/
def noCheck {α : Type} (_ : Location) (_ : α) (_ : Field) : Except CompileError Unit :=
  .ok ()

/-! ## Filters -/

/-- What is wrong with the operands of a filter, if anything is. -/
def operandProblem? (f : Filter) : Option TypeProblem :=
  match f.operator.operands with
  | .none => none
  | .one =>
    match f.value with
    | some (.string _) | some (.number _) => none
    | some (.bool _) => if f.operator.isPattern then some (.notSingle f.operator) else none
    | some (.array _) | some (.object _) => some (.notSingle f.operator)
    | some .null | none => some (.noValue f.operator)
  | .two =>
    if f.value.any Value.isScalar && f.upper.any Value.isScalar then none
    else some (.notTwoValues f.operator)
  | .list =>
    match f.value with
    | some (.array items) =>
      if items.all Value.isScalar then none else some (.notPlainList f.operator)
    | _ => some (.notList f.operator)

/-- Checks the operator and the operands of a filter on the given field. -/
def checkFilter (place : Location) (f : Filter) (field : Field) : Except CompileError Unit :=
  if f.operator.applies field.type then
    match operandProblem? f with
    | none => .ok ()
    | some problem => .error (.type place f.ref problem)
  else .error (.type place f.ref (.notApplicable f.operator field.type))

/-! ## Grouping -/

/-- What is wrong with the aggregation of a selected field, if anything is. -/
def aggregationProblem? (keys : List FieldRef) (s : Placed SelectedField) :
    Option AggregationProblem :=
  match s.part.aggregation with
  | some a =>
    if keys.isEmpty then some (.notGrouped a)
    else if s.target.field.allows a then none
    else some (.notPermitted a)
  | none =>
    if keys.isEmpty || keys.contains s.part.ref then none
    else some .neitherGroupedNorAggregated

/-- Checks the aggregations of the selected fields. -/
def checkSelected (keys : List FieldRef) : List (Placed SelectedField) → Except CompileError Unit
  | [] => .ok ()
  | s :: rest =>
    match aggregationProblem? keys s with
    | some problem => .error (.aggregation (.selected s.index) s.part.ref problem)
    | none => checkSelected keys rest

/-- May a report that is grouped by the keys be sorted by the field? -/
def isSortable (keys : List FieldRef) (selected : List (Placed SelectedField)) (ref : FieldRef) :
    Bool :=
  keys.isEmpty || keys.contains ref ||
    selected.any fun s => s.part.ref == ref && s.part.aggregation.isSome

/-- Checks the sort keys of a report that may be grouped. -/
def checkSorting (keys : List FieldRef) (selected : List (Placed SelectedField)) :
    List (Placed SortKey) → Except CompileError Unit
  | [] => .ok ()
  | s :: rest =>
    if isSortable keys selected s.part.ref then checkSorting keys selected rest
    else .error (.aggregation (.sort s.index) s.part.ref .sortedByOther)

/-! ## Time window -/

/-- The field that a time window applies to. -/
def windowTarget (r : Registry) (primary : String) (field : Option TimeField)
    (range : TimeRange) : Except CompileError Target :=
  match field with
  | none => .error (.schema .timeField .noTimeField)
  | some asked => do
    let t ← target r .timeField ⟨asked.owner primary, asked.field⟩
    if t.field.type.isTemporal then
      match range.check with
      | .ok () => .ok t
      | .error cause => .error (.schema .timeRange (.window t.ref cause))
    else .error (.schema .timeField (.notTemporal t.ref asked t.field.type))

/-- The time window with its field, if there is one. -/
def resolveWindow (r : Registry) (c : Config) (primary : String) :
    Except CompileError (Option (TimeRange × Target)) :=
  match c.timeRange with
  | none => .ok none
  | some range => do
    let t ← windowTarget r primary c.timeField range
    .ok (some (range, t))

/-! ## Whole reports -/

/-- The entity that the report starts from. -/
def resolvePrimary (r : Registry) (c : Config) : Except CompileError Entity :=
  match c.primary? with
  | none => .error (.schema .primaryEntity .noPrimaryEntity)
  | some id =>
    match r.entity? id with
    | none => .error (.schema .primaryEntity (.unknownPrimaryEntity id))
    | some entity => .ok entity

/-- The elements whose field no earlier element names. -/
def firstPlaced {α : Type} (ref : α → FieldRef) (parts : List (Placed α)) : List (Placed α) :=
  Config.firstBy (fun p => ref p.part) [] parts

/-- Resolves a report, or finds the first rule that it breaks. -/
def resolve (r : Registry) (c : Config) : Except CompileError Resolved := do
  let primary ← resolvePrimary r c
  if c.selected.isEmpty then throw (.schema (.selected 0) .nothingSelected)
  let selected ← placeAll r .selected SelectedField.ref noCheck 0 c.selected
  let filters ← placeAll r .filter Filter.ref checkFilter 0 c.filters
  let sorting ← placeAll r .sort SortKey.ref noCheck 0 c.sorting
  let groupBy ← placeAll r .groupBy (fun ref => ref) noCheck 0 c.groupBy
  let selected := firstPlaced SelectedField.ref selected
  let sorting := firstPlaced SortKey.ref sorting
  checkSelected c.groupBy selected
  checkSorting c.groupBy selected sorting
  let window ← resolveWindow r c primary.id
  return ⟨primary, selected, filters, sorting, firstPlaced (fun ref => ref) groupBy, window⟩

end ReportSql.Statement
