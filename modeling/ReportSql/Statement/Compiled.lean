import ReportSql.Catalog.Encoding
import ReportSql.Statement.Condition
import ReportSql.Statement.Resolved
import ReportSql.Statement.RowLimit

/-!
# Compiled reports

The statement of a report, with the values bound in it and what is known of its columns. `compile`
resolves the report, joins the entities that it mentions to the primary one, and puts the statement
together.
-/

namespace ReportSql.Statement

open ReportSql.Json (Value)
open ReportSql.Catalog
open ReportSql.Report
open ReportSql.Sql (Dialect Expr Join OrderItem Query SelectItem TableRef)
open ReportSql.Join (JoinEdge JoinPath Memo)
open ReportSql.Time (Instant TimeRange WindowBounds)

/-- How reports are compiled. -/
structure Options where
  dialect : Dialect
  limits : RowLimits
  /-- May column names hint at encodings? -/
  inferEncodings : Bool
  /-- The moment that relative time windows end at. -/
  now : Instant

/-- What is known of a column of the result. -/
structure ExpectedColumn where
  name : String
  displayName : String
  type : FieldType
  entity : String
  field : String
  aggregation : Option Aggregation
  /-- The unit of decoded values. -/
  unit : Option String
  deriving DecidableEq

namespace ExpectedColumn

def toValue (c : ExpectedColumn) : Value :=
  .object ([("name", .string c.name),
      ("displayName", .string c.displayName),
      ("type", c.type.toValue),
      ("entityId", .string c.entity),
      ("fieldId", .string c.field)]
    ++ optionalMember "aggregation" Aggregation.toValue c.aggregation
    ++ optionalMember "unit" .string c.unit)

end ExpectedColumn

/-- A compiled report. -/
structure Compiled where
  query : Query
  parameters : List Value
  columns : List ExpectedColumn
  limit : UInt64
  clamp : Option LimitClamp
  plan : JoinPath
  dialect : Dialect

namespace Compiled

/-- The text of the statement. -/
def sql (c : Compiled) : String :=
  c.query.text c.dialect

def toValue (c : Compiled) : Value :=
  .object ([("sql", .string c.sql),
      ("parameters", .array c.parameters),
      ("expectedColumns", .array (c.columns.map ExpectedColumn.toValue)),
      ("limit", .ofUInt64 c.limit)]
    ++ optionalMember "limitClamp" LimitClamp.toValue c.clamp
    ++ [("joinPlan", c.plan.toValue), ("dialect", c.dialect.toValue)])

end Compiled

/-! ## Expressions of fields -/

namespace Target

/-- The column of the field as it is stored. -/
def rawExpr (t : Target) : Expr :=
  .column (some t.entity.id) t.field.columnName

/-- The value of the field: its column, decoded if it is encoded. -/
def valueExpr (infer : Bool) (t : Target) : Expr :=
  match t.field.resolvedEncoding? infer with
  | some e => e.decodeExpr t.rawExpr
  | none => t.rawExpr

/-- The summary of the field. Counts count what is stored. -/
def aggregateExpr (infer : Bool) (a : Aggregation) (t : Target) : Expr :=
  match a with
  | .count => .count t.rawExpr
  | .countDistinct => .countDistinct t.rawExpr
  | .sum => .sum (t.valueExpr infer)
  | .avg => .avg (t.valueExpr infer)
  | .min => .min (t.valueExpr infer)
  | .max => .max (t.valueExpr infer)

end Target

/-! ## Selected fields -/

/-- The expression of a selected field. -/
def selectedExpr (infer : Bool) (s : Placed SelectedField) : Expr :=
  match s.part.aggregation with
  | none => s.target.valueExpr infer
  | some a => s.target.aggregateExpr infer a

/-- The unit of a selected field, if its values are decoded. -/
def selectedUnit (infer : Bool) (s : Placed SelectedField) : Option String :=
  let unit := (s.target.field.resolvedEncoding? infer).map NumericEncoding.unit
  match s.part.aggregation with
  | none => unit
  | some a => if a.decodesInput then unit else none

def selectItem (infer : Bool) (s : Placed SelectedField) : SelectItem :=
  ⟨selectedExpr infer s, some s.part.outputName⟩

def expectedColumn (infer : Bool) (s : Placed SelectedField) : ExpectedColumn where
  name := s.part.outputName
  displayName :=
    match s.part.aggregation with
    | some a => s.target.field.displayName ++ " (" ++ a.name ++ ")"
    | none => s.target.field.displayName
  type :=
    match s.part.aggregation with
    | some a => a.resultType s.target.field.type
    | none => s.target.field.type
  entity := s.part.entity
  field := s.part.field
  aggregation := s.part.aggregation
  unit := selectedUnit infer s

/-! ## Joined tables -/

/-- The table of an entity under the id of the entity. -/
def tableOf (e : Entity) : TableRef :=
  ⟨some e.schema, e.table, some e.id⟩

/-- The column of a field of an entity; of a registered entity every field that a relationship
names is known. -/
def columnOf (e : Entity) (field : String) : String :=
  match e.field? field with
  | some f => f.columnName
  | none => field

/-- The part of a report that mentions an entity first. -/
def firstMention (c : Config) (entity : String) : Location :=
  match c.selected.findIdx? fun s => s.entity == entity with
  | some i => .selected i
  | none =>
    match c.filters.findIdx? fun f => f.entity == entity with
    | some i => .filter i
    | none =>
      match c.sorting.findIdx? fun s => s.entity == entity with
      | some i => .sort i
      | none =>
        match c.groupBy.findIdx? fun key => key.entity == entity with
        | some i => .groupBy i
        | none => .timeField

/-- The join along a hop. -/
def joinOf (r : Registry) (c : Config) (e : JoinEdge) : Except CompileError Join :=
  match r.entity? e.fromEntity, r.entity? e.toEntity with
  | some source, some target =>
    .ok ⟨e.join, tableOf target,
      .binary .eq (.column (some source.id) (columnOf source e.fromField))
        (.column (some target.id) (columnOf target e.toField))⟩
  | _, _ => .error (.join (firstMention c e.toEntity) e.fromEntity e.toEntity)

/-- The joins along the hops of a plan. -/
def joinsOf (r : Registry) (c : Config) : List JoinEdge → Except CompileError (List Join)
  | [] => .ok []
  | e :: rest => do
    let j ← joinOf r c e
    let js ← joinsOf r c rest
    .ok (j :: js)

/-! ## Conditions -/

/-- The conditions of the filters. -/
def filterConditions (infer : Bool) : List (Placed Filter) → Binding (List Expr)
  | [] => pure []
  | f :: rest => do
    let e ← filterCondition (f.target.valueExpr infer) f.part
    let es ← filterConditions infer rest
    return e :: es

/-- The condition that compares an expression with a bound, if there is one. -/
def boundCondition (op : Sql.BinaryOp) (e : Expr) : Option String → Binding (List Expr)
  | none => pure []
  | some s => do
    let v ← bind (.string s)
    return [.binary op e v]

/-- The conditions of a time window on an expression. -/
def windowConditions (e : Expr) (bounds : WindowBounds) : Binding (List Expr) := do
  let start ← boundCondition .ge e bounds.start
  let finish ← boundCondition .le e bounds.finish
  return start ++ finish

/-- The bounds of the time window with the field that they are for. -/
def resolveBounds (now : Instant) :
    Option (TimeRange × Target) → Except CompileError (Option (WindowBounds × Target))
  | none => .ok none
  | some (range, t) =>
    match range.resolve now with
    | .ok bounds => .ok (some (bounds, t))
    | .error cause => .error (.schema .timeRange (.window t.ref cause))

/-- All conditions of a report: those of its filters, then those of its time window. -/
def conditions (infer : Bool) (filters : List (Placed Filter))
    (window : Option (WindowBounds × Target)) : Binding (List Expr) := do
  let fs ← filterConditions infer filters
  match window with
  | none => return fs
  | some (bounds, t) =>
    let ws ← windowConditions (t.valueExpr infer) bounds
    return fs ++ ws

/-! ## Sort keys -/

/-- What a grouped report is sorted by at a key that is not one to group by: the summary under which
the field is selected. Otherwise a report is sorted by the values. -/
def sortExpr (infer : Bool) (r : Resolved) (t : Target) : Expr :=
  if r.isGrouped && !r.isKey t.ref then
    match r.aggregation? t.ref with
    | some a => t.aggregateExpr infer a
    | none => t.valueExpr infer
  else t.valueExpr infer

def orderItem (infer : Bool) (r : Resolved) (s : Placed SortKey) : OrderItem :=
  ⟨sortExpr infer r s.target, s.part.direction == .desc⟩

/-! ## The statement -/

/-- The statement of a resolved report whose tables are joined by a plan. -/
def assemble (r : Registry) (c : Config) (o : Options) (v : Resolved) (plan : JoinPath) :
    Except CompileError Compiled := do
  let infer := o.inferEncodings
  let joins ← joinsOf r c plan.edges
  let window ← resolveBounds o.now v.window
  let (conditions, bound) := conditions infer v.filters window Bound.empty
  let (limit, clamp) := o.limits.apply c.limit
  let unfiltered : Query :=
    { select := v.selected.map (selectItem infer)
      source := some (tableOf v.primary)
      joins := joins
      condition := none
      groupBy := v.groupBy.map fun key => key.target.valueExpr infer
      orderBy := v.sorting.map (orderItem infer v)
      limit := some limit }
  return { query := conditions.foldl Query.filter unfiltered
           parameters := bound.values
           columns := v.selected.map (expectedColumn infer)
           limit := limit
           clamp := clamp
           plan := plan
           dialect := o.dialect }

/-- Compiles a report, with the join paths that are known already; answers with those known
afterwards. -/
def compileWith (m : Memo) (r : Registry) (c : Config) (o : Options) :
    Except CompileError Compiled × Memo :=
  match resolve r c with
  | .error e => (.error e, m)
  | .ok v =>
    match m.joinPlan r.graph v.primary.id c.referenced with
    | (.error target, m) => (.error (.join (firstMention c target) v.primary.id target), m)
    | (.ok plan, m) => (assemble r c o v plan, m)

/-- Compiles a report. -/
def compile (r : Registry) (c : Config) (o : Options) : Except CompileError Compiled :=
  (compileWith .empty r c o).1

end ReportSql.Statement
