import ReportSql.Proofs.Compilation

/-!
# The scope of a statement

A statement introduces its tables one after another, each under the id of its entity. Whatever it
reads is a column of a table that it has introduced, and the column of a field that the catalog
declares for the entity of the table. That the tables are there follows from the join plan, which
reaches all that the report mentions; that the columns are declared, from the rules of the catalog.
-/

namespace ReportSql.Sql

/-! ## Columns -/

/-- A column as an expression names it. -/
structure ColumnRef where
  table : Option String
  name : String

namespace Expr

mutual

/-- The columns that an expression names. -/
def columns : Expr → List ColumnRef
  | column table name => [⟨table, name⟩]
  | number _ => []
  | param _ => []
  | binary _ left right => columns left ++ columns right
  | call _ _ args => listColumns args
  | isIn e _ values => columns e ++ listColumns values
  | between e _ low high => columns e ++ columns low ++ columns high
  | isNull e _ => columns e
  | like e _ _ _ pattern => columns e ++ columns pattern

def listColumns : List Expr → List ColumnRef
  | [] => []
  | e :: rest => columns e ++ listColumns rest

end

theorem listColumns_param (is : List Nat) : listColumns (is.map .param) = [] := by
  induction is with
  | nil => rfl
  | cons i rest ih => rw [List.map_cons, listColumns, ih, columns, List.append_nil]

end Expr

namespace Query

/-- The tables of a statement in the order in which they are introduced. -/
def tables (q : Query) : List TableRef :=
  q.source.toList ++ q.joins.map Join.table

/-- The labels under which tables are introduced up to the given joins. -/
def labelsUpTo (q : Query) (joins : List Join) : List (Option String) :=
  (q.source.toList ++ joins.map Join.table).map TableRef.label

/-- The labels under which the tables are introduced. -/
def labels (q : Query) : List (Option String) :=
  q.labelsUpTo q.joins

/-- The columns that the clauses behind the joins and the SELECT list name. -/
def columns (q : Query) : List ColumnRef :=
  (q.select.flatMap fun s => s.expr.columns) ++ q.condition.toList.flatMap Expr.columns
    ++ q.groupBy.flatMap Expr.columns ++ q.orderBy.flatMap fun s => s.expr.columns

end Query

end ReportSql.Sql

namespace ReportSql.Report.Config

/-! ## Mentioned entities -/

theorem mem_distinctFrom {primary x : String} {found l : List String} :
    x ∈ distinctFrom primary found l ↔ x ∈ found ∨ (x ∈ l ∧ x ≠ primary) := by
  induction l generalizing found with
  | nil => simp [distinctFrom]
  | cons e rest ih =>
    rw [distinctFrom]
    split
    · rename_i h
      rw [ih]
      simp only [Bool.or_eq_true, beq_iff_eq, List.contains_iff_mem] at h
      grind
    · rename_i h
      rw [ih]
      simp only [Bool.or_eq_true, beq_iff_eq, List.contains_iff_mem, not_or] at h
      grind

theorem mem_mentioned_iff {c : Config} {x : String} :
    x ∈ c.mentioned ↔ (∃ s ∈ c.selected, s.entity = x) ∨ (∃ f ∈ c.filters, f.entity = x) ∨
      (∃ s ∈ c.sorting, s.entity = x) ∨ (∃ key ∈ c.groupBy, key.entity = x) ∨
      c.windowEntity = some x := by
  simp only [mentioned, List.mem_append, List.mem_map, Option.mem_toList, or_assoc]

/-- What a report mentions is its primary entity or referenced. -/
theorem eq_or_mem_referenced {c : Config} {primary x : String} (hp : c.primary? = some primary)
    (hx : x ∈ c.mentioned) : x = primary ∨ x ∈ c.referenced := by
  rw [referenced, hp, Option.getD_some, mem_distinctFrom]
  by_cases h : x = primary
  · exact .inl h
  · exact .inr (.inr ⟨hx, h⟩)

end ReportSql.Report.Config

namespace ReportSql.Statement

open ReportSql.Catalog
open ReportSql.Join (Graph JoinEdge JoinPath)
open ReportSql.Report
open ReportSql.Sql
open ReportSql.Time (WindowBounds)

/-! ## Hops of the catalog -/

/-- Both ends of a hop are fields that the catalog declares. -/
structure DeclaredHop (r : Registry) (e : JoinEdge) : Prop where
  source : ∃ s, Names r ⟨e.fromEntity, e.fromField⟩ s
  target : ∃ t, Names r ⟨e.toEntity, e.toField⟩ t

theorem names_of_declares {r : Registry} {e : Entity} (he : e ∈ r.entities) {field : String}
    (h : e.declares field = true) : ∃ t, Names r ⟨e.id, field⟩ t := by
  rw [Entity.declares_eq_isSome, Option.isSome_iff_exists] at h
  obtain ⟨f, hf⟩ := h
  exact ⟨⟨e, f⟩, r.entity?_eq_some_iff.mpr ⟨he, rfl⟩, hf⟩

/-- The rules of the catalog declare the ends of every hop of its graph. -/
theorem declaredHop_of_mem {r : Registry} {e : JoinEdge} (h : e ∈ r.graph.edges) :
    DeclaredHop r e := by
  obtain ⟨x, hx, he⟩ := List.mem_flatMap.mp h
  obtain ⟨rel, hrel, rfl⟩ := List.mem_map.mp he
  obtain ⟨t, ht, hid, hsource, htarget⟩ :=
    r.wellFormed.relationships x hx rel (List.mem_filter.mp hrel).1
  refine ⟨names_of_declares hx hsource, ?_⟩
  show ∃ t, Names r ⟨rel.target, rel.targetField⟩ t
  rw [← hid]
  exact names_of_declares ht htarget

theorem columnOf_eq {r : Registry} {ref : FieldRef} {t : Target} (h : Names r ref t) :
    columnOf t.entity ref.field = t.field.columnName := by
  rw [columnOf, h.field]

/-- Along a declared hop there is a join, which compares the columns of the two fields. -/
theorem joinOf_eq_ok {r : Registry} {c : Config} {e : JoinEdge} {s t : Target}
    (hs : Names r ⟨e.fromEntity, e.fromField⟩ s) (ht : Names r ⟨e.toEntity, e.toField⟩ t) :
    joinOf r c e = .ok ⟨e.join, tableOf t.entity, .binary .eq s.rawExpr t.rawExpr⟩ := by
  refine joinOf_eq_ok_iff.mpr ⟨s.entity, t.entity, hs.entity, ht.entity, ?_⟩
  rw [columnOf_eq hs, columnOf_eq ht]
  rfl

/-! ## What expressions name -/

namespace Target

/-- The column of a field in the table of its entity. -/
def columnRef (t : Target) : ColumnRef :=
  ⟨some t.entity.id, t.field.columnName⟩

theorem columns_valueExpr (infer : Bool) (t : Target) :
    (t.valueExpr infer).columns = [t.columnRef] := by
  unfold valueExpr
  split <;> rfl

theorem columns_aggregateExpr (infer : Bool) (a : Aggregation) (t : Target) :
    (t.aggregateExpr infer a).columns = [t.columnRef] := by
  have hvalue : Expr.listColumns [t.valueExpr infer] = [t.columnRef] := by
    simp [Expr.listColumns, columns_valueExpr]
  cases a
  case count | countDistinct => rfl
  case sum | avg | min | max => exact hvalue

end Target

theorem columns_selectedExpr (infer : Bool) (s : Placed SelectedField) :
    (selectedExpr infer s).columns = [s.target.columnRef] := by
  rcases selectedExpr_cases infer s with h | ⟨a, h⟩
  · rw [h]
    exact s.target.columns_valueExpr infer
  · rw [h]
    exact s.target.columns_aggregateExpr infer a

theorem columns_sortExpr (infer : Bool) (v : Resolved) (t : Target) :
    (sortExpr infer v t).columns = [t.columnRef] := by
  rcases sortExpr_cases infer v t with h | ⟨a, h⟩
  · rw [h]
    exact t.columns_valueExpr infer
  · rw [h]
    exact t.columns_aggregateExpr infer a

theorem columns_conditionBehind (e : Expr) (f : Filter) (n : Nat) :
    (conditionBehind e f n).columns = e.columns := by
  have hlist : ∀ count, Expr.listColumns (paramsFrom n count) = [] :=
    fun _ => Expr.listColumns_param _
  unfold conditionBehind
  split <;> simp [Expr.columns, hlist]

/-- The conditions of a report name the columns of its filters and of its time window. -/
theorem columns_conjuncts {infer : Bool} {fs : List (Placed Filter)}
    {window : Option (WindowBounds × Target)} {p : Conjunct}
    (hp : p ∈ conjuncts infer fs window) (n : Nat) :
    (∃ f ∈ fs, (p.form n).columns = [f.target.columnRef]) ∨
      ∃ bounds t, window = some (bounds, t) ∧ (p.form n).columns = [t.columnRef] := by
  rcases List.mem_append.mp hp with hp | hp
  · obtain ⟨f, hf, rfl⟩ := List.mem_map.mp hp
    refine .inl ⟨f, hf, ?_⟩
    exact (columns_conditionBehind _ f.part n).trans (f.target.columns_valueExpr infer)
  · cases window with
    | none => cases hp
    | some w =>
      obtain ⟨bounds, t⟩ := w
      refine .inr ⟨bounds, t, rfl, ?_⟩
      simp only [windowConjuncts, List.mem_append, Option.mem_toList, Option.map_eq_some_iff] at hp
      rcases hp with ⟨s, -, rfl⟩ | ⟨s, -, rfl⟩ <;>
        simp [boundConjunct, Expr.columns, Target.columns_valueExpr]

/-! ## Introduced tables -/

theorem labels_joinsOf {r : Registry} {c : Config} {edges : List JoinEdge} {joins : List Sql.Join}
    (h : joinsOf r c edges = .ok joins) :
    joins.map (fun j => j.table.label) = edges.map fun e => some e.toEntity := by
  have hall := joinsOf_eq_ok_iff.mp h
  clear h
  induction hall with
  | nil => rfl
  | @cons e j edges joins he _ ih =>
    obtain ⟨_, target, -, htarget, rfl⟩ := joinOf_eq_ok_iff.mp he
    rw [List.map_cons, List.map_cons, ih, ← (r.entity?_eq_some_iff.mp htarget).2]
    rfl

/-- The label of a joined table follows those of the source and of the tables joined before. -/
theorem labelsUpTo_eq {q : Query} {t : TableRef} (h : q.source = some t) (joins : List Sql.Join) :
    q.labelsUpTo joins = t.label :: joins.map fun j => j.table.label := by
  rw [Query.labelsUpTo, h, Option.toList_some, List.singleton_append, List.map_cons, List.map_map]
  rfl

section

variable {r : Registry} {c : Config} {o : Options} {v : Resolved} {joins : List Sql.Join}
  {window : Option (WindowBounds × Target)} {k : Compiled}

theorem Compilation.labels_eq (h : Compilation r c o v joins window k) :
    k.query.labels = (v.primary.id :: k.plan.edges.map JoinEdge.toEntity).map some := by
  rw [h.result, Query.labels, labelsUpTo_eq rfl]
  show some v.primary.id :: joins.map (fun j => j.table.label) = _
  rw [labels_joinsOf h.joined, List.map_cons, List.map_map]
  rfl

theorem Compilation.grown (h : Compilation r c o v joins window k) :
    Join.Plan.Grown r.graph v.primary.id k.plan.edges ∧
      ∀ t ∈ c.referenced, Join.Search.seen v.primary.id k.plan.edges t = true :=
  Graph.joinPlan_grown h.planned

/-- The table of every entity that a report mentions is introduced. -/
theorem Compilation.label_of_mentioned (h : Compilation r c o v joins window k) {x : String}
    (hx : x ∈ c.mentioned) : some x ∈ k.query.labels := by
  have hseen : Join.Search.seen v.primary.id k.plan.edges x = true := by
    rcases Config.eq_or_mem_referenced h.resolved.primary?_eq hx with rfl | hx
    · exact Join.Search.seen_start _ _
    · exact h.grown.2 x hx
  rw [h.labels_eq]
  exact List.mem_map_of_mem (List.mem_cons.mpr (Join.Search.seen_iff.mp hseen))

/-! ## Scope -/

/-- The column is the one of a field that the catalog declares for the entity whose id is one of the
labels. -/
def InScope (r : Registry) (labels : List (Option String)) (col : ColumnRef) : Prop :=
  ∃ label e f, some label ∈ labels ∧ r.entity? label = some e ∧ f ∈ e.fields ∧
    col = ⟨some label, f.columnName⟩

/-- All that a statement reads is in its scope. -/
structure Scoped (r : Registry) (q : Query) : Prop where
  tables : ∀ t ∈ q.tables, ∃ e ∈ r.entities, t = tableOf e
  distinct : q.labels.Nodup
  columns : ∀ col ∈ q.columns, InScope r q.labels col
  /-- A join reads from its own table and from those introduced before it. -/
  joins : ∀ before j after, q.joins = before ++ j :: after →
    ∀ col ∈ j.condition.columns, InScope r (q.labelsUpTo (before ++ [j])) col

theorem inScope_columnRef {labels : List (Option String)} {ref : FieldRef} {t : Target}
    (hn : Names r ref t) (h : some ref.entity ∈ labels) : InScope r labels t.columnRef := by
  refine ⟨ref.entity, t.entity, t.field, h, hn.entity, hn.field_mem, ?_⟩
  rw [Target.columnRef, hn.entity_id]

/-- The field of the time window belongs to the entity that it names or to the primary one. -/
theorem Compilation.window_inScope {bounds : WindowBounds} {t : Target}
    (h : Compilation r c o v joins (some (bounds, t)) k) :
    InScope r k.query.labels t.columnRef := by
  obtain ⟨range, asked, hrange, -, hfield, hn⟩ := h.window_named
  refine inScope_columnRef hn ?_
  show some (asked.owner v.primary.id) ∈ _
  cases hentity : asked.entity with
  | none =>
    rw [Time.TimeField.owner, hentity, Option.getD_none, h.labels_eq]
    exact List.mem_cons_self ..
  | some entity =>
    rw [Time.TimeField.owner, hentity, Option.getD_some]
    refine h.label_of_mentioned ?_
    refine Config.mem_mentioned_iff.mpr (.inr (.inr (.inr (.inr ?_))))
    simp [Config.windowEntity, hrange, hfield, hentity]

/-- A part of the report that is read as the column of its field is in scope. -/
theorem Compilation.part_inScope (h : Compilation r c o v joins window k) {ref : FieldRef}
    {t : Target} (hn : Names r ref t) (hmem : ref.entity ∈ c.mentioned) {e : Expr}
    (he : e.columns = [t.columnRef]) : ∀ col ∈ e.columns, InScope r k.query.labels col := by
  intro col hcol
  rw [he, List.mem_singleton] at hcol
  rw [hcol]
  exact inScope_columnRef hn (h.label_of_mentioned hmem)

theorem Compilation.select_inScope (h : Compilation r c o v joins window k) :
    ∀ s ∈ v.selected.map (selectItem o.inferEncodings), ∀ col ∈ s.expr.columns,
      InScope r k.query.labels col := by
  intro s hs
  obtain ⟨p, hp, rfl⟩ := List.mem_map.mp hs
  obtain ⟨hpart, hn⟩ := h.resolved.selected_named p hp
  have hmem := Config.mem_mentioned_iff.mpr (.inl ⟨p.part, hpart, rfl⟩)
  exact h.part_inScope hn hmem (columns_selectedExpr o.inferEncodings p)

theorem Compilation.condition_inScope (h : Compilation r c o v joins window k) :
    ∀ e ∈ formsFrom 0 (conjuncts o.inferEncodings v.filters window), ∀ col ∈ e.columns,
      InScope r k.query.labels col := by
  intro e he
  obtain ⟨p, hp, n, rfl⟩ := mem_formsFrom he
  rcases columns_conjuncts hp n with ⟨f, hf, hcolumns⟩ | ⟨bounds, t, rfl, hcolumns⟩
  · have hpart : f.part ∈ c.filters := by
      rw [← h.resolved.filters_parts]
      exact List.mem_map_of_mem hf
    have hmem := Config.mem_mentioned_iff.mpr (.inr (.inl ⟨f.part, hpart, rfl⟩))
    exact h.part_inScope (h.resolved.filters_named f hf) hmem hcolumns
  · intro col hcol
    rw [hcolumns, List.mem_singleton] at hcol
    rw [hcol]
    exact h.window_inScope

theorem Compilation.groupBy_inScope (h : Compilation r c o v joins window k) :
    ∀ e ∈ v.groupBy.map (fun key => key.target.valueExpr o.inferEncodings), ∀ col ∈ e.columns,
      InScope r k.query.labels col := by
  intro e he
  obtain ⟨p, hp, rfl⟩ := List.mem_map.mp he
  obtain ⟨hpart, hn⟩ := h.resolved.groupBy_named p hp
  have hmem := Config.mem_mentioned_iff.mpr (.inr (.inr (.inr (.inl ⟨p.part, hpart, rfl⟩))))
  exact h.part_inScope hn hmem (p.target.columns_valueExpr o.inferEncodings)

theorem Compilation.orderBy_inScope (h : Compilation r c o v joins window k) :
    ∀ s ∈ v.sorting.map (orderItem o.inferEncodings v), ∀ col ∈ s.expr.columns,
      InScope r k.query.labels col := by
  intro s hs
  obtain ⟨p, hp, rfl⟩ := List.mem_map.mp hs
  obtain ⟨hpart, hn⟩ := h.resolved.sorting_named p hp
  have hmem := Config.mem_mentioned_iff.mpr (.inr (.inr (.inl ⟨p.part, hpart, rfl⟩)))
  exact h.part_inScope hn hmem (columns_sortExpr o.inferEncodings v p.target)

theorem Compilation.columns_inScope (h : Compilation r c o v joins window k) :
    ∀ col ∈ k.query.columns, InScope r k.query.labels col := by
  intro col hcol
  have hq : k.query.columns = (assembled c o v joins window k.plan).query.columns :=
    congrArg (·.query.columns) h.result
  rw [hq, Query.columns, assembled, flatMap_conjunction fun _ _ => rfl] at hcol
  simp only [List.mem_append, List.mem_flatMap] at hcol
  rcases hcol with ((⟨s, hs, hcol⟩ | ⟨e, he, hcol⟩) | ⟨e, he, hcol⟩) | ⟨s, hs, hcol⟩
  · exact h.select_inScope s hs col hcol
  · exact h.condition_inScope e he col hcol
  · exact h.groupBy_inScope e he col hcol
  · exact h.orderBy_inScope s hs col hcol

/-! ## Joins -/

/-- The join along a hop of a plan reads the columns at the two ends of the hop. -/
theorem columns_of_joinOf {e : JoinEdge} (he : DeclaredHop r e) {j : Sql.Join}
    (hj : joinOf r c e = .ok j) :
    ∃ s t, Names r ⟨e.fromEntity, e.fromField⟩ s ∧ Names r ⟨e.toEntity, e.toField⟩ t ∧
      j.table = tableOf t.entity ∧ j.condition.columns = [s.columnRef, t.columnRef] := by
  obtain ⟨s, hs⟩ := he.source
  obtain ⟨t, ht⟩ := he.target
  rw [joinOf_eq_ok hs ht, Except.ok.injEq] at hj
  subst hj
  exact ⟨s, t, hs, ht, rfl, rfl⟩

theorem Compilation.declaredHop (h : Compilation r c o v joins window k) :
    ∀ e ∈ k.plan.edges, DeclaredHop r e :=
  fun e he => declaredHop_of_mem (h.grown.1.mem_edges e he)

theorem Compilation.tables_registered (h : Compilation r c o v joins window k) :
    ∀ t ∈ k.query.tables, ∃ e ∈ r.entities, t = tableOf e := by
  intro t ht
  have hq : k.query.tables = tableOf v.primary :: joins.map Join.table :=
    congrArg (·.query.tables) h.result
  rw [hq] at ht
  rcases List.mem_cons.mp ht with rfl | ht
  · obtain ⟨id, -, hprimary⟩ := h.resolved.primary_entity
    exact ⟨v.primary, (r.entity?_eq_some_iff.mp hprimary).1, rfl⟩
  · obtain ⟨j, hj, rfl⟩ := List.mem_map.mp ht
    obtain ⟨e, he, hjoin⟩ := exists_hop_of_mem h.joined hj
    obtain ⟨_, t, _, ht, htable, _⟩ := columns_of_joinOf (h.declaredHop e he) hjoin
    exact ⟨t.entity, ht.entity_mem, htable⟩

/-- What a join reads has been introduced: the entity that its hop starts from was joined before. -/
theorem Compilation.joins_inScope (h : Compilation r c o v joins window k)
    {before after : List Sql.Join} {j : Sql.Join} (hj : k.query.joins = before ++ j :: after) :
    ∀ col ∈ j.condition.columns, InScope r (k.query.labelsUpTo (before ++ [j])) col := by
  have hjoins : k.query.joins = joins := congrArg (·.query.joins) h.result
  have hsource : k.query.source = some (tableOf v.primary) := congrArg (·.query.source) h.result
  have hjoined := h.joined
  rw [← hjoins, hj] at hjoined
  obtain ⟨earlier, e, later, hedges, hbefore, he⟩ := joinsOf_append hjoined
  -- the plan up to the hop of the join is what the joins before have introduced
  have hgrown := h.grown.1
  have hdeclared := h.declaredHop
  rw [hedges] at hgrown hdeclared
  obtain ⟨s, t, hs, ht, htable, hcolumns⟩ :=
    columns_of_joinOf (hdeclared e (List.mem_append_right _ (List.mem_cons_self ..))) he
  have hlabels : k.query.labelsUpTo (before ++ [j]) =
      (v.primary.id :: earlier.map JoinEdge.toEntity).map some ++ [some e.toEntity] := by
    have hlabel : j.table.label = some e.toEntity := by
      rw [htable]
      exact congrArg some ht.entity_id
    rw [labelsUpTo_eq hsource, List.map_append, labels_joinsOf hbefore]
    simp only [List.map_cons, List.map_nil, hlabel, List.map_map, List.cons_append]
    rfl
  intro col hcol
  rw [hcolumns] at hcol
  rw [hlabels]
  rcases List.mem_cons.mp hcol with rfl | hcol
  · refine inScope_columnRef hs (List.mem_append_left _ (List.mem_map_of_mem ?_))
    exact List.mem_cons.mpr (Join.Search.seen_iff.mp hgrown.seen_of_append)
  · rw [List.mem_singleton.mp hcol]
    exact inScope_columnRef ht (List.mem_append_right _ (List.mem_singleton.mpr rfl))

end

theorem Compilation.scoped {r : Registry} {c : Config} {o : Options} {v : Resolved}
    {joins : List Sql.Join} {window : Option (WindowBounds × Target)} {k : Compiled}
    (h : Compilation r c o v joins window k) : Scoped r k.query where
  tables := h.tables_registered
  distinct := by
    rw [h.labels_eq]
    exact List.Pairwise.map some (fun _ _ hne heq => hne (Option.some.inj heq)) h.grown.1.nodup
  columns := h.columns_inScope
  joins _ _ _ hj := h.joins_inScope hj

/-- The join along a declared hop is never missing. -/
theorem exists_joinsOf {r : Registry} (c : Config) {edges : List JoinEdge}
    (h : ∀ e ∈ edges, DeclaredHop r e) : ∃ joins, joinsOf r c edges = .ok joins := by
  induction edges with
  | nil => exact ⟨[], rfl⟩
  | cons e rest ih =>
    obtain ⟨⟨s, hs⟩, ⟨t, ht⟩⟩ := h e (List.mem_cons_self ..)
    obtain ⟨joins, hjoins⟩ := ih fun x hx => h x (List.mem_cons_of_mem _ hx)
    have hall := joinsOf_eq_ok_iff.mp hjoins
    exact ⟨_ :: joins, joinsOf_eq_ok_iff.mpr (.cons (joinOf_eq_ok hs ht) hall)⟩

/-- **Statements are scope safe.** The tables of a compiled statement are introduced under distinct
ids of registered entities, and all that is read is a declared column of an introduced table; a join
reads what is introduced up to it. The ends of each hop of a plan are declared fields, whether or
not the report compiles: the joins of a plan are never missing, and none falls back on a field
id. -/
theorem statement_scoped (r : Registry) (c : Config) (o : Options) :
    (∀ k, compile r c o = .ok k → Scoped r k.query) ∧
      ∀ root targets plan, r.graph.joinPlan root targets = .ok plan →
        (∃ joins, joinsOf r c plan.edges = .ok joins) ∧
          ∀ e ∈ plan.edges, ∃ s t, Names r ⟨e.fromEntity, e.fromField⟩ s ∧
            Names r ⟨e.toEntity, e.toField⟩ t ∧
            joinOf r c e = .ok ⟨e.join, tableOf t.entity, .binary .eq s.rawExpr t.rawExpr⟩ := by
  refine ⟨?_, ?_⟩
  · intro k h
    obtain ⟨v, joins, window, hc⟩ := compile_eq_ok_iff.mp h
    exact hc.scoped
  · intro root targets plan hplan
    have hdeclared : ∀ e ∈ plan.edges, DeclaredHop r e := by
      intro e he
      exact declaredHop_of_mem ((Graph.joinPlan_grown hplan).1.mem_edges e he)
    refine ⟨exists_joinsOf c hdeclared, ?_⟩
    intro e he
    obtain ⟨⟨s, hs⟩, ⟨t, ht⟩⟩ := hdeclared e he
    exact ⟨s, t, hs, ht, joinOf_eq_ok hs ht⟩

theorem fastDrives_scoped :
    (∃ k, compile .telematics (fastDrives "100%" 2) newYearOptions = .ok k ∧
      Scoped .telematics k.query) ∧
      ∃ plan, Registry.telematics.graph.joinPlan "tracking_data_core" ["devices", "objects"]
        = .ok plan ∧
        ∃ joins, joinsOf .telematics (fastDrives "100%" 2) plan.edges = .ok joins := by
  obtain ⟨hscoped, hjoins⟩ :=
    statement_scoped .telematics (fastDrives "100%" 2) newYearOptions
  refine ⟨?_, ?_⟩
  · obtain ⟨k, hk, -⟩ := exists_compiled_fastDrives
    exact ⟨k, hk, hscoped k hk⟩
  · have h : (Registry.telematics.graph.joinPlan "tracking_data_core"
        ["devices", "objects"]).toOption.map (fun plan => plan.edges.length) = some 2 := by
      decide +kernel
    obtain ⟨plan, hplan, -⟩ := exists_ok_of_map h
    exact ⟨plan, hplan, (hjoins _ _ plan hplan).1⟩

end ReportSql.Statement
