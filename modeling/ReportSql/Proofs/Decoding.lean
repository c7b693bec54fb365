import ReportSql.Proofs.Grouping
import ReportSql.Proofs.Quoting
import ReportSql.Proofs.Scope

/-!
# Decoded values

A field whose numbers are encoded is read decoded wherever a statement reads its value: the column
is divided by the scale of the encoding. Counts and joins read the column as it is stored, and
nothing else is divided. The unit of a column of the result tells the decoded ones from the others,
and the values of stored rows are decoded in the same way.
-/

namespace ReportSql.Sql

/-! ## Divisions -/

namespace Expr

mutual

/-- The divisions inside an expression: what is divided, and by what. -/
def divisions : Expr → List (Expr × Expr)
  | column _ _ => []
  | number _ => []
  | param _ => []
  | binary op left right =>
    (if op = .div then [(left, right)] else []) ++ divisions left ++ divisions right
  | call _ _ args => listDivisions args
  | isIn e _ values => divisions e ++ listDivisions values
  | between e _ low high => divisions e ++ divisions low ++ divisions high
  | isNull e _ => divisions e
  | like e _ _ _ pattern => divisions e ++ divisions pattern

def listDivisions : List Expr → List (Expr × Expr)
  | [] => []
  | e :: rest => divisions e ++ listDivisions rest

end

/-- The expression is a constant above zero. -/
def IsPositiveConstant (e : Expr) : Prop :=
  ∃ x : Decimal.Binary64, e = .number (.finite x) ∧ x.negative = false ∧ x.isZero = false

theorem listDivisions_param (is : List Nat) : listDivisions (is.map .param) = [] := by
  induction is with
  | nil => rfl
  | cons i rest ih => rw [List.map_cons, listDivisions, ih, divisions, List.append_nil]

/-- A condition on an expression, whose other parts are bound values. -/
inductive Tests (x : Expr) : Expr → Prop where
  | compare {op : BinaryOp} {i : Nat} : op ≠ .div → Tests x (.binary op x (.param i))
  | isIn {negated : Bool} {is : List Nat} : Tests x (.isIn x negated (is.map .param))
  | between {negated : Bool} {i j : Nat} : Tests x (.between x negated (.param i) (.param j))
  | isNull {negated : Bool} : Tests x (.isNull x negated)
  | like {negated caseless : Bool} {escape : Char} {i : Nat} :
      Tests x (.like x negated caseless escape (.param i))

/-- A condition divides what the tested expression does. -/
theorem Tests.divisions_eq {x e : Expr} (h : Tests x e) : e.divisions = x.divisions := by
  cases h with
  | compare hop => simp [divisions, hop]
  | isIn => simp [divisions, listDivisions_param]
  | between | isNull | like => simp [divisions]

end Expr

/-- The divisions anywhere in a statement. -/
def Query.divisions (q : Query) : List (Expr × Expr) :=
  (q.select.flatMap fun s => s.expr.divisions)
    ++ (q.joins.flatMap fun j => j.condition.divisions)
    ++ q.condition.toList.flatMap Expr.divisions
    ++ q.groupBy.flatMap Expr.divisions
    ++ q.orderBy.flatMap fun s => s.expr.divisions

end ReportSql.Sql

namespace ReportSql.Decimal.Binary64

theorem isZero_of_one_le {d : Binary64} (h : 1 ≤ d.magnitude) : d.isZero = false := by
  rw [isZero, beq_eq_false_iff_ne]
  intro hzero
  rw [magnitude, hzero, Nat.cast_zero, zero_mul] at h
  exact absurd h (by norm_num)

end ReportSql.Decimal.Binary64

namespace ReportSql.Catalog

open ReportSql.Decimal (Double)

/-! ## Scales -/

/-- Whether it is declared or suggested by the name of the column, an encoding has a positive
scale. -/
theorem Field.PositiveScale.resolved {f : Field} (h : f.PositiveScale) {infer : Bool}
    {enc : NumericEncoding} (henc : f.resolvedEncoding? infer = some enc) :
    0 < enc.scale.toInt := by
  rw [resolvedEncoding?] at henc
  split at henc
  · rename_i declared hdeclared
    cases henc
    exact h enc hdeclared
  · split at henc
    · have hsuggested : enc = .geocoordinate ∨ enc = .speed := by
        rw [NumericEncoding.suggestedBy?] at henc
        grind
      rcases hsuggested with rfl | rfl <;> decide
    · cases henc

/-- A positive scale is written as a double that is at least one. -/
theorem NumericEncoding.exists_divisor {enc : NumericEncoding} (h : 0 < enc.scale.toInt) :
    ∃ d, enc.divisor = .finite d ∧ d.negative = false ∧ 1 ≤ d.magnitude := by
  obtain ⟨d, hd⟩ := Statement.exists_divisor_eq_finite enc
  obtain ⟨hsign, hone⟩ := Double.one_le_of_round one_pos (by omega) hd
  exact ⟨d, hd, by rw [hsign]; simpa using h.le, hone⟩

/-! ## Stored rows -/

/-- The values stored for a field are decoded if it is encoded: a number becomes its quotient by the
scale, both taken for doubles, and whatever is no number stays. -/
structure DecodesRows (infer : Bool) (f : Field) : Prop where
  stored : f.resolvedEncoding? infer = none → ∀ raw, f.decodeValue infer raw = raw
  decoded : ∀ enc, f.resolvedEncoding? infer = some enc → ∀ n, ∃ x d q,
    n.toDouble = .finite x ∧ Double.ofInt enc.scale.toInt = .finite d ∧
      Double.div x d = .finite q ∧ f.decodeValue infer (.number n) = .number (.real q)
  others : ∀ raw, (∀ n, raw ≠ .number n) → f.decodeValue infer raw = raw

/-- The double nearest to a number of a document is finite. -/
theorem exists_toDouble_eq_finite (n : Json.Number) : ∃ x, n.toDouble = .finite x := by
  cases n with
  | real x => exact ⟨x, rfl⟩
  | integer i =>
    refine Double.exists_round_eq_finite _ one_pos ?_
    have hsize : i.value.natAbs ≤ 2 ^ 64 := by
      have := i.lower
      have := i.upper
      omega
    calc ((i.value.natAbs : ℚ) / (1 : ℕ)) = i.value.natAbs := by simp
      _ ≤ (2 ^ 64 : ℕ) := Nat.cast_le.mpr hsize
      _ = 2 ^ (64 : ℤ) := by norm_num
      _ < 2 ^ (1023 : ℤ) := zpow_lt_zpow_right₀ one_lt_two (by decide)

theorem Field.PositiveScale.decodesRows {f : Field} (h : f.PositiveScale) (infer : Bool) :
    DecodesRows infer f where
  stored hnone raw := by rw [decodeValue, hnone]
  decoded enc henc n := by
    obtain ⟨x, hx⟩ := exists_toDouble_eq_finite n
    obtain ⟨d, hd, -, hone⟩ := NumericEncoding.exists_divisor (h.resolved henc)
    obtain ⟨q, hq⟩ := Double.exists_div_eq_finite x hone
    refine ⟨x, d, q, hx, hd, hq, ?_⟩
    simp [decodeValue, henc, NumericEncoding.decodeValue, Json.Value.double?, hx,
      NumericEncoding.decode, hd, hq, Double.finite?]
  others raw hraw := by
    rw [decodeValue]
    split
    · cases raw with
      | number n => exact absurd rfl (hraw n)
      | null | bool _ | string _ | array _ | object _ => rfl
    · rfl

end ReportSql.Catalog

namespace ReportSql.Statement

open ReportSql.Catalog
open ReportSql.Decimal (Double)
open ReportSql.Join (JoinEdge)
open ReportSql.Report
open ReportSql.Sql (Expr OrderItem Query SelectItem)
open ReportSql.Time (WindowBounds)

/-! ## How fields are read -/

/-- The expression reads the value of a field: its column, which is divided by the scale of the
encoding if there is one. -/
inductive ReadsValue (infer : Bool) (t : Target) : Expr → Prop where
  | stored : t.field.resolvedEncoding? infer = none →
      ReadsValue infer t (.column (some t.entity.id) t.field.columnName)
  | decoded {enc : NumericEncoding} : t.field.resolvedEncoding? infer = some enc →
      ReadsValue infer t (.binary .div (.column (some t.entity.id) t.field.columnName)
        (.number (.ofInt enc.scale.toInt)))

/-- The expression summarises a field: counts read its column, other summaries its value. -/
inductive ReadsSummary (infer : Bool) (t : Target) : Aggregation → Expr → Prop where
  | count : ReadsSummary infer t .count
      (.call "COUNT" false [.column (some t.entity.id) t.field.columnName])
  | countDistinct : ReadsSummary infer t .countDistinct
      (.call "COUNT" true [.column (some t.entity.id) t.field.columnName])
  | sum {e : Expr} : ReadsValue infer t e → ReadsSummary infer t .sum (.call "SUM" false [e])
  | avg {e : Expr} : ReadsValue infer t e → ReadsSummary infer t .avg (.call "AVG" false [e])
  | min {e : Expr} : ReadsValue infer t e → ReadsSummary infer t .min (.call "MIN" false [e])
  | max {e : Expr} : ReadsValue infer t e → ReadsSummary infer t .max (.call "MAX" false [e])

/-- The expression reads a field by its value, or by the summary that is asked for. -/
def Reads (infer : Bool) (t : Target) : Option Aggregation → Expr → Prop
  | none, e => ReadsValue infer t e
  | some a, e => ReadsSummary infer t a e

section

variable {infer : Bool} {t : Target} {e : Expr}

theorem readsValue_valueExpr (infer : Bool) (t : Target) :
    ReadsValue infer t (t.valueExpr infer) := by
  rw [Target.valueExpr]
  split
  · rename_i enc henc
    exact .decoded henc
  · rename_i hnone
    exact .stored hnone

theorem readsSummary_aggregateExpr (infer : Bool) (a : Aggregation) (t : Target) :
    ReadsSummary infer t a (t.aggregateExpr infer a) := by
  have hvalue := readsValue_valueExpr infer t
  cases a with
  | count => exact .count
  | countDistinct => exact .countDistinct
  | sum => exact .sum hvalue
  | avg => exact .avg hvalue
  | min => exact .min hvalue
  | max => exact .max hvalue

theorem reads_selectedExpr (infer : Bool) (s : Placed SelectedField) :
    Reads infer s.target s.part.aggregation (selectedExpr infer s) := by
  rw [selectedExpr]
  cases s.part.aggregation with
  | none => exact readsValue_valueExpr infer s.target
  | some a => exact readsSummary_aggregateExpr infer a s.target

/-- A sort key is read by its value, or by the summary of its field that is selected. -/
theorem reads_sortExpr (infer : Bool) (v : Resolved) (t : Target) :
    ∃ aggregation, Reads infer t aggregation (sortExpr infer v t) ∧
      (aggregation = none ∨ v.aggregation? t.ref = aggregation) := by
  have hvalue := readsValue_valueExpr infer t
  rw [sortExpr]
  split
  · cases haggregation : v.aggregation? t.ref with
    | none => exact ⟨none, hvalue, .inl rfl⟩
    | some a => exact ⟨some a, readsSummary_aggregateExpr infer a t, .inr rfl⟩
  · exact ⟨none, hvalue, .inl rfl⟩

/-- The value of a field is divided exactly if the field is encoded. -/
theorem ReadsValue.divisions_eq_nil_iff (h : ReadsValue infer t e) :
    e.divisions = [] ↔ t.field.resolvedEncoding? infer = none := by
  cases h with
  | stored hnone => simp [Expr.divisions, hnone]
  | decoded henc => simp [Expr.divisions, henc]

/-- A selected field is divided exactly if it is encoded and not counted. -/
theorem Reads.divisions_eq_nil_iff {aggregation : Option Aggregation}
    (h : Reads infer t aggregation e) : e.divisions = [] ↔
      aggregation.all Aggregation.decodesInput = false ∨
        t.field.resolvedEncoding? infer = none := by
  cases aggregation with
  | none => simpa [Option.all] using ReadsValue.divisions_eq_nil_iff h
  | some a =>
    have h : ReadsSummary infer t a e := h
    cases h with
    | count | countDistinct =>
      simp [Expr.divisions, Expr.listDivisions, Aggregation.decodesInput]
    | sum hvalue | avg hvalue | min hvalue | max hvalue =>
      simpa [Expr.divisions, Expr.listDivisions, Aggregation.decodesInput] using
        hvalue.divisions_eq_nil_iff

/-- What is divided is divided by a positive constant. -/
def DividesByPositive (ds : List (Expr × Expr)) : Prop :=
  ∀ d ∈ ds, d.2.IsPositiveConstant

theorem ReadsValue.dividesByPositive (h : ReadsValue infer t e) (ht : t.field.PositiveScale) :
    DividesByPositive e.divisions := by
  cases h with
  | stored => exact nofun
  | @decoded enc henc =>
    obtain ⟨d, hd, hsign, hone⟩ := NumericEncoding.exists_divisor (ht.resolved henc)
    have hconstant : (Expr.number (.ofInt enc.scale.toInt)).IsPositiveConstant :=
      ⟨d, congrArg Expr.number hd, hsign, Decimal.Binary64.isZero_of_one_le hone⟩
    simpa [DividesByPositive, Expr.divisions] using hconstant

theorem Reads.dividesByPositive {aggregation : Option Aggregation}
    (h : Reads infer t aggregation e) (ht : t.field.PositiveScale) :
    DividesByPositive e.divisions := by
  cases aggregation with
  | none => exact ReadsValue.dividesByPositive h ht
  | some a =>
    have h : ReadsSummary infer t a e := h
    cases h with
    | count | countDistinct => exact nofun
    | sum hvalue | avg hvalue | min hvalue | max hvalue =>
      simpa [Expr.divisions, Expr.listDivisions] using hvalue.dividesByPositive ht

end

theorem Names.positiveScale {r : Registry} {ref : FieldRef} {t : Target} (h : Names r ref t) :
    t.field.PositiveScale :=
  r.wellFormed.scales _ h.entity_mem _ h.field_mem

/-! ## Conditions -/

theorem tests_conditionBehind (x : Expr) (f : Filter) (n : Nat) :
    x.Tests (conditionBehind x f n) := by
  rw [conditionBehind]
  split
  case h_1 | h_2 | h_3 | h_4 | h_5 | h_6 => exact .compare (by decide)
  case h_7 => exact .between
  case h_8 | h_9 => exact .isIn
  case h_10 | h_11 | h_12 | h_13 => exact .like
  case h_14 | h_15 => exact .isNull

theorem forall₂_formsFrom (n : Nat) (ps : List Conjunct) :
    List.Forall₂ (fun p e => ∃ m, e = p.form m) ps (formsFrom n ps) := by
  induction ps generalizing n with
  | nil => exact .nil
  | cons p rest ih => exact .cons ⟨n, rfl⟩ (ih _)

/-! ## Statements -/

/-- A selected field is shown by an item of the statement and described by a column of the result.
The item reads the field decoded, and the column has a unit, that of the encoding, if the item
divides. -/
structure Describes (r : Registry) (infer : Bool) (s : SelectedField) (item : SelectItem)
    (column : ExpectedColumn) : Prop where
  label : item.label = some column.name
  entity : column.entity = s.entity
  field : column.field = s.field
  reads : ∃ t, Names r s.ref t ∧ Reads infer t s.aggregation item.expr ∧
    ∀ unit, column.unit = some unit →
      ∃ enc, t.field.resolvedEncoding? infer = some enc ∧ unit = enc.unit
  unit : column.unit.isSome = true ↔ item.expr.divisions ≠ []

/-- The condition tests the value of a field. -/
def TestsField (r : Registry) (infer : Bool) (ref : FieldRef) (e : Expr) : Prop :=
  ∃ t x, Names r ref t ∧ ReadsValue infer t x ∧ x.Tests e

theorem TestsField.dividesByPositive {r : Registry} {infer : Bool} {ref : FieldRef} {e : Expr}
    (h : TestsField r infer ref e) : DividesByPositive e.divisions := by
  obtain ⟨t, x, hn, hx, htests⟩ := h
  rw [htests.divisions_eq]
  exact hx.dividesByPositive hn.positiveScale

/-- The expression reads the field of a sort key by its value, or by a summary that is selected. -/
def ReadsKey (r : Registry) (c : Config) (infer : Bool) (key : SortKey) (e : Expr) : Prop :=
  ∃ t aggregation, Names r key.ref t ∧ Reads infer t aggregation e ∧
    (aggregation = none ∨ ∃ s ∈ c.selected, s.ref = key.ref ∧ s.aggregation = aggregation)

/-- Encoded fields are read decoded wherever their values are read, and nothing else is divided. -/
structure DecodesThroughout (r : Registry) (c : Config) (infer : Bool) (k : Compiled) : Prop where
  select : k.columns.length = k.query.select.length ∧
    List.Forall₂ (fun s p => Describes r infer s p.1 p.2)
      (Config.distinct SelectedField.ref c.selected) (k.query.select.zip k.columns)
  /-- The conditions of the filters, and behind them those of the time window. -/
  condition : ∃ filters window, k.query.condition = conjunction (filters ++ window) ∧
    List.Forall₂ (fun f e => TestsField r infer f.ref e) c.filters filters ∧
    ∀ e ∈ window, ∃ asked, c.timeField = some asked ∧
      TestsField r infer ⟨asked.owner (c.primaryEntity.getD ""), asked.field⟩ e
  groupBy : List.Forall₂ (fun key e => ∃ t, Names r key t ∧ ReadsValue infer t e)
    (Config.distinct id c.groupBy) k.query.groupBy
  orderBy : List.Forall₂ (fun key item => ReadsKey r c infer key item.expr)
    (Config.distinct SortKey.ref c.sorting) k.query.orderBy
  /-- A join compares the stored columns at the two ends of its hop. -/
  joins : List.Forall₂
    (fun (e : JoinEdge) j => ∃ s t, Names r ⟨e.fromEntity, e.fromField⟩ s ∧
      Names r ⟨e.toEntity, e.toField⟩ t ∧
      j.condition = .binary .eq (.column (some s.entity.id) s.field.columnName)
        (.column (some t.entity.id) t.field.columnName))
    k.plan.edges k.query.joins
  divisors : ∀ d ∈ k.query.divisions, d.2.IsPositiveConstant

namespace Compilation

variable {r : Registry} {c : Config} {o : Options} {v : Resolved} {joins : List Sql.Join}
  {window : Option (WindowBounds × Target)} {k : Compiled}

theorem columns_eq (h : Compilation r c o v joins window k) :
    k.columns = v.selected.map (expectedColumn o.inferEncodings) :=
  congrArg (·.columns) h.result

theorem unit_isSome_iff (infer : Bool) (s : Placed SelectedField) :
    (selectedUnit infer s).isSome = true ↔ (selectedExpr infer s).divisions ≠ [] := by
  rw [ne_eq, (reads_selectedExpr infer s).divisions_eq_nil_iff, selectedUnit]
  cases s.part.aggregation with
  | none => cases s.target.field.resolvedEncoding? infer <;> simp
  | some a =>
    cases s.target.field.resolvedEncoding? infer <;> cases a <;> simp [Aggregation.decodesInput]

theorem describes (h : Compilation r c o v joins window k) {p : Placed SelectedField}
    (hp : p ∈ v.selected) : Describes r o.inferEncodings p.part (selectItem o.inferEncodings p)
      (expectedColumn o.inferEncodings p) where
  label := rfl
  entity := rfl
  field := rfl
  reads := by
    refine ⟨p.target, (h.resolved.selected_named p hp).2, reads_selectedExpr _ p, ?_⟩
    intro unit hunit
    have hsome : (p.target.field.resolvedEncoding? o.inferEncodings).map NumericEncoding.unit =
        some unit := by
      have hunit : selectedUnit o.inferEncodings p = some unit := hunit
      rw [selectedUnit] at hunit
      split at hunit
      · exact hunit
      · split at hunit
        · exact hunit
        · cases hunit
    obtain ⟨enc, henc, rfl⟩ := Option.map_eq_some_iff.mp hsome
    exact ⟨enc, henc, rfl⟩
  unit := unit_isSome_iff _ p

theorem select_describes (h : Compilation r c o v joins window k) :
    k.columns.length = k.query.select.length ∧
      List.Forall₂ (fun s p => Describes r o.inferEncodings s p.1 p.2)
        (Config.distinct SelectedField.ref c.selected) (k.query.select.zip k.columns) := by
  rw [h.columns_eq, h.select_eq, List.zip_map', ← h.resolved.selected_parts,
    List.forall₂_map_left_iff, List.forall₂_map_right_iff, List.forall₂_same]
  exact ⟨by simp, fun p hp => h.describes hp⟩

theorem testsField_of_filter (h : Compilation r c o v joins window k) {p : Placed Filter}
    (hp : p ∈ v.filters) (n : Nat) : TestsField r o.inferEncodings p.part.ref
      ((filterConjunct o.inferEncodings p).form n) :=
  ⟨p.target, p.target.valueExpr o.inferEncodings, h.resolved.filters_named p hp,
    readsValue_valueExpr _ _, tests_conditionBehind _ _ n⟩

/-- The conditions of the time window test the field that it is for. -/
theorem tests_windowConjuncts {x : Expr} {bounds : WindowBounds} {e : Expr} {n : Nat}
    (he : e ∈ formsFrom n (windowConjuncts x bounds)) : x.Tests e := by
  obtain ⟨p, hp, m, rfl⟩ := mem_formsFrom he
  simp only [windowConjuncts, List.mem_append, Option.mem_toList, Option.map_eq_some_iff] at hp
  rcases hp with ⟨s, -, rfl⟩ | ⟨s, -, rfl⟩ <;> exact .compare (by decide)

theorem condition_tests (h : Compilation r c o v joins window k) :
    ∃ filters window, k.query.condition = conjunction (filters ++ window) ∧
      List.Forall₂ (fun f e => TestsField r o.inferEncodings f.ref e) c.filters filters ∧
      ∀ e ∈ window, ∃ asked, c.timeField = some asked ∧
        TestsField r o.inferEncodings ⟨asked.owner (c.primaryEntity.getD ""), asked.field⟩ e := by
  have hcondition : k.query.condition =
      conjunction (formsFrom 0 (conjuncts o.inferEncodings v.filters window)) :=
    congrArg (·.query.condition) h.result
  -- the conditions of the filters come first and are numbered first
  rw [hcondition, conjuncts.eq_def, formsFrom_append]
  refine ⟨_, _, rfl, ?_, ?_⟩
  · rw [← h.resolved.filters_parts, List.forall₂_map_left_iff]
    have hforms := forall₂_formsFrom 0 (v.filters.map (filterConjunct o.inferEncodings))
    rw [List.forall₂_map_left_iff] at hforms
    refine ((List.forall₂_and_left _ _).mpr ⟨fun p hp => hp, hforms⟩).imp ?_
    rintro p e ⟨hp, n, rfl⟩
    exact h.testsField_of_filter hp n
  · intro e he
    cases window with
    | none => cases he
    | some w =>
      obtain ⟨bounds, t⟩ := w
      obtain ⟨range, asked, -, -, hasked, hn⟩ := h.window_named
      obtain ⟨hprimary, -⟩ := primary?_eq_some_iff.mp h.resolved.primary?_eq
      refine ⟨asked, hasked, t, t.valueExpr o.inferEncodings, ?_, readsValue_valueExpr _ _,
        tests_windowConjuncts he⟩
      rwa [hprimary, Option.getD_some]

/-- A summary that is found for a field is selected. -/
theorem selected_of_aggregation? (h : Compilation r c o v joins window k) {ref : FieldRef}
    {a : Aggregation} (ha : v.aggregation? ref = some a) :
    ∃ s ∈ c.selected, s.ref = ref ∧ s.aggregation = some a := by
  obtain ⟨p, hp, ha⟩ := Option.bind_eq_some_iff.mp ha
  have href := List.find?_some hp
  rw [Bool.and_eq_true, beq_iff_eq] at href
  have hselected := (h.resolved.selected_named p (List.mem_of_find?_eq_some hp)).1
  exact ⟨p.part, hselected, href.1, ha⟩

theorem readsKey (h : Compilation r c o v joins window k) {p : Placed SortKey}
    (hp : p ∈ v.sorting) : ReadsKey r c o.inferEncodings p.part
      (sortExpr o.inferEncodings v p.target) := by
  have hn := (h.resolved.sorting_named p hp).2
  obtain ⟨aggregation, hreads, hnone | hfound⟩ := reads_sortExpr o.inferEncodings v p.target
  · exact ⟨p.target, aggregation, hn, hreads, .inl hnone⟩
  · refine ⟨p.target, aggregation, hn, hreads, ?_⟩
    rw [hn.ref_eq] at hfound
    cases aggregation with
    | none => exact .inl rfl
    | some a => exact .inr (h.selected_of_aggregation? hfound)

theorem orderBy_reads (h : Compilation r c o v joins window k) :
    List.Forall₂ (fun key item => ReadsKey r c o.inferEncodings key item.expr)
      (Config.distinct SortKey.ref c.sorting) k.query.orderBy := by
  rw [← h.resolved.sorting_parts, h.orderBy_eq, List.forall₂_map_left_iff,
    List.forall₂_map_right_iff, List.forall₂_same]
  exact fun p hp => h.readsKey hp

theorem groupBy_reads (h : Compilation r c o v joins window k) :
    List.Forall₂ (fun key e => ∃ t, Names r key t ∧ ReadsValue o.inferEncodings t e)
      (Config.distinct id c.groupBy) k.query.groupBy := by
  refine h.keys.imp ?_
  rintro key e ⟨t, hn, rfl⟩
  exact ⟨t, hn, readsValue_valueExpr _ _⟩

theorem joins_stored (h : Compilation r c o v joins window k) :
    List.Forall₂ (fun (e : JoinEdge) j => ∃ s t, Names r ⟨e.fromEntity, e.fromField⟩ s ∧
      Names r ⟨e.toEntity, e.toField⟩ t ∧
      j.condition = .binary .eq (.column (some s.entity.id) s.field.columnName)
        (.column (some t.entity.id) t.field.columnName)) k.plan.edges k.query.joins := by
  have hjoins : k.query.joins = joins := congrArg (·.query.joins) h.result
  rw [hjoins]
  refine ((List.forall₂_and_left _ _).mpr
    ⟨fun e he => he, joinsOf_eq_ok_iff.mp h.joined⟩).imp ?_
  rintro e j ⟨he, hj⟩
  obtain ⟨⟨s, hs⟩, ⟨t, ht⟩⟩ := h.declaredHop e he
  rw [joinOf_eq_ok hs ht, Except.ok.injEq] at hj
  exact ⟨s, t, hs, ht, hj ▸ rfl⟩

theorem condition_dividesByPositive (h : Compilation r c o v joins window k) :
    DividesByPositive (k.query.condition.toList.flatMap Expr.divisions) := by
  obtain ⟨filters, windows, hcondition, hfilters, hwindows⟩ := h.condition_tests
  have hand : ∀ l e : Expr, (Expr.binary .and l e).divisions = l.divisions ++ e.divisions :=
    fun _ _ => by simp [Expr.divisions]
  rw [hcondition, flatMap_conjunction hand]
  intro d hd
  obtain ⟨e, he, hd⟩ := List.mem_flatMap.mp hd
  rcases List.mem_append.mp he with he | he
  · have hflip : List.Forall₂ (fun e (f : Filter) => TestsField r o.inferEncodings f.ref e)
        filters c.filters := hfilters.flip
    have hall := hflip.imp fun e f htests => And.intro htests.dividesByPositive htests
    exact ((List.forall₂_and_left _ _).mp hall).1 e he d hd
  · obtain ⟨asked, -, htests⟩ := hwindows e he
    exact htests.dividesByPositive d hd

/-- All divisions of the statement are by positive constants. -/
theorem divisors_positive (h : Compilation r c o v joins window k) :
    DividesByPositive k.query.divisions := by
  intro d hd
  simp only [Query.divisions, List.mem_append, or_assoc] at hd
  rcases hd with hd | hd | hd | hd | hd
  · obtain ⟨item, hitem, hd⟩ := List.mem_flatMap.mp hd
    rw [h.select_eq] at hitem
    obtain ⟨p, hp, rfl⟩ := List.mem_map.mp hitem
    have hn := (h.resolved.selected_named p hp).2
    exact (reads_selectedExpr _ p).dividesByPositive hn.positiveScale d hd
  · -- joins compare stored columns
    obtain ⟨j, hj, hd⟩ := List.mem_flatMap.mp hd
    have hjoins : k.query.joins = joins := congrArg (·.query.joins) h.result
    rw [hjoins] at hj
    obtain ⟨e, -, he⟩ := exists_hop_of_mem h.joined hj
    obtain ⟨source, target, -, -, rfl⟩ := joinOf_eq_ok_iff.mp he
    simp [Expr.divisions] at hd
  · exact h.condition_dividesByPositive d hd
  · obtain ⟨e, he, hd⟩ := List.mem_flatMap.mp hd
    rw [h.groupBy_eq] at he
    obtain ⟨p, hp, rfl⟩ := List.mem_map.mp he
    have hn := (h.resolved.groupBy_named p hp).2
    exact (readsValue_valueExpr _ p.target).dividesByPositive hn.positiveScale d hd
  · obtain ⟨item, hitem, hd⟩ := List.mem_flatMap.mp hd
    rw [h.orderBy_eq] at hitem
    obtain ⟨p, hp, rfl⟩ := List.mem_map.mp hitem
    have hn := (h.resolved.sorting_named p hp).2
    obtain ⟨aggregation, hreads, -⟩ := reads_sortExpr o.inferEncodings v p.target
    exact hreads.dividesByPositive hn.positiveScale d hd

end Compilation

/-- **Encoded fields are decoded wherever they are read.** In a compiled statement the value of an
encoded field is its column divided by the scale of the encoding, a positive constant; counts and
joins read columns as they are stored, and so does whatever reads a field without an encoding. The
columns of the result have a unit where their expressions divide. With the same hints, the stored
values of the same fields are divided by the same scale. -/
theorem fields_decoded_throughout {r : Registry} {c : Config} {o : Options} {k : Compiled}
    (h : compile r c o = .ok k) :
    DecodesThroughout r c o.inferEncodings k ∧
      ∀ ref t, Names r ref t → DecodesRows o.inferEncodings t.field := by
  obtain ⟨v, joins, window, hc⟩ := compile_eq_ok_iff.mp h
  refine ⟨⟨hc.select_describes, hc.condition_tests, hc.groupBy_reads, hc.orderBy_reads,
    hc.joins_stored, hc.divisors_positive⟩, ?_⟩
  exact fun ref t hn => hn.positiveScale.decodesRows _

/-- The mean speed is divided inside the summary, and its column has a unit. -/
theorem speedByDevice_decoded :
    ∃ k, compile .telematics speedByDevice newYearOptions = .ok k ∧
      DecodesThroughout .telematics speedByDevice true k ∧
      k.columns.map (·.unit) = [none, some "km/h"] := by
  have hcompiled : (compile .telematics speedByDevice newYearOptions).toOption.map
      (fun k => k.columns.map (·.unit)) = some [none, some "km/h"] := by decide +kernel
  obtain ⟨k, hk, hunits⟩ := exists_ok_of_map hcompiled
  exact ⟨k, hk, (fields_decoded_throughout hk).1, hunits⟩

end ReportSql.Statement
