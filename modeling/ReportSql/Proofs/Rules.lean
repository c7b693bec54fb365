import ReportSql.Catalog.Telematics
import ReportSql.Proofs.Binding
import ReportSql.Proofs.Faults

/-!
# The rules of reports

`WellFormed` says what a report has to be like, without regard to the order in which anything is
checked. The reports that are resolved are exactly the well-formed ones.
-/

namespace ReportSql

namespace Catalog.FieldType

theorem isScalar_iff {type : FieldType} : type.isScalar = true ↔ type ≠ .json := by
  cases type <;> decide

theorem isOrdered_iff {type : FieldType} :
    type.isOrdered = true ↔ type ∈ [number, datetime, date] := by
  cases type <;> decide

theorem isTemporal_iff {type : FieldType} : type.isTemporal = true ↔ type ∈ [datetime, date] := by
  cases type <;> decide

end Catalog.FieldType

namespace Report

open ReportSql.Catalog (FieldType)
open ReportSql.Json (Value)

/-! ## Operators and operands -/

/-- The operator is one for fields of the type. -/
inductive Operator.Fits : Operator → FieldType → Prop where
  | nullTest {op : Operator} {type : FieldType} : op ∈ [isNull, isNotNull] → Fits op type
  | equality {op : Operator} {type : FieldType} : op ∈ [equals, notEquals, isIn, notIn] →
      type ≠ .json → Fits op type
  | pattern {op : Operator} : op ∈ [contains, notContains, startsWith, endsWith] →
      Fits op .string
  | range {op : Operator} {type : FieldType} :
      op ∈ [greaterThan, greaterEqual, lessThan, lessEqual, between] →
      type ∈ [.number, .datetime, .date] → Fits op type

/-- The filter has the operands that its operator takes, and they are truth values, numbers or
texts; no truth value is looked for inside a text. -/
inductive Filter.HasOperands (f : Filter) : Prop where
  | nullTest : f.operator ∈ [.isNull, .isNotNull] → HasOperands f
  | comparison {v : Value} : f.operator ∈ [.equals, .notEquals, .greaterThan, .greaterEqual,
      .lessThan, .lessEqual] → f.value = some v → v.isScalar = true → HasOperands f
  | pattern {v : Value} : f.operator ∈ [.contains, .notContains, .startsWith, .endsWith] →
      f.value = some v → v.isScalar = true → (∀ b, v ≠ .bool b) → HasOperands f
  | range {low high : Value} : f.operator = .between → f.value = some low →
      f.upper = some high → low.isScalar = true → high.isScalar = true → HasOperands f
  | list {items : List Value} : f.operator ∈ [.isIn, .notIn] → f.value = some (.array items) →
      (∀ v ∈ items, v.isScalar = true) → HasOperands f

/-- An operator applies to the fields that it is for. -/
theorem Operator.applies_iff {op : Operator} {type : FieldType} :
    op.applies type = true ↔ op.Fits type := by
  constructor
  · intro h
    cases op
    case isNull | isNotNull => exact .nullTest (by decide)
    case equals | notEquals | isIn | notIn =>
      exact .equality (by decide) (FieldType.isScalar_iff.mp h)
    case contains | notContains | startsWith | endsWith =>
      obtain rfl : type = .string := eq_of_beq h
      exact .pattern (by decide)
    case greaterThan | greaterEqual | lessThan | lessEqual | between =>
      exact .range (by decide) (FieldType.isOrdered_iff.mp h)
  · intro h
    cases h with
    | nullTest hop =>
      have happlies : ∀ op ∈ [isNull, isNotNull], op.applies type = true := by simp [applies]
      exact happlies op hop
    | equality hop htype =>
      have happlies : ∀ op ∈ [equals, notEquals, isIn, notIn],
          op.applies type = type.isScalar := by simp [applies]
      rw [happlies op hop, FieldType.isScalar_iff.mpr htype]
    | pattern hop => exact (by decide : ∀ op ∈ [contains, notContains, startsWith, endsWith],
        op.applies .string = true) op hop
    | range hop htype =>
      have happlies : ∀ op ∈ [greaterThan, greaterEqual, lessThan, lessEqual, between],
          op.applies type = type.isOrdered := by simp [applies]
      rw [happlies op hop, FieldType.isOrdered_iff.mpr htype]

end Report

namespace Statement

open ReportSql.Catalog
open ReportSql.Report
open ReportSql.Time (Instant TimeRange TimeField)

theorem operandProblem?_of_one {f : Filter} (hop : f.operator.operands = .one) {v : Json.Value}
    (hv : f.value = some v) (hscalar : v.isScalar = true)
    (hbool : f.operator.isPattern = true → ∀ b, v ≠ .bool b) : operandProblem? f = none := by
  rw [operandProblem?, hop, hv]
  cases v with
  | string s => rfl
  | number n => rfl
  | bool b =>
    cases hpattern : f.operator.isPattern with
    | false => simp
    | true => exact absurd rfl (hbool hpattern b)
  | null | array _ | object _ => cases hscalar

/-- The check of the operands asks for what the operator takes. -/
theorem operandProblem?_eq_none_iff {f : Filter} : operandProblem? f = none ↔ f.HasOperands := by
  constructor
  · intro h
    cases hop : f.operator
    case isNull | isNotNull => exact .nullTest (by simp [hop])
    case equals | notEquals | greaterThan | greaterEqual | lessThan | lessEqual =>
      obtain ⟨v, hv, hscalar⟩ := exists_operand_of_sound (by rw [hop]; rfl) h
      exact .comparison (by simp [hop]) hv hscalar
    case contains | notContains | startsWith | endsWith =>
      obtain ⟨v, hv, hscalar⟩ := exists_operand_of_sound (by rw [hop]; rfl) h
      refine .pattern (by simp [hop]) hv hscalar ?_
      rintro b rfl
      simp [operandProblem?, hop, hv, Operator.operands, Operator.isPattern] at h
    case between =>
      obtain ⟨low, high, hlow, hhigh, hscalar⟩ := exists_range_of_sound (by rw [hop]; rfl) h
      exact .range hop hlow hhigh hscalar.1 hscalar.2
    case isIn | notIn =>
      obtain ⟨items, hitems, hscalar⟩ := exists_items_of_sound (by rw [hop]; rfl) h
      exact .list (by simp [hop]) hitems hscalar
  · intro h
    cases h with
    | nullTest hop =>
      have hnone : ∀ op ∈ [Operator.isNull, .isNotNull], op.operands = .none := by decide
      rw [operandProblem?, hnone _ hop]
    | comparison hop hv hscalar =>
      have hone : ∀ op ∈ [Operator.equals, .notEquals, .greaterThan, .greaterEqual, .lessThan,
          .lessEqual], op.operands = .one ∧ op.isPattern = false := by decide
      refine operandProblem?_of_one (hone _ hop).1 hv hscalar fun hpattern => ?_
      rw [(hone _ hop).2] at hpattern
      cases hpattern
    | pattern hop hv hscalar hbool =>
      have hone : ∀ op ∈ [Operator.contains, .notContains, .startsWith, .endsWith],
          op.operands = .one := by decide
      exact operandProblem?_of_one (hone _ hop) hv hscalar fun _ => hbool
    | range hop hlow hhigh hlow' hhigh' =>
      simp [operandProblem?, hop, Operator.operands, hlow, hhigh, hlow', hhigh']
    | list hop hitems hscalar =>
      have hlist : ∀ op ∈ [Operator.isIn, .notIn], op.operands = .list := by decide
      rw [operandProblem?, hlist _ hop, hitems]
      simpa using hscalar

/-! ## The rules -/

/-- The window can be read: a relative one is positive, and an absolute one has a bound and all its
bounds are dates or times. -/
inductive Readable : TimeRange → Prop where
  | relative {amount : Int64} {unit : Time.TimeUnit} : 0 < amount.toInt →
      Readable (.relative amount unit)
  | absolute {start finish : Option String} : start ≠ none ∨ finish ≠ none →
      (∀ s, start = some s ∨ finish = some s → ∃ t, Instant.ofText? s = some t) →
      Readable (.absolute start finish)

/-- What a report has to be like. Of the selected fields only those count that are the first ones
to name their fields. -/
structure WellFormed (r : Registry) (c : Config) : Prop where
  primary : ∃ id e, c.primaryEntity = some id ∧ id ≠ "" ∧ r.entity? id = some e
  selects : c.selected ≠ []
  selected : ∀ s ∈ c.selected, ∃ field, r.field? s.entity s.field = some field
  filters : ∀ f ∈ c.filters, ∃ field, r.field? f.entity f.field = some field ∧
    f.operator.Fits field.type ∧ f.HasOperands
  sorting : ∀ s ∈ c.sorting, ∃ field, r.field? s.entity s.field = some field
  groupBy : ∀ key ∈ c.groupBy, ∃ field, r.field? key.entity key.field = some field
  /-- What is summarised is summarised in a grouped report, and as the field permits. -/
  summarised : ∀ s, Config.IsFirst SelectedField.ref c.selected s →
    ∀ a, s.aggregation = some a → c.groupBy ≠ [] ∧
      ∃ field, r.field? s.entity s.field = some field ∧ a ∈ field.aggregations
  /-- What is not summarised in a grouped report is a key. -/
  grouped : c.groupBy ≠ [] → ∀ s, Config.IsFirst SelectedField.ref c.selected s →
    s.aggregation = none → s.ref ∈ c.groupBy
  /-- A grouped report is sorted by keys and by what is summarised. -/
  sortable : c.groupBy ≠ [] → ∀ key ∈ c.sorting, key.ref ∈ c.groupBy ∨
    ∃ s, Config.IsFirst SelectedField.ref c.selected s ∧ s.ref = key.ref ∧ s.aggregation ≠ none
  /-- A window applies to a field of dates or moments, of the primary entity if none is named. -/
  window : ∀ range, c.timeRange = some range → Readable range ∧
    ∃ asked field, c.timeField = some asked ∧
      r.field? (asked.owner (c.primaryEntity.getD "")) asked.field = some field ∧
      field.type ∈ [FieldType.datetime, .date]

/-! ## No faults -/

section

variable {r : Registry} {c : Config}

theorem refFaults_eq_nil_iff {place : Location} {ref : FieldRef} :
    refFaults r place ref = [] ↔ ∃ field, r.field? ref.entity ref.field = some field := by
  rw [← (target_reports r place ref).exists_ok_iff]
  simp only [target_eq_ok_iff]
  constructor
  · rintro ⟨t, hn⟩
    exact ⟨t.field, hn.field?_eq⟩
  · rintro ⟨field, h⟩
    obtain ⟨e, he, hf⟩ := Option.bind_eq_some_iff.mp h
    exact ⟨⟨e, field⟩, he, hf⟩

theorem primary?_eq_some_iff {id : String} :
    c.primary? = some id ↔ c.primaryEntity = some id ∧ id ≠ "" := by
  rw [Config.primary?, Option.filter_eq_some_iff]
  simp

theorem primaryFaults_eq_nil_iff : primaryFaults r c = [] ↔
    ∃ id e, c.primaryEntity = some id ∧ id ≠ "" ∧ r.entity? id = some e := by
  rw [← (resolvePrimary_reports r c).exists_ok_iff]
  simp only [resolvePrimary_eq_ok_iff, primary?_eq_some_iff, and_assoc]
  exact exists_comm

theorem emptinessFaults_eq_nil_iff : emptinessFaults c = [] ↔ c.selected ≠ [] := by
  simp [emptinessFaults]

/-- The parts of a list are without faults if they name fields and are without further ones. -/
theorem partFaults_eq_nil_iff {α : Type} {place : Nat → Location} {ref : α → FieldRef}
    {more : Location → α → List CompileError} {parts : List α} (good : α → Field → Prop)
    (hmore : ∀ i part field, r.field? (ref part).entity (ref part).field = some field →
      (more (place i) part = [] ↔ good part field)) :
    partFaults r place ref more parts = [] ↔
      ∀ part ∈ parts, ∃ field, r.field? (ref part).entity (ref part).field = some field ∧
        good part field := by
  simp only [partFaults, List.flatMap_eq_nil_iff, Prod.forall, List.mk_mem_zipIdx_iff_getElem?,
    List.append_eq_nil_iff, refFaults_eq_nil_iff]
  constructor
  · intro h part hpart
    obtain ⟨i, hi⟩ := List.mem_iff_getElem?.mp hpart
    obtain ⟨⟨field, hfield⟩, hnone⟩ := h part i hi
    exact ⟨field, hfield, (hmore i part field hfield).mp hnone⟩
  · intro h part i hi
    obtain ⟨field, hfield, hgood⟩ := h part (List.mem_of_getElem? hi)
    exact ⟨⟨field, hfield⟩, (hmore i part field hfield).mpr hgood⟩

theorem refsFaults_eq_nil_iff {α : Type} {place : Nat → Location} {ref : α → FieldRef}
    {parts : List α} : partFaults r place ref (fun _ _ => []) parts = [] ↔
      ∀ part ∈ parts, ∃ field, r.field? (ref part).entity (ref part).field = some field := by
  rw [partFaults_eq_nil_iff (fun _ _ => True) fun _ _ _ _ => by simp]
  simp only [and_true]

theorem filterFaults_eq_nil_iff {place : Location} {f : Filter} {field : Field}
    (h : r.field? f.entity f.field = some field) :
    filterFaults r place f = [] ↔ f.operator.Fits field.type ∧ f.HasOperands := by
  simp only [filterFaults, h, List.append_eq_nil_iff, List.map_eq_nil_iff,
    Option.toList_eq_nil_iff, operandProblem?_eq_none_iff, ← Operator.applies_iff]
  simp

theorem filtersFaults_eq_nil_iff : partFaults r .filter Filter.ref (filterFaults r) c.filters = [] ↔
    ∀ f ∈ c.filters, ∃ field, r.field? f.entity f.field = some field ∧
      f.operator.Fits field.type ∧ f.HasOperands :=
  partFaults_eq_nil_iff (fun (f : Filter) field => f.operator.Fits field.type ∧ f.HasOperands)
    fun _ _ _ h => filterFaults_eq_nil_iff h

theorem aggregationFaults_eq_nil_iff {keys : List FieldRef} {s : SelectedField} {i : Nat} :
    aggregationFaults r keys s i = [] ↔
      (∀ a, s.aggregation = some a → keys ≠ [] ∧
        ∃ field, r.field? s.entity s.field = some field ∧ a ∈ field.aggregations) ∧
        (keys ≠ [] → s.aggregation = none → s.ref ∈ keys) := by
  rw [aggregationFaults]
  cases s.aggregation with
  | none => simp [Decidable.or_iff_not_imp_left]
  | some a => cases keys <;> simp [Field.allows, Option.any_eq_true]

theorem sortingFaults_eq_nil_iff {s : SortKey} {i : Nat} :
    sortingFaults c s i = [] ↔ (c.groupBy ≠ [] → s.ref ∈ c.groupBy ∨
      ∃ s', Config.IsFirst SelectedField.ref c.selected s' ∧ s'.ref = s.ref ∧
        s'.aggregation ≠ none) := by
  simp only [sortingFaults, Config.isFirst_iff]
  simp [Decidable.or_iff_not_imp_left, Option.isSome_iff_ne_none]

theorem boundFaults_eq_nil_iff {s : String} :
    boundFaults s = [] ↔ ∃ t, Instant.ofText? s = some t := by
  rw [boundFaults]
  cases Instant.ofText? s <;> simp

theorem rangeFaults_absolute_eq_nil_iff {start finish : Option String} :
    rangeFaults (.absolute start finish) = [] ↔ (start ≠ none ∨ finish ≠ none) ∧
      ∀ s, start = some s ∨ finish = some s → ∃ t, Instant.ofText? s = some t := by
  have hbound : (if start.isNone && finish.isNone then [Time.WindowError.unbounded] else []) = [] ↔
      start ≠ none ∨ finish ≠ none := by
    cases start <;> simp
  rw [rangeFaults, List.append_eq_nil_iff, hbound]
  simp only [List.flatMap_eq_nil_iff, List.mem_append, Option.mem_toList, boundFaults_eq_nil_iff]

theorem rangeFaults_eq_nil_iff {range : TimeRange} : rangeFaults range = [] ↔ Readable range := by
  cases range with
  | relative amount unit =>
    constructor
    · intro h
      exact .relative (by simpa [rangeFaults] using h)
    · intro h
      cases h with
      | relative hpos => simpa [rangeFaults] using hpos
  | absolute start finish =>
    rw [rangeFaults_absolute_eq_nil_iff]
    constructor
    · rintro ⟨hbound, hread⟩
      exact .absolute hbound hread
    · intro h
      cases h with
      | absolute hbound hread => exact ⟨hbound, hread⟩

theorem temporalFaults_eq_nil_iff {asked : TimeField} {ref : FieldRef} {field : Field}
    (h : r.field? ref.entity ref.field = some field) :
    temporalFaults r asked ref = [] ↔ field.type ∈ [FieldType.datetime, .date] := by
  rw [← FieldType.isTemporal_iff, temporalFaults, h]
  simp

theorem windowFaults_eq_nil_iff : windowFaults r c = [] ↔
    ∀ range, c.timeRange = some range → Readable range ∧
      ∃ asked field, c.timeField = some asked ∧
        r.field? (asked.owner (c.primaryEntity.getD "")) asked.field = some field ∧
        field.type ∈ [FieldType.datetime, .date] := by
  have hprimary : c.primary?.getD "" = c.primaryEntity.getD "" := by
    rw [Config.primary?]
    cases c.primaryEntity with
    | none => rfl
    | some id => by_cases hid : id = "" <;> simp [Option.filter_some, hid]
  rw [windowFaults]
  cases c.timeRange with
  | none => simp
  | some range =>
    cases c.timeField with
    | none => simp
    | some asked =>
      simp only [List.append_eq_nil_iff, List.map_eq_nil_iff, refFaults_eq_nil_iff,
        rangeFaults_eq_nil_iff, Option.some.injEq, forall_eq', windowRef, hprimary]
      constructor
      · rintro ⟨⟨field, hfield⟩, htemporal, hread⟩
        exact ⟨hread, asked, field, rfl, hfield, (temporalFaults_eq_nil_iff hfield).mp htemporal⟩
      · rintro ⟨hread, _, field, rfl, hfield, htemporal⟩
        exact ⟨⟨field, hfield⟩, (temporalFaults_eq_nil_iff hfield).mpr htemporal, hread⟩

/-- The rules of grouping hold of all parts if they hold of the first ones for their fields. -/
theorem groupingFaults_eq_nil_iff :
    ((Config.firsts SelectedField.ref c.selected).flatMap fun p =>
      aggregationFaults r c.groupBy p.1 p.2) = [] ↔
      ∀ s, Config.IsFirst SelectedField.ref c.selected s →
        (∀ a, s.aggregation = some a → c.groupBy ≠ [] ∧
          ∃ field, r.field? s.entity s.field = some field ∧ a ∈ field.aggregations) ∧
          (c.groupBy ≠ [] → s.aggregation = none → s.ref ∈ c.groupBy) := by
  simp only [List.flatMap_eq_nil_iff, Prod.forall, aggregationFaults_eq_nil_iff,
    Config.isFirst_iff, forall_exists_index]

theorem sortFaults_eq_nil_iff :
    ((Config.firsts SortKey.ref c.sorting).flatMap fun p => sortingFaults c p.1 p.2) = [] ↔
      (c.groupBy ≠ [] → ∀ key ∈ c.sorting, key.ref ∈ c.groupBy ∨
        ∃ s, Config.IsFirst SelectedField.ref c.selected s ∧ s.ref = key.ref ∧
          s.aggregation ≠ none) := by
  simp only [List.flatMap_eq_nil_iff, Prod.forall, sortingFaults_eq_nil_iff]
  constructor
  · intro h hgrouped key hkey
    obtain ⟨first, hfirst, href⟩ := Config.exists_isFirst SortKey.ref hkey
    obtain ⟨i, hi⟩ := Config.isFirst_iff.mp hfirst
    rw [← href]
    exact h first i hi hgrouped
  · intro h key i hi hgrouped
    exact h hgrouped key (Config.isFirst_iff.mpr ⟨i, hi⟩).mem

/-- A report is without faults exactly if it is well-formed. -/
theorem faults_eq_nil_iff : faults r c = [] ↔ WellFormed r c := by
  simp only [faults, List.flatten_eq_nil_iff, List.forall_mem_cons, List.not_mem_nil,
    false_imp_iff, implies_true, and_true, primaryFaults_eq_nil_iff, emptinessFaults_eq_nil_iff,
    refsFaults_eq_nil_iff, filtersFaults_eq_nil_iff, groupingFaults_eq_nil_iff,
    sortFaults_eq_nil_iff, windowFaults_eq_nil_iff]
  constructor
  · rintro ⟨hprimary, hselects, hselected, hfilters, hsorting, hgroup, haggregation, hsortable,
      hwindow⟩
    exact ⟨hprimary, hselects, hselected, hfilters, hsorting, hgroup,
      fun s hs => (haggregation s hs).1, fun hgrouped s hs => (haggregation s hs).2 hgrouped,
      hsortable, hwindow⟩
  · intro h
    exact ⟨h.primary, h.selects, h.selected, h.filters, h.sorting, h.groupBy,
      fun s hs => ⟨h.summarised s hs, fun hgrouped => h.grouped hgrouped s hs⟩, h.sortable,
      h.window⟩

theorem Resolution.wellFormed {v : Resolved} (h : Resolution r c v) : WellFormed r c :=
  faults_eq_nil_iff.mp ((resolve_reports r c).exists_ok_iff.mp ⟨v, resolve_eq_ok_iff.mpr h⟩)

/-- Whether a report is well-formed can be computed. -/
instance (r : Registry) (c : Config) : Decidable (WellFormed r c) :=
  decidable_of_iff ((faults r c).isEmpty = true) (List.isEmpty_iff.trans faults_eq_nil_iff)

end

/-- **The well-formed reports are those that are resolved.** -/
theorem resolved_iff_wellFormed (r : Registry) (c : Config) :
    (∃ v, resolve r c = .ok v) ↔ WellFormed r c :=
  (resolve_reports r c).exists_ok_iff.trans faults_eq_nil_iff

/-- A field is not summarised in a report that is not grouped. -/
example : ¬WellFormed .telematics
    { Config.new "tracking_data_core" with
      selected := [⟨"tracking_data_core", "speed", none, some .max⟩] } := by
  decide +kernel

end Statement

end ReportSql
