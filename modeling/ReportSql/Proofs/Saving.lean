import ReportSql.Proofs.Absence
import ReportSql.Proofs.Readers
import ReportSql.Report.Saved

/-!
# Saving reports

A report comes back from its saved form and from its own form as it was written, but for what stands
for nothing in it, and is compiled to the same statement.
-/

namespace ReportSql.Report

open ReportSql.Catalog (Aggregation Registry optionalMember)
open ReportSql.Json
open ReportSql.Json.RecordReader (Understands)
open ReportSql.Time (TimeField TimeRange TimeUnit)

/-! ## Optional members -/

section

variable {α : Type} (name other : String) (f : α → Value) (o : Option α)

@[simp] theorem lookup_optionalMember :
    lookup name (optionalMember other f o) = if other = name then o.map f else none := by
  cases o <;> simp [optionalMember]

theorem names_optionalMember : ((optionalMember name f o).map Prod.fst).Sublist [name] := by
  cases o
  · exact List.nil_sublist _
  · exact .refl _

end

/-! ## Parts of reports -/

theorem reads_aggregation (a : Aggregation) : Reads Aggregation.reader a.toValue a :=
  reads_oneOf (by cases a <;> rfl)

theorem sorted_aggregation (a : Aggregation) : a.toValue.sorted = a.toValue :=
  rfl

theorem sorted_timeField (t : TimeField) : t.toValue.sorted = t.toValue :=
  rfl

theorem sorted_int64 (n : Int64) : (Value.ofInt64 n).sorted = .ofInt64 n :=
  rfl

theorem reads_direction (d : SortDirection) : Reads SortDirection.reader d.toValue d :=
  reads_oneOf (by cases d <;> rfl)

theorem reads_operator (op : Operator) : Reads Operator.reader op.toValue op :=
  reads_oneOf (by cases op <;> rfl)

theorem reads_timeUnit (unit : TimeUnit) : Reads TimeUnit.reader unit.toValue unit :=
  reads_oneOf (by cases unit <;> rfl)

theorem reads_fieldRef (ref : FieldRef) : Reads FieldRef.reader ref.toValue.sorted ref := by
  have hnames : ["entityId", "fieldId"].Nodup := by decide
  rw [FieldRef.reader, FieldRef.toValue]
  refine Understands.reads_sorted ?_ hnames
  exact ((Understands.field rfl (reads_string ref.entity)).map _).seq
    (.field rfl (reads_string ref.field))

theorem reads_sortKey (key : SortKey) : Reads SortKey.reader key.toValue.sorted key := by
  have hnames : ["entityId", "fieldId", "direction"].Nodup := by decide
  rw [SortKey.reader, SortKey.toValue]
  refine Understands.reads_sorted ?_ hnames
  exact (((Understands.field rfl (reads_string key.entity)).map _).seq
    (.field rfl (reads_string key.field))).seq (.present rfl (reads_direction key.direction))

theorem reads_selected (s : SelectedField) :
    Reads SelectedField.reader s.toValue.sorted s := by
  have hnames : (["entityId", "fieldId"] ++ ["alias"] ++ ["aggregation"]).Nodup := by decide
  rw [SelectedField.reader, SelectedField.toValue]
  refine Understands.reads_sorted ?_ (hnames.sublist ?_)
  · exact ((((Understands.field rfl (reads_string s.entity)).map _).seq
      (.field rfl (reads_string s.field))).seq
      (.optional (f := .string) (by simp [Function.comp_def, Value.sorted])
        fun label _ => ⟨reads_string label, rfl⟩)).seq
      (.optional (f := Aggregation.toValue) (by simp [Function.comp_def, sorted_aggregation])
        fun a _ => ⟨reads_aggregation a, rfl⟩)
  · rw [List.map_append, List.map_append]
    exact ((List.Sublist.refl _).append (names_optionalMember ..)).append (names_optionalMember ..)

/-- An operand that is `null` does not come back. -/
theorem reads_filter (f : Filter) (h : ∀ v, f.value = some v ∨ f.upper = some v → v.InOrder) :
    Reads Filter.reader f.toValue.sorted f.withoutNulls := by
  have hnames : (["id", "entityId", "fieldId", "operator"] ++ ["value"] ++ ["value2"]).Nodup := by
    decide
  have hoperand : ∀ o : Option Value, (∀ v, o = some v → v.InOrder) → o.map Value.sorted = o := by
    intro o ho
    cases o with
    | none => rfl
    | some v => exact congrArg some (Value.sorted_of_inOrder v (ho v rfl))
  have hvalue := hoperand f.value fun v hv => h v (.inl hv)
  have hupper := hoperand f.upper fun v hv => h v (.inr hv)
  rw [Filter.reader, Filter.toValue]
  refine Understands.reads_sorted ?_ (hnames.sublist ?_)
  · exact ((((((Understands.present rfl (reads_string f.id)).map _).seq
      (.field rfl (reads_string f.entity))).seq
      (.field rfl (reads_string f.field))).seq
      (.field rfl (reads_operator f.operator))).seq
      (.optional_value (by simpa using hvalue) fun v hv => h v (.inl hv))).seq
      (.optional_value (by simpa using hupper) fun v hv => h v (.inr hv))
  · rw [List.map_append, List.map_append]
    exact ((List.Sublist.refl _).append (names_optionalMember ..)).append (names_optionalMember ..)

/-! ## Time windows -/

theorem toList_map_string (name : String) (o : Option String) :
    (o.map fun s => (name, Value.string s)).toList = optionalMember name .string o := by
  cases o <;> rfl

theorem mem_optionalMember {α : Type} {name : String} {f : α → Value} {o : Option α}
    {m : String × Value} (h : m ∈ optionalMember name f o) : ∃ a, m = (name, f a) := by
  cases o with
  | none => cases h
  | some a => exact ⟨a, List.mem_singleton.mp h⟩

theorem reads_timeRange (range : TimeRange) :
    Reads TimeRange.reader range.toValue.sorted range := by
  cases range with
  | relative amount unit =>
    have hnames : ["type", "relativeValue", "relativeUnit"].Nodup := by decide
    refine reads_tagged_sorted "relative" rfl rfl ?_ hnames ?_
    · simp [Value.InOrder, TimeUnit.toValue, Value.ofInt64]
    · exact ((Understands.present rfl (reads_int64 amount)).map _).seq
        (.present rfl (reads_timeUnit unit))
  | absolute start finish =>
    have hnames : (["type"] ++ ["startDate"] ++ ["endDate"]).Nodup := by decide
    rw [TimeRange.toValue, toList_map_string, toList_map_string]
    refine reads_tagged_sorted "absolute" rfl (by simp) ?_ (hnames.sublist ?_) ?_
    · intro m hm
      rcases List.mem_append.mp hm with hm | hm
      · rcases List.mem_cons.mp hm with rfl | hm
        · trivial
        · obtain ⟨s, rfl⟩ := mem_optionalMember hm
          trivial
      · obtain ⟨s, rfl⟩ := mem_optionalMember hm
        trivial
    · rw [List.map_append]
      exact ((names_optionalMember ..).cons_cons "type").append (names_optionalMember ..)
    · exact ((Understands.optional (f := .string) (by simp)
        fun s _ => ⟨reads_string s, rfl⟩).map _).seq
        (.optional (f := .string) (by simp) fun s _ => ⟨reads_string s, rfl⟩)

/-! ## Time fields -/

theorem splitColons_eq_some {s before after : List Char}
    (h : TimeField.splitColons s = some (before, after)) : s = before ++ ':' :: ':' :: after := by
  induction s generalizing before with
  | nil => cases h
  | cons a s ih =>
    cases s with
    | nil => cases h
    | cons b s =>
      rw [TimeField.splitColons] at h
      by_cases hcolons : (a == ':' && b == ':') = true
      · rw [if_pos hcolons] at h
        obtain ⟨rfl, rfl⟩ := Prod.mk.inj (Option.some.inj h)
        obtain ⟨ha, hb⟩ := Bool.and_eq_true_iff.mp hcolons
        rw [eq_of_beq ha, eq_of_beq hb, List.nil_append]
      · rw [if_neg hcolons, Option.map_eq_some_iff] at h
        obtain ⟨⟨before', after'⟩, hsplit, h⟩ := h
        obtain ⟨rfl, rfl⟩ := Prod.mk.inj h
        rw [ih hsplit, List.cons_append]

/-- A time field is written as it was read. -/
theorem text_of_ofText? {s : String} {t : TimeField} (h : TimeField.ofText? s = some t) :
    t.text = s := by
  rw [TimeField.ofText?] at h
  cases hsplit : TimeField.splitColons s.toList with
  | none =>
    rw [hsplit] at h
    by_cases hempty : s.isEmpty = true
    · simp [hempty] at h
    · simp only [hempty] at h
      cases h
      rfl
  | some parts =>
    obtain ⟨entity, field⟩ := parts
    rw [hsplit] at h
    by_cases hempty : (entity.isEmpty || field.isEmpty) = true
    · simp [hempty] at h
    · simp only [hempty] at h
      cases h
      have hs := splitColons_eq_some hsplit
      apply String.toList_injective
      simp [TimeField.text, hs]

/-- A time field that a text can stand for is read back. -/
theorem reads_timeField {s : String} {t : TimeField} (h : TimeField.ofText? s = some t) :
    Reads TimeField.reader t.toValue t := by
  have htext : TimeField.ofText? t.text = some t := by rw [text_of_ofText? h, h]
  exact reads_filterMap (reads_string t.text) htext

/-! ## Whole reports -/

theorem reads_heading (h : Heading) : Reads Heading.reader h.toValue.sorted h := by
  have hnames : ["name", "description"].Nodup := by decide
  rw [Heading.reader, Heading.toValue]
  refine Understands.reads_sorted ?_ (hnames.sublist ?_)
  · exact ((Understands.present rfl (reads_string h.name)).map _).seq
      (.optional (f := .string) (by simp [Function.comp_def, Value.sorted])
        fun s _ => ⟨reads_string s, rfl⟩)
  · exact (names_optionalMember ..).cons_cons "name"

theorem sorted_list {α : Type} (toValue : α → Value) (l : List α) :
    (Value.array (l.map toValue)).sorted = .array (l.map fun a => (toValue a).sorted) := by
  rw [Value.sorted, Value.sortedItems_eq_map, List.map_map]
  rfl

theorem reads_dataSource (d : DataSource) : Reads DataSource.reader d.toValue.sorted d := by
  have hnames : ["primaryEntity", "selectedFields"].Nodup := by decide
  rw [DataSource.reader, DataSource.toValue]
  refine Understands.reads_sorted ?_ hnames
  exact ((Understands.field rfl (reads_string d.primaryEntity)).map _).seq
    (.present (congrArg some (sorted_list SelectedField.toValue d.selected))
      (reads_list_self fun s _ => reads_selected s))

/-- The objects among the operands of the filters have their members in the order of their names, as
all objects have that were read from a text. -/
def OperandsInOrder (filters : List Filter) : Prop :=
  ∀ f ∈ filters, ∀ v, f.value = some v ∨ f.upper = some v → v.InOrder

/-- A time field that is there has been read from a text. -/
def TimeFieldRead (field : Option TimeField) : Prop :=
  ∀ t, field = some t → ∃ s, TimeField.ofText? s = some t

theorem reads_filters {filters : List Filter} (h : OperandsInOrder filters) :
    Reads (.list Filter.reader) (Value.array (filters.map Filter.toValue)).sorted
      (filters.map Filter.withoutNulls) := by
  rw [sorted_list]
  exact reads_list fun f hf => reads_filter f (h f hf)

theorem Conditions.nodup_names (q : Conditions) : (q.toValue.members.map Prod.fst).Nodup := by
  have hnames : (["filters", "sorting"] ++ ["timeRange"] ++ ["timeField"]
      ++ ["groupBy", "limit"]).Nodup := by decide
  refine hnames.sublist ?_
  simp only [toValue, Value.members, List.map_append, List.map_cons, List.map_nil]
  exact (((List.Sublist.refl _).append (names_optionalMember ..)).append
    (names_optionalMember ..)).append ((names_optionalMember ..).cons_cons "groupBy")

theorem reads_conditions (q : Conditions) (hoperands : OperandsInOrder q.filters)
    (hfield : TimeFieldRead q.timeField) :
    Reads Conditions.reader q.toValue.sorted
      { q with filters := q.filters.map Filter.withoutNulls } := by
  rw [Conditions.reader, Conditions.toValue]
  refine Understands.reads_sorted ?_ q.nodup_names
  exact ((((((Understands.present rfl (reads_filters hoperands)).map Conditions.mk).seq
    (.present (congrArg some (sorted_list SortKey.toValue q.sorting))
      (reads_list_self fun key _ => reads_sortKey key))).seq
    (.optional (f := fun range => range.toValue.sorted) (by simp [Function.comp_def])
      fun range _ => ⟨reads_timeRange range, by cases range <;> rfl⟩)).seq
    (.optional (f := TimeField.toValue) (by simp [Function.comp_def, sorted_timeField])
      fun t ht => ⟨reads_timeField (hfield t ht).choose_spec, rfl⟩)).seq
    (.present (by simp [sorted_list]) (reads_list_self fun ref _ => reads_fieldRef ref))).seq
    (.optional (f := Value.ofInt64) (by simp [Function.comp_def, sorted_int64])
      fun n _ => ⟨reads_int64 n, rfl⟩)

namespace Saved

variable {c : Config}

theorem nodup_names (s : Saved) : (s.toValue.members.map Prod.fst).Nodup := by
  have hnames : ["version", "report", "dataSource", "query"].Nodup := by decide
  exact hnames

theorem reads_ofConfig (hoperands : OperandsInOrder c.filters)
    (hfield : TimeFieldRead c.timeField) :
    Reads reader (ofConfig c).toValue.sorted (ofConfig c.withoutNulls) := by
  rw [reader, toValue]
  refine Understands.reads_sorted ?_ (nodup_names (ofConfig c))
  exact ((((Understands.field rfl (reads_string currentVersion)).map mk).seq
    (.present rfl (reads_heading _))).seq
    (.field rfl (reads_dataSource _))).seq
    (.field rfl (reads_conditions _ hoperands hfield))

/-- A saved report is a report again, without the blanks that stand for nothing. -/
theorem toConfig_ofConfig (c : Config) : (ofConfig c).toConfig = c.withoutBlanks := by
  have hblank : ∀ o : Option String, ((some (o.getD "")).filter fun s => !s.isEmpty)
      = o.filter fun s => !s.isEmpty := by
    intro o
    cases o <;> rfl
  rw [toConfig, Config.withoutBlanks, ofConfig]
  simp only [hblank]

/-- Saving the report that was read from a file gives the file. -/
theorem ofConfig_toConfig {s : Saved} (h : s.version = currentVersion) :
    ofConfig s.toConfig = s := by
  have hblank : ∀ s : String, ((some s).filter fun s => !s.isEmpty).getD "" = s := by
    intro s
    rw [Option.filter_some]
    by_cases hs : s.isEmpty = true
    · rw [hs]
      exact (String.isEmpty_iff.mp hs).symm
    · rw [Bool.not_eq_true] at hs
      rw [hs]
      rfl
  rw [ofConfig, toConfig]
  simp only [hblank, ← h]

end Saved

namespace Config

variable {c : Config} {text : String}

theorem nodup_names (c : Config) : (c.toValue.members.map Prod.fst).Nodup := by
  have hnames : (["name"] ++ ["description"] ++ ["primaryEntity"]
      ++ ["selectedFields", "filters", "sorting", "groupBy"] ++ ["timeRange"] ++ ["timeField"]
      ++ ["limit"]).Nodup := by decide
  refine hnames.sublist ?_
  simp only [toValue, Value.members, List.map_append, List.map_cons, List.map_nil]
  exact ((((((names_optionalMember ..).append (names_optionalMember ..)).append
    (names_optionalMember ..)).append (.refl _)).append (names_optionalMember ..)).append
    (names_optionalMember ..)).append (names_optionalMember ..)

theorem reads_config (hoperands : OperandsInOrder c.filters) (hfield : TimeFieldRead c.timeField) :
    Reads reader c.toValue.sorted c.withoutNulls := by
  rw [reader, toValue]
  refine Understands.reads_sorted ?_ (nodup_names c)
  exact ((((((((((Understands.optional (f := .string)
        (by simp [Function.comp_def, Value.sorted])
        fun s _ => ⟨reads_string s, rfl⟩).map mk).seq
      (.optional (f := .string) (by simp [Function.comp_def, Value.sorted])
        fun s _ => ⟨reads_string s, rfl⟩)).seq
      (.optional (f := .string) (by simp [Function.comp_def, Value.sorted])
        fun s _ => ⟨reads_string s, rfl⟩)).seq
      (.present (by simp [sorted_list]) (reads_list_self fun s _ => reads_selected s))).seq
      (.present (by simp) (reads_filters hoperands))).seq
      (.present (by simp [sorted_list]) (reads_list_self fun key _ => reads_sortKey key))).seq
      (.present (by simp [sorted_list]) (reads_list_self fun ref _ => reads_fieldRef ref))).seq
      (.optional (f := fun range => range.toValue.sorted) (by simp [Function.comp_def])
        fun range _ => ⟨reads_timeRange range, by cases range <;> rfl⟩)).seq
      (.optional (f := TimeField.toValue) (by simp [Function.comp_def, sorted_timeField])
        fun t ht => ⟨reads_timeField (hfield t ht).choose_spec, rfl⟩)).seq
      (.optional (f := Value.ofInt64) (by simp [Function.comp_def, sorted_int64])
        fun n _ => ⟨reads_int64 n, rfl⟩)

/-- A saved report is recognised by its version and read back. -/
theorem ofText_saved (hoperands : OperandsInOrder c.filters) (hfield : TimeFieldRead c.timeField)
    (htext : (Saved.ofConfig c).toValue.ComesBackFrom text) :
    ofText text = .ok c.withoutNulls.withoutBlanks := by
  have hversion : (Saved.ofConfig c).toValue.sorted.get? "version" = some (.string "1.0") :=
    Value.get?_sorted (Saved.nodup_names (Saved.ofConfig c)) "version"
  have hread := (Saved.reads_ofConfig hoperands hfield).readValue htext
  rw [ofText, htext]
  simp only [ofValue, hversion, Option.isSome_some, if_true, hread]
  exact congrArg Except.ok (Saved.toConfig_ofConfig c.withoutNulls)

/-- A report in its own form names no version and is read back. -/
theorem ofText_own (hoperands : OperandsInOrder c.filters) (hfield : TimeFieldRead c.timeField)
    (htext : c.toValue.ComesBackFrom text) : ofText text = .ok c.withoutNulls := by
  have hversion : c.toValue.sorted.get? "version" = none := by
    refine (Value.get?_sorted (nodup_names c) "version").trans ?_
    simp [toValue, Value.members]
  have hread := (reads_config hoperands hfield).readValue htext
  rw [ofText, htext]
  simp only [ofValue, hversion, hread]
  rfl

end Config

open ReportSql.Statement in
/-- **Saving and reading back changes nothing.** A report comes back from its saved form with
nothing in the place of its `null` operands, of an empty name and of an empty primary entity, and
from its own form with nothing in the place of its `null` operands; either way it is compiled to
the same statement, or refused with the same error. A file of the current version is written as it
was read. -/
theorem saving_keeps_reports :
    (∀ c : Config, OperandsInOrder c.filters → TimeFieldRead c.timeField →
      (∀ text, (Saved.ofConfig c).toValue.ComesBackFrom text →
        Config.ofText text = .ok c.withoutNulls.withoutBlanks
          ∧ ∀ r o, compile r c.withoutNulls.withoutBlanks o = compile r c o)
      ∧ ∀ text, c.toValue.ComesBackFrom text →
        Config.ofText text = .ok c.withoutNulls
          ∧ ∀ r o, compile r c.withoutNulls o = compile r c o)
    ∧ ∀ s : Saved, s.version = "1.0" → Saved.ofConfig s.toConfig = s := by
  refine ⟨fun c hoperands hfield => ⟨fun text htext => ⟨?_, fun r o => ?_⟩,
    fun text htext => ⟨?_, fun r o => ?_⟩⟩, fun s hversion => Saved.ofConfig_toConfig hversion⟩
  · exact Config.ofText_saved hoperands hfield htext
  · rw [compile_withoutBlanks, compile_withoutNulls]
  · exact Config.ofText_own hoperands hfield htext
  · exact compile_withoutNulls r c o

/-- New objects under an empty name, with a filter whose operand is `null`. -/
def unnamedObjects : Config :=
  { Config.new "objects" with
    name := some ""
    selected := [⟨"objects", "object_id", none, none⟩]
    filters := [⟨"filter-1", "objects", "object_id", .isNotNull, some .null, none⟩]
    timeRange := some (.relative 2 .days)
    timeField := some ⟨none, "create_datetime"⟩ }

theorem unnamedObjects_come_back :
    Config.ofText (Saved.ofConfig unnamedObjects).text
        = .ok unnamedObjects.withoutNulls.withoutBlanks
      ∧ Config.ofText unnamedObjects.toValue.compactText = .ok unnamedObjects.withoutNulls
      ∧ Saved.ofConfig (Saved.ofConfig unnamedObjects).toConfig
        = Saved.ofConfig unnamedObjects := by
  have hoperands : OperandsInOrder unnamedObjects.filters := by
    intro f hf v hv
    obtain rfl := List.mem_singleton.mp hf
    rcases hv with hv | hv <;> cases hv
    trivial
  have hfield : TimeFieldRead unnamedObjects.timeField := by
    intro t ht
    cases ht
    exact ⟨"create_datetime", by decide⟩
  have hsaved : (Saved.ofConfig unnamedObjects).toValue.ComesBackFrom
      (Saved.ofConfig unnamedObjects).text := by
    rw [Value.ComesBackFrom, Saved.text, Value.prettyText, Value.ofText?_ofList]
    decide +kernel
  have hown : unnamedObjects.toValue.ComesBackFrom unnamedObjects.toValue.compactText := by
    rw [Value.ComesBackFrom, Value.compactText, Value.ofText?_ofList]
    decide +kernel
  obtain ⟨hreports, hfiles⟩ := saving_keeps_reports
  obtain ⟨hfromSaved, hfromOwn⟩ := hreports unnamedObjects hoperands hfield
  exact ⟨(hfromSaved _ hsaved).1, (hfromOwn _ hown).1, hfiles (Saved.ofConfig unnamedObjects) rfl⟩

end ReportSql.Report
