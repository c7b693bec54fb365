import ReportSql.Proofs.Reloading

/-!
# Texts of time fields

A time field is written with a double colon between its entity and its field, and a text is taken
apart at the first double colon in it. The text of a time field that was read is the one that it was
read from. Put together in another way, a time field can have a text that is taken apart elsewhere:
its entity may end with a colon or hold a double one, or its field may hold one while there is no
entity. `ofText?_text_iff` says that there is no other reason why a text is not read back, so that
saving a report that was read does not move its window.
-/

namespace ReportSql.Time.TimeField

/-! ## The first double colon -/

/-- What stands between an entity and a field. -/
def colons : List Char :=
  [':', ':']

theorem colons_prefix_iff {a b : Char} {s : List Char} :
    colons <+: a :: b :: s ↔ (a == ':' && b == ':') = true := by
  rw [colons, List.cons_prefix_cons, List.cons_prefix_cons, Bool.and_eq_true, beq_iff_eq,
    beq_iff_eq, eq_comm (a := ':'), eq_comm (a := ':')]
  simp only [List.nil_prefix, and_true]

theorem not_colons_infix_singleton (a : Char) : ¬colons <:+: [a] := by
  intro h
  have hlength := h.length_le
  simp [colons] at hlength

theorem splitColons_eq_none_iff {s : List Char} : splitColons s = none ↔ ¬colons <:+: s := by
  induction s with
  | nil => simp [splitColons, colons]
  | cons a s ih =>
    cases s with
    | nil => exact ⟨fun _ => not_colons_infix_singleton a, fun _ => rfl⟩
    | cons b s =>
      rw [splitColons, List.infix_cons_iff, colons_prefix_iff]
      by_cases hcolons : (a == ':' && b == ':') = true
      · simp only [hcolons, if_true, true_or, not_true_eq_false, reduceCtorEq]
      · rw [if_neg hcolons, Option.map_eq_none_iff, ih, or_iff_right hcolons]

/-- A text is taken apart behind what holds no double colon, not even with the first of the two. -/
theorem splitColons_append {before : List Char} (h : ¬colons <:+: before ++ [':'])
    (after : List Char) : splitColons (before ++ ':' :: ':' :: after) = some (before, after) := by
  induction before with
  | nil => rfl
  | cons a before ih =>
    rw [List.cons_append, List.infix_cons_iff, not_or] at h
    obtain ⟨hstart, hrest⟩ := h
    -- the character behind the first one, which may be that of the separator
    obtain ⟨b, s, hs⟩ := List.exists_cons_of_ne_nil (List.append_ne_nil_of_right_ne_nil before
      (List.cons_ne_nil ':' []))
    have htext : before ++ ':' :: ':' :: after = b :: (s ++ ':' :: after) := by
      rw [← List.cons_append, ← hs, List.append_assoc, List.singleton_append]
    rw [hs, colons_prefix_iff] at hstart
    have hsplit := ih hrest
    rw [htext] at hsplit
    rw [List.cons_append, htext, splitColons, if_neg hstart, hsplit, Option.map_some]

/-- There is no double colon before the one at which a text is taken apart. -/
theorem not_colons_infix_of_splitColons {s before after : List Char}
    (h : splitColons s = some (before, after)) : ¬colons <:+: before ++ [':'] := by
  induction s generalizing before with
  | nil => cases h
  | cons a s ih =>
    cases s with
    | nil => cases h
    | cons b s =>
      rw [splitColons] at h
      by_cases hcolons : (a == ':' && b == ':') = true
      · rw [if_pos hcolons] at h
        cases h
        exact not_colons_infix_singleton ':'
      · rw [if_neg hcolons, Option.map_eq_some_iff] at h
        obtain ⟨⟨before', after'⟩, hsplit, h⟩ := h
        cases h
        rw [List.cons_append, List.infix_cons_iff, not_or]
        refine ⟨?_, ih hsplit⟩
        have hs := Report.splitColons_eq_some hsplit
        cases before' with
        | nil =>
          obtain ⟨rfl, -⟩ := List.cons.inj hs
          rwa [List.nil_append, colons_prefix_iff]
        | cons c before' =>
          obtain ⟨rfl, -⟩ := List.cons.inj hs
          rwa [List.cons_append, colons_prefix_iff]

/-! ## Texts that are read back -/

/-- The first double colon of the text stands behind the entity, which is not empty; without an
entity there is none. -/
def Separated (t : TimeField) : Prop :=
  match t.entity with
  | none => ¬colons <:+: t.field.toList
  | some entity => entity ≠ "" ∧ ¬colons <:+: (entity ++ ":").toList

theorem ofText?_none {field : String} :
    ofText? field = some ⟨none, field⟩ ↔ field ≠ "" ∧ ¬colons <:+: field.toList := by
  rw [← splitColons_eq_none_iff, ofText?]
  cases splitColons field.toList with
  | none => simp
  | some parts =>
    simp only [reduceCtorEq, and_false, iff_false]
    split <;> simp

theorem toList_text_some (entity field : String) :
    (text ⟨some entity, field⟩).toList = entity.toList ++ ':' :: ':' :: field.toList := by
  simp [text]

theorem ofText?_some {entity field : String} :
    ofText? (text ⟨some entity, field⟩) = some ⟨some entity, field⟩ ↔
      field ≠ "" ∧ entity ≠ "" ∧ ¬colons <:+: (entity ++ ":").toList := by
  have hcolon : (entity ++ ":").toList = entity.toList ++ [':'] := by simp
  rw [ofText?, toList_text_some, hcolon]
  constructor
  · intro h
    cases hsplit : splitColons (entity.toList ++ ':' :: ':' :: field.toList) with
    | none =>
      have hcolons : colons <:+: entity.toList ++ ':' :: ':' :: field.toList :=
        ⟨entity.toList, field.toList, by simp [colons]⟩
      exact absurd hcolons (splitColons_eq_none_iff.mp hsplit)
    | some parts =>
      obtain ⟨before, after⟩ := parts
      simp only [hsplit] at h
      by_cases hempty : (before.isEmpty || after.isEmpty) = true
      · simp [hempty] at h
      · simp only [hempty, Bool.false_eq_true, if_false, Option.some.injEq, mk.injEq] at h
        obtain ⟨rfl, rfl⟩ := h
        have hparts : String.ofList after ≠ "" ∧ String.ofList before ≠ "" := by
          simpa [and_comm] using hempty
        rw [String.toList_ofList]
        exact ⟨hparts.1, hparts.2, not_colons_infix_of_splitColons hsplit⟩
  · rintro ⟨hfield, hentity, hcolons⟩
    simp [splitColons_append hcolons, hfield, hentity]

/-- **A text is read back** exactly if the field is not empty and the parts are separated. -/
theorem ofText?_text_iff (t : TimeField) :
    ofText? t.text = some t ↔ t.field ≠ "" ∧ t.Separated := by
  obtain ⟨entity, field⟩ := t
  cases entity with
  | none => exact ofText?_none
  | some entity => exact ofText?_some

end ReportSql.Time.TimeField

namespace ReportSql.Json.RecordReader

variable {α : Type} {origin : Origin} {depth : Nat}

/-- A record that was read has been built from the trees of its members. -/
theorem exists_build_of_reader {r : RecordReader α} {t : Tree} {a : α}
    (h : r.reader origin depth t = .ok a) : ∃ depth slots, r.build origin depth slots = .ok a := by
  cases depth with
  | zero => cases t <;> cases h
  | succ depth =>
    cases t with
    | object members close =>
      rw [reader, bind_eq_ok] at h
      obtain ⟨slots, -, h⟩ := h
      cases close with
      | none => exact ⟨depth, slots, h⟩
      | some b => cases h
    | array items close =>
      rw [reader, bind_eq_ok] at h
      obtain ⟨slots, -, h⟩ := h
      exact ⟨depth, slots, h⟩
    | _ => cases h

variable {reader : Reader α} {name : String} {slots : Slots} {a : α}

/-- A member that has to be there has been read from a tree. -/
theorem exists_tree_of_field (h : (field name reader).build origin depth slots = .ok a) :
    ∃ t, reader origin depth t = .ok a := by
  simp only [field] at h
  split at h
  · exact ⟨_, h⟩
  · cases h

/-- An optional member that is there has been read from a tree. -/
theorem exists_tree_of_optional
    (h : (optional name reader).build origin depth slots = .ok (some a)) :
    ∃ t, reader origin depth t = .ok a := by
  simp only [optional, fieldOr] at h
  split at h
  · rename_i t _
    refine ⟨t, ?_⟩
    cases t with
    | null => cases h
    | _ =>
      obtain ⟨b, hread, hb⟩ := map_eq_ok.mp h
      cases hb
      exact hread
  · cases h

end ReportSql.Json.RecordReader

namespace ReportSql.Report

open ReportSql.Json (Origin Tree Reads reads_string)
open ReportSql.Json.RecordReader (build_map_eq_ok build_seq_eq_ok exists_build_of_reader
  exists_tree_of_field exists_tree_of_optional)
open ReportSql.Time (TimeField)

/-! ## Time fields of reports -/

section

variable {origin : Origin} {depth : Nat} {tree : Tree}

theorem exists_text_of_reader {t : TimeField} (h : TimeField.reader origin depth tree = .ok t) :
    ∃ s, TimeField.ofText? s = some t := by
  rw [TimeField.reader, Json.Reader.filterMap, bind_eq_ok] at h
  obtain ⟨s, -, h⟩ := h
  refine ⟨s, ?_⟩
  cases hs : TimeField.ofText? s with
  | none =>
    rw [hs] at h
    cases h
  | some u =>
    rw [hs] at h
    cases h
    rfl

theorem timeFieldRead_of_optional {slots : Json.Slots} {o : Option TimeField}
    (h : (Json.RecordReader.optional "timeField" TimeField.reader).build origin depth slots =
      .ok o) :
    TimeFieldRead o := by
  rintro t rfl
  obtain ⟨tree, htree⟩ := exists_tree_of_optional h
  exact exists_text_of_reader htree

theorem Conditions.timeFieldRead {q : Conditions} (h : reader origin depth tree = .ok q) :
    TimeFieldRead q.timeField := by
  obtain ⟨depth, slots, hbuild⟩ := exists_build_of_reader h
  obtain ⟨_, limit, hfive, -, rfl⟩ := build_seq_eq_ok.mp hbuild
  obtain ⟨_, groupBy, hfour, -, rfl⟩ := build_seq_eq_ok.mp hfive
  obtain ⟨_, timeField, hthree, hfield, rfl⟩ := build_seq_eq_ok.mp hfour
  obtain ⟨_, timeRange, htwo, -, rfl⟩ := build_seq_eq_ok.mp hthree
  obtain ⟨_, sorting, hone, -, rfl⟩ := build_seq_eq_ok.mp htwo
  obtain ⟨filters, -, rfl⟩ := build_map_eq_ok.mp hone
  exact timeFieldRead_of_optional hfield

theorem Saved.timeFieldRead {s : Saved} (h : reader origin depth tree = .ok s) :
    TimeFieldRead s.query.timeField := by
  obtain ⟨depth, slots, hbuild⟩ := exists_build_of_reader h
  obtain ⟨_, query, hthree, hquery, rfl⟩ := build_seq_eq_ok.mp hbuild
  obtain ⟨_, source, htwo, -, rfl⟩ := build_seq_eq_ok.mp hthree
  obtain ⟨_, heading, hone, -, rfl⟩ := build_seq_eq_ok.mp htwo
  obtain ⟨version, -, rfl⟩ := build_map_eq_ok.mp hone
  obtain ⟨tree, htree⟩ := exists_tree_of_field hquery
  exact Conditions.timeFieldRead htree

namespace Config

theorem timeFieldRead_of_reader {c : Config} (h : reader origin depth tree = .ok c) :
    TimeFieldRead c.timeField := by
  obtain ⟨depth, slots, hbuild⟩ := exists_build_of_reader h
  obtain ⟨_, limit, hnine, -, rfl⟩ := build_seq_eq_ok.mp hbuild
  obtain ⟨_, timeField, height, hfield, rfl⟩ := build_seq_eq_ok.mp hnine
  obtain ⟨_, timeRange, hseven, -, rfl⟩ := build_seq_eq_ok.mp height
  obtain ⟨_, groupBy, hsix, -, rfl⟩ := build_seq_eq_ok.mp hseven
  obtain ⟨_, sorting, hfive, -, rfl⟩ := build_seq_eq_ok.mp hsix
  obtain ⟨_, filters, hfour, -, rfl⟩ := build_seq_eq_ok.mp hfive
  obtain ⟨_, selected, hthree, -, rfl⟩ := build_seq_eq_ok.mp hfour
  obtain ⟨_, primaryEntity, htwo, -, rfl⟩ := build_seq_eq_ok.mp hthree
  obtain ⟨_, description, hone, -, rfl⟩ := build_seq_eq_ok.mp htwo
  obtain ⟨name, -, rfl⟩ := build_map_eq_ok.mp hone
  exact timeFieldRead_of_optional hfield

/-- The time field of a report that was read has been read, in whichever form the report was. -/
theorem timeFieldRead_of_ofText {text : String} {c : Config} (h : ofText text = .ok c) :
    TimeFieldRead c.timeField := by
  rw [ofText] at h
  split at h
  · rw [ofValue] at h
    split at h
    · split at h
      · rename_i s hs
        obtain ⟨s', hchecked, rfl⟩ := map_eq_ok.mp h
        rw [Saved.checked] at hchecked
        split at hchecked
        · cases hchecked
          exact Saved.timeFieldRead hs
        · cases hchecked
      · cases h
    · split at h
      · rename_i c' hc'
        cases h
        exact timeFieldRead_of_reader hc'
      · cases h
  · cases h

end Config

end

/-- **Texts of time fields are faithful.** A time field that a text is read as is written as that
text. The text of a time field is read as that time field exactly if its field is not empty and the
text has its first double colon behind an entity that is not empty, or none at all without an
entity. So a time field that was read is read back wherever it stands, and a report that was read
keeps its time field and the entity that it starts from when it is saved and read again. -/
theorem timeField_text_faithful :
    (∀ s t, TimeField.ofText? s = some t → t.text = s) ∧
    (∀ t : TimeField, TimeField.ofText? t.text = some t ↔ t.field ≠ "" ∧ t.Separated) ∧
    (∀ origin depth tree t, TimeField.reader origin depth tree = .ok t →
      Reads TimeField.reader t.toValue t) ∧
    ∀ text c c', Config.ofText text = .ok c → c.reloaded = .ok c' →
      c'.timeField = c.timeField ∧ c'.primary? = c.primary? := by
  refine ⟨fun s t h => text_of_ofText? h, TimeField.ofText?_text_iff, ?_, ?_⟩
  · intro origin depth tree t h
    obtain ⟨s, hs⟩ := exists_text_of_reader h
    exact reads_timeField hs
  · intro text c c' hread hreloaded
    obtain ⟨-, -, -, hprimary, hfield⟩ := Config.reloaded_ok hreloaded
    exact ⟨hfield (Config.timeFieldRead_of_ofText hread), hprimary⟩

/-- Objects of the last two days by a field whose id starts with a colon, of an entity whose id
holds one. -/
def colonWindow : Config :=
  { Config.new "objects" with
    timeRange := some (.relative 2 .days)
    timeField := some ⟨some "tracking:data", ":device_time"⟩ }

/-- Three colons in a row are taken apart behind the second one. -/
theorem colonWindow_faithful :
    TimeField.ofText? "tracking:data:::device_time" = some ⟨some "tracking:data", ":device_time"⟩ ∧
    TimeField.ofText? "tracking:data:::device_time" ≠ some ⟨some "tracking:data:", "device_time"⟩ ∧
    ∃ c c', Config.ofText colonWindow.toValue.compactText = .ok c ∧ c.reloaded = .ok c' ∧
      c'.timeField = some ⟨some "tracking:data", ":device_time"⟩ := by
  have hoperands : OperandsInOrder colonWindow.filters := nofun
  have hfield : TimeFieldRead colonWindow.timeField := by
    intro t ht
    cases ht
    exact ⟨"tracking:data:::device_time", by decide⟩
  have hown : colonWindow.toValue.ComesBackFrom colonWindow.toValue.compactText := by
    rw [Json.Value.ComesBackFrom, Json.Value.compactText, Json.Value.ofText?_ofList]
    decide +kernel
  have hsaved : (Saved.ofConfig colonWindow).toValue.ComesBackFrom
      (Saved.ofConfig colonWindow).text := by
    rw [Json.Value.ComesBackFrom, Saved.text, Json.Value.prettyText, Json.Value.ofText?_ofList]
    decide +kernel
  have hread : Config.ofText colonWindow.toValue.compactText = .ok colonWindow :=
    Config.ofText_own hoperands hfield hown
  have hreloaded : colonWindow.reloaded = .ok colonWindow :=
    Config.ofText_saved hoperands hfield hsaved
  obtain ⟨-, hiff, -, hreports⟩ := timeField_text_faithful
  have hcolons : ¬TimeField.Separated ⟨some "tracking:data:", "device_time"⟩ := by
    intro h
    exact h.2 ⟨"tracking:data".toList, [], by decide⟩
  refine ⟨(hiff ⟨some "tracking:data", ":device_time"⟩).mpr ⟨by decide, by decide, by decide⟩, ?_,
    colonWindow, colonWindow, hread, hreloaded, (hreports _ _ _ hread hreloaded).1⟩
  intro h
  exact hcolons ((hiff ⟨some "tracking:data:", "device_time"⟩).mp h).2

end ReportSql.Report
