import ReportSql.Proofs.Decoding
import ReportSql.Proofs.Paths

/-!
# Names of columns

A selected field without a label is shown under a name that is put together of its aggregation, its
entity and its own id, with underscores between them. The ids may hold underscores themselves, and
so the names of two fields can be the same text, divided at different places. `Clashes` says when;
where no beginning of a name is continued by another one, it never happens.
-/

namespace ReportSql.Statement

open ReportSql.Catalog
open ReportSql.Report

/-! ## Texts that are joined by an underscore -/

/-- Two texts that are divided at a mark are the same only if they are divided at the same place, or
if the part before one of the places goes on to the other one. -/
theorem append_cons_eq_iff {α : Type} {mark : α} {l m l' m' : List α} :
    l ++ mark :: m = l' ++ mark :: m' ↔
      (l = l' ∧ m = m') ∨ (∃ p, l' = l ++ mark :: p ∧ m = p ++ mark :: m') ∨
        ∃ p, l = l' ++ mark :: p ∧ m' = p ++ mark :: m := by
  constructor
  · intro h
    rcases List.append_eq_append_iff.mp h with ⟨p, hl, hm⟩ | ⟨p, hl, hm⟩
    · cases p with
      | nil => exact .inl ⟨by simpa using hl.symm, (List.cons.inj hm).2⟩
      | cons a p =>
        obtain ⟨rfl, rfl⟩ := List.cons.inj hm
        exact .inr (.inl ⟨p, hl, rfl⟩)
    · cases p with
      | nil => exact .inl ⟨by simpa using hl, (List.cons.inj hm).2.symm⟩
      | cons a p =>
        obtain ⟨rfl, rfl⟩ := List.cons.inj hm
        exact .inr (.inr ⟨p, hl, rfl⟩)
  · rintro (⟨rfl, rfl⟩ | ⟨p, rfl, rfl⟩ | ⟨p, rfl, rfl⟩) <;> simp

/-- The qualifier and an underscore stand in front of the other qualifier, and what is left of the
latter stands with an underscore in front of the other field. -/
def Continues (qualifier field qualifier' field' : String) : Prop :=
  ∃ piece, qualifier' = qualifier ++ "_" ++ piece ∧ field = piece ++ "_" ++ field'

theorem joined_eq_iff {q f q' f' : String} :
    q ++ "_" ++ f = q' ++ "_" ++ f' ↔
      (q = q' ∧ f = f') ∨ Continues q f q' f' ∨ Continues q' f' q f := by
  have hmark : "_".toList = ['_'] := rfl
  have hpiece : ∀ q f q' f' : String, Continues q f q' f' ↔
      ∃ p, q'.toList = q.toList ++ '_' :: p ∧ f.toList = p ++ '_' :: f'.toList := by
    intro q f q' f'
    simp only [Continues, ← String.toList_inj, String.toList_append, hmark, List.append_assoc,
      List.singleton_append]
    constructor
    · rintro ⟨piece, hq, hf⟩
      exact ⟨piece.toList, hq, hf⟩
    · rintro ⟨p, hq, hf⟩
      exact ⟨.ofList p, by rwa [String.toList_ofList], by rwa [String.toList_ofList]⟩
  rw [hpiece, hpiece, ← String.toList_inj, ← String.toList_inj, ← String.toList_inj]
  simp only [String.toList_append, hmark, List.append_assoc, List.singleton_append]
  exact append_cons_eq_iff

/-! ## Names of columns -/

/-- The part of a name before the entity. -/
def lead : Option Aggregation → String
  | some a => a.name ++ "_"
  | none => ""

/-- The part of a name before the field. -/
def qualifier (a : Option Aggregation) (entity : String) : String :=
  lead a ++ entity

theorem defaultLabel_eq (s : SelectedField) :
    s.defaultLabel = qualifier s.aggregation s.entity ++ "_" ++ s.field := by
  cases h : s.aggregation with
  | some a => simp only [SelectedField.defaultLabel, qualifier, lead, h]
  | none => simp only [SelectedField.defaultLabel, qualifier, lead, h, String.empty_append]

namespace ExpectedColumn

/-- The part of the name of the column before its field. -/
def qualifier (c : ExpectedColumn) : String :=
  Statement.qualifier c.aggregation c.entity

def ref (c : ExpectedColumn) : FieldRef :=
  ⟨c.entity, c.field⟩

/-- The columns agree in what their names are made of: it is the same, or the qualifier of one goes
on in the field of the other. -/
def Clashes (c d : ExpectedColumn) : Prop :=
  (c.qualifier = d.qualifier ∧ c.field = d.field) ∨
    Continues c.qualifier c.field d.qualifier d.field ∨
    Continues d.qualifier d.field c.qualifier c.field

end ExpectedColumn

theorem Continues.ne {q f q' f' : String} (h : Continues q f q' f') : q ≠ q' := by
  obtain ⟨piece, rfl, -⟩ := h
  intro heq
  have hlength := congrArg String.length heq
  simp only [String.length_append] at hlength
  have hmark : "_".length = 1 := rfl
  omega

theorem Continues.isPrefix {q f q' f' : String} (h : Continues q f q' f') :
    (q ++ "_").toList <+: (q' ++ "_").toList := by
  obtain ⟨piece, rfl, -⟩ := h
  refine ⟨(piece ++ "_").toList, ?_⟩
  simp only [String.toList_append, List.append_assoc]

/-- No qualifier that fields of the catalog can have is continued by another one behind an
underscore. -/
def QualifiersApart (r : Registry) : Prop :=
  ∀ e ∈ r.entities, ∀ e' ∈ r.entities, ∀ a a' : Option Aggregation,
    (qualifier a e.id ++ "_").toList <+: (qualifier a' e'.id ++ "_").toList → a = a' ∧ e.id = e'.id

section

variable {r : Registry} {c : Config} {o : Options} {v : Resolved} {joins : List Sql.Join}
  {window : Option (Time.WindowBounds × Target)} {k : Compiled}

namespace Compilation

theorem refs_columns (h : Compilation r c o v joins window k) :
    k.columns.map ExpectedColumn.ref =
      (Config.distinct SelectedField.ref c.selected).map SelectedField.ref := by
  rw [h.columns_eq, ← h.resolved.selected_parts, List.map_map, List.map_map]
  rfl

/-- The columns are about fields that differ from each other. -/
theorem nodup_refs_columns (h : Compilation r c o v joins window k) :
    (k.columns.map ExpectedColumn.ref).Nodup := by
  rw [h.refs_columns, ← Config.firstBy_eq]
  exact (Config.nodup_firstBy SelectedField.ref [] c.selected).2

/-- The statement shows the columns under their names. -/
theorem labels_select (h : Compilation r c o v joins window k) :
    k.query.select.map Sql.SelectItem.label = k.columns.map fun d => some d.name := by
  rw [h.select_eq, h.columns_eq, List.map_map, List.map_map]
  rfl

theorem name_column (h : Compilation r c o v joins window k)
    (hplain : ∀ s ∈ c.selected, s.label = none) :
    ∀ d ∈ k.columns, d.name = d.qualifier ++ "_" ++ d.field := by
  intro d hd
  rw [h.columns_eq] at hd
  obtain ⟨p, hp, rfl⟩ := List.mem_map.mp hd
  have hlabel : p.part.outputName = p.part.defaultLabel := by
    rw [SelectedField.outputName, hplain p.part (h.resolved.selected_named p hp).1]
    rfl
  exact hlabel.trans (defaultLabel_eq p.part)

theorem entity_column (h : Compilation r c o v joins window k) :
    ∀ d ∈ k.columns, ∃ e ∈ r.entities, e.id = d.entity := by
  intro d hd
  rw [h.columns_eq] at hd
  obtain ⟨p, hp, rfl⟩ := List.mem_map.mp hd
  have hnames := (h.resolved.selected_named p hp).2
  exact ⟨p.target.entity, hnames.entity_mem, hnames.entity_id⟩

/-- Where the qualifiers are apart, a qualifier that goes on like another one is that one. -/
theorem eq_of_isPrefix (h : Compilation r c o v joins window k) (hr : QualifiersApart r)
    {d d' : ExpectedColumn} (hd : d ∈ k.columns) (hd' : d' ∈ k.columns)
    (hstart : (d.qualifier ++ "_").toList <+: (d'.qualifier ++ "_").toList) :
    d.qualifier = d'.qualifier ∧ d.entity = d'.entity := by
  obtain ⟨e, he, hid⟩ := h.entity_column d hd
  obtain ⟨e', he', hid'⟩ := h.entity_column d' hd'
  rw [ExpectedColumn.qualifier, ExpectedColumn.qualifier, ← hid, ← hid'] at hstart ⊢
  obtain ⟨ha, hentity⟩ := hr e he e' he' _ _ hstart
  exact ⟨by rw [ha, hentity], hentity⟩

/-- Where the qualifiers are apart, no two columns clash. -/
theorem ref_eq_of_clashes (h : Compilation r c o v joins window k) (hr : QualifiersApart r)
    {d d' : ExpectedColumn} (hd : d ∈ k.columns) (hd' : d' ∈ k.columns) (hclash : d.Clashes d') :
    d.ref = d'.ref := by
  rcases hclash with ⟨hqualifier, hfield⟩ | hcontinues | hcontinues
  · have hstart : (d.qualifier ++ "_").toList <+: (d'.qualifier ++ "_").toList := by
      rw [hqualifier]
    rw [ExpectedColumn.ref, ExpectedColumn.ref, hfield, (h.eq_of_isPrefix hr hd hd' hstart).2]
  · exact absurd (h.eq_of_isPrefix hr hd hd' hcontinues.isPrefix).1 hcontinues.ne
  · exact absurd (h.eq_of_isPrefix hr hd' hd hcontinues.isPrefix).1 hcontinues.ne

end Compilation

end

/-- The ways to show a field: as it is, or summarised. -/
def showings : List (Option Aggregation) :=
  [none, some .count, some .countDistinct, some .sum, some .avg, some .min, some .max]

theorem mem_showings (a : Option Aggregation) : a ∈ showings := by
  rcases a with _ | _ | _ <;> decide

/-- The qualifiers of the telematics catalog are apart. -/
theorem qualifiersApart_telematics : QualifiersApart .telematics := by
  -- the characters are compared, and not the texts, which take long to put together
  have hids : ∀ id ∈ Registry.telematics.entities.map fun e => e.id.toList,
      ∀ id' ∈ Registry.telematics.entities.map fun e => e.id.toList,
      ∀ a ∈ showings, ∀ a' ∈ showings,
        (lead a).toList ++ (id ++ ['_']) <+: (lead a').toList ++ (id' ++ ['_']) →
          a = a' ∧ id = id' := by decide +kernel
  intro e he e' he' a a' hstart
  simp only [qualifier, String.toList_append, List.append_assoc] at hstart
  obtain ⟨ha, hid⟩ := hids _ (List.mem_map_of_mem he) _ (List.mem_map_of_mem he') a
    (mem_showings a) a' (mem_showings a') hstart
  exact ⟨ha, String.toList_inj.mp hid⟩

theorem Compiled.nodup_names_iff {k : Compiled}
    (hname : ∀ d ∈ k.columns, d.name = d.qualifier ++ "_" ++ d.field) :
    (k.columns.map ExpectedColumn.name).Nodup ↔
      k.columns.Pairwise fun d d' => ¬d.Clashes d' := by
  rw [List.Nodup, List.pairwise_map]
  refine List.Pairwise.iff_of_mem fun {d d'} hd hd' => ?_
  rw [hname d hd, hname d' hd', ne_eq, joined_eq_iff]
  exact Iff.rfl

/-- **Names of columns are different unless they are put together of texts that go on in each
other.** The columns of a report without labels are about different fields, and the statement shows
them under their names. The names differ from each other exactly if no two columns clash; and none
do in a catalog whose qualifiers are apart, whatever the report asks for. -/
theorem column_names_differ_iff {r : Registry} {c : Config} {o : Options} {k : Compiled}
    (h : compile r c o = .ok k) (hplain : ∀ s ∈ c.selected, s.label = none) :
    (k.columns.map ExpectedColumn.ref).Nodup ∧
      k.query.select.map Sql.SelectItem.label = (k.columns.map fun d => some d.name) ∧
      ((k.columns.map ExpectedColumn.name).Nodup ↔
        k.columns.Pairwise fun d d' => ¬d.Clashes d') ∧
      (QualifiersApart r → (k.columns.map ExpectedColumn.name).Nodup) := by
  obtain ⟨v, joins, window, hc⟩ := compile_eq_ok_iff.mp h
  have hiff := k.nodup_names_iff (hc.name_column hplain)
  have hrefs := hc.nodup_refs_columns
  refine ⟨hrefs, hc.labels_select, hiff, fun hr => hiff.mpr ?_⟩
  rw [List.Nodup, List.pairwise_map] at hrefs
  exact hrefs.imp_of_mem fun hd hd' hne hclash => hne (hc.ref_eq_of_clashes hr hd hd' hclash)

/-- Drives are shown with two fields of the drive itself and one of its device. -/
theorem fastDrives_names_differ :
    ∃ k, compile .telematics (fastDrives "100%" 2) newYearOptions = .ok k ∧
      (k.columns.map ExpectedColumn.ref).Nodup ∧
      k.query.select.map Sql.SelectItem.label = [some "tracking_data_core_device_time",
        some "tracking_data_core_speed", some "devices_device_imei"] ∧
      (k.columns.map ExpectedColumn.name).Nodup := by
  have hcompiled : (compile .telematics (fastDrives "100%" 2) newYearOptions).toOption.map
      (fun k => k.columns.map ExpectedColumn.name) = some ["tracking_data_core_device_time",
        "tracking_data_core_speed", "devices_device_imei"] := by decide +kernel
  obtain ⟨k, hk, hnames⟩ := exists_ok_of_map hcompiled
  obtain ⟨hrefs, hlabels, -, hapart⟩ := column_names_differ_iff hk (by decide)
  refine ⟨k, hk, hrefs, ?_, hapart qualifiersApart_telematics⟩
  calc k.query.select.map Sql.SelectItem.label
      = (k.columns.map ExpectedColumn.name).map some := by rw [hlabels, List.map_map]; rfl
    _ = _ := by rw [hnames]; rfl

/-- Vehicles and their tags. Both entities have a field whose name goes on from the name of the
entity. -/
def vehicleTags : Registry where
  entities :=
    let texts (ids : List String) : List Field := ids.map fun id => Telematics.field id id .string
    [{ related "vehicle" ["vehicle_tag"] with fields := texts ["tag_label", "vehicle_tag_id"] },
      { related "vehicle_tag" [] with fields := texts ["id", "label"] }]
  categories := []
  accepted := by decide +kernel

/-- The label of the tag as the vehicle knows it, and as the tag has it. -/
def tagLabels : Config :=
  { Config.new "vehicle" with
    selected := [⟨"vehicle", "tag_label", none, none⟩, ⟨"vehicle_tag", "label", none, none⟩] }

/-- Two fields, without labels, that are shown under one name. -/
theorem tagLabels_names_repeat :
    (∀ s ∈ tagLabels.selected, s.label = none) ∧
      ∃ k, compile vehicleTags tagLabels newYearOptions = .ok k ∧
        k.columns.map ExpectedColumn.name = ["vehicle_tag_label", "vehicle_tag_label"] ∧
        ¬(k.columns.map ExpectedColumn.name).Nodup := by
  have hcompiled : (compile vehicleTags tagLabels newYearOptions).toOption.map
      (fun k => k.columns.map ExpectedColumn.name) =
        some ["vehicle_tag_label", "vehicle_tag_label"] := by decide +kernel
  obtain ⟨k, hk, hnames⟩ := exists_ok_of_map hcompiled
  exact ⟨by decide, k, hk, hnames, by rw [hnames]; decide⟩

end ReportSql.Statement
