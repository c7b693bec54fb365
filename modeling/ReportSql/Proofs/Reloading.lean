import ReportSql.Proofs.Following
import ReportSql.Proofs.Saving

/-!
# Reloading reports

A report is saved and what was written is read again. That may fail, since a text may be nested more
deeply than readers go. When it does not fail, the numbers among the operands of the filters may
have changed, but the fields, sort keys and keys to group by are those that were saved, and so are
the entity that the report starts from and a time field that was read.
-/

namespace ReportSql.Json

/-! ## What comes back -/

theorem lookup_rereadMembers (name : String) (ms : List (String × Value)) :
    lookup name (Value.rereadMembers ms) = (lookup name ms).map Value.reread := by
  induction ms with
  | nil => rfl
  | cons m ms ih =>
    obtain ⟨other, v⟩ := m
    rw [Value.rereadMembers, lookup_cons, lookup_cons, ih]
    split <;> rfl

theorem names_rereadMembers (ms : List (String × Value)) :
    (Value.rereadMembers ms).map Prod.fst = ms.map Prod.fst := by
  induction ms with
  | nil => rfl
  | cons m ms ih => rw [Value.rereadMembers, List.map_cons, List.map_cons, ih]

/-- A list without numbers comes back as it is. -/
theorem reread_list {α : Type} {toValue : α → Value} (h : ∀ a, (toValue a).reread = toValue a)
    (l : List α) : (Value.array (l.map toValue)).reread = .array (l.map toValue) := by
  have hitems : Value.rereadItems (l.map toValue) = l.map toValue := by
    induction l with
    | nil => rfl
    | cons a l ih => rw [List.map_cons, Value.rereadItems, h, ih]
  rw [Value.reread, hitems]

/-! ## Reading records -/

namespace RecordReader

variable {α β : Type} {find : String → Option Value}

section

variable {origin : Origin} {depth : Nat} {slots : Slots} {b : β}

theorem build_map_eq_ok {f : α → β} {r : RecordReader α} :
    (f <$> r).build origin depth slots = .ok b ↔
      ∃ a, r.build origin depth slots = .ok a ∧ b = f a :=
  map_eq_ok

theorem build_seq_eq_ok {g : RecordReader (α → β)} {r : RecordReader α} :
    (g <*> r).build origin depth slots = .ok b ↔
      ∃ f a, g.build origin depth slots = .ok f ∧ r.build origin depth slots = .ok a ∧ b = f a := by
  change (do
    let f ← g.build origin depth slots
    let x ← r.build origin depth slots
    .ok (f x)) = .ok b ↔ _
  simp only [bind_eq_ok, Except.ok.injEq, exists_and_left, eq_comm (a := b)]

end

/-- The record reader has made `a` of what is found under the names that it knows. -/
def Built (r : RecordReader α) (find : String → Option Value) (a : α) : Prop :=
  ∃ origin depth slots, r.build origin depth slots = .ok a
    ∧ (∀ m ∈ r.known, slot? m.name slots = (find m.name).map Tree.ofValue)
    ∧ ∀ m ∈ r.known, ∀ v, find m.name = some v → v.levels ≤ depth

namespace Built

theorem map {f : α → β} {r : RecordReader α} {b : β} (h : Built (f <$> r) find b) :
    ∃ a, Built r find a ∧ b = f a := by
  obtain ⟨origin, depth, slots, hbuild, hslots⟩ := h
  obtain ⟨a, ha, rfl⟩ := build_map_eq_ok.mp hbuild
  exact ⟨a, ⟨origin, depth, slots, ha, hslots⟩, rfl⟩

theorem seq {g : RecordReader (α → β)} {r : RecordReader α} {b : β} (h : Built (g <*> r) find b) :
    ∃ f a, Built g find f ∧ Built r find a ∧ b = f a := by
  obtain ⟨origin, depth, slots, hbuild, hslots, hlevels⟩ := h
  obtain ⟨f, a, hf, ha, rfl⟩ := build_seq_eq_ok.mp hbuild
  obtain ⟨hleft, hright⟩ := List.forall_mem_append.mp hslots
  obtain ⟨hleft', hright'⟩ := List.forall_mem_append.mp hlevels
  exact ⟨f, a, ⟨origin, depth, slots, hf, hleft, hleft'⟩,
    ⟨origin, depth, slots, ha, hright, hright'⟩, rfl⟩

/-- What is understood is made of it whenever anything is. -/
theorem eq {r : RecordReader α} {a b : α} (h : Built r find b) (hr : r.Understands find a) :
    b = a := by
  obtain ⟨origin, depth, slots, hbuild, hslots, hlevels⟩ := h
  rw [hr.builds origin depth slots hslots hlevels] at hbuild
  cases hbuild
  rfl

theorem field {name : String} {reader : Reader α} {v : Value} {a : α}
    (h : Built (.field name reader) find a) (hfind : find name = some v) :
    ∃ origin depth, v.levels ≤ depth ∧ reader origin depth (.ofValue v) = .ok a := by
  obtain ⟨origin, depth, slots, hbuild, hslots, hlevels⟩ := h
  have hslot : slot? name slots = some (.ofValue v) :=
    (hslots _ (.head _)).trans (congrArg (Option.map Tree.ofValue) hfind)
  simp only [RecordReader.field, hslot] at hbuild
  exact ⟨origin, depth, hlevels _ (.head _) v hfind, hbuild⟩

end Built

/-- What comes back of a member. -/
def comesBack (ms : List (String × Value)) (name : String) : Option Value :=
  (lookup name ms).map fun v => v.reread.sorted

theorem comesBack_of_lookup {ms : List (String × Value)} {name : String} {v : Value}
    (h : lookup name ms = some v) : comesBack ms name = some v.reread.sorted := by
  rw [comesBack, h]
  rfl

theorem lookup_reread_sorted {ms : List (String × Value)} (hnodup : (ms.map Prod.fst).Nodup)
    (name : String) :
    lookup name (Value.inOrder (Value.sortedMembers (Value.rereadMembers ms)))
      = comesBack ms name := by
  have hnames : ((Value.rereadMembers ms).map Prod.fst).Nodup := names_rereadMembers ms ▸ hnodup
  rw [Value.lookup_inOrder hnames, lookup_rereadMembers, Option.map_map]
  rfl

/-- A record that is read from what came back is made of the members that came back. -/
theorem built_of_reread {r : RecordReader α} {a : α} {origin : Origin} {depth : Nat}
    {ms : List (String × Value)} (hnodup : (ms.map Prod.fst).Nodup)
    (hlevels : (Value.object ms).reread.sorted.levels ≤ depth)
    (h : r.reader origin depth (.ofValue (Value.object ms).reread.sorted) = .ok a) :
    Built r (comesBack ms) a := by
  have hfind := lookup_reread_sorted hnodup
  rw [Value.reread, Value.sorted, Value.ofMembers_eq] at h hlevels
  obtain ⟨d, rfl, hdepth⟩ := Value.levels_object_le_iff.mp hlevels
  rw [Tree.ofValue, RecordReader.reader, bind_eq_ok] at h
  obtain ⟨slots, hcollect, hbuild⟩ := h
  refine ⟨origin, d, slots, hbuild, fun m hm => ?_, fun m hm v hv => ?_⟩
  · rw [slot?_of_collect hcollect hm, hfind]
    rfl
  · exact hdepth _ (mem_of_lookup ((hfind m.name).trans hv))

end RecordReader

end ReportSql.Json

namespace ReportSql.Report

open ReportSql.Json
open ReportSql.Json.RecordReader (built_of_reread comesBack comesBack_of_lookup
  lookup_reread_sorted)
open ReportSql.Time (TimeField)

/-! ## Parts of reports -/

/-- A list whose elements hold no numbers is read as it was written. -/
theorem reads_reread_list {α : Type} {reader : Reader α} {toValue : α → Value}
    (hreread : ∀ a, (toValue a).reread = toValue a) (hread : ∀ a, Reads reader (toValue a).sorted a)
    (l : List α) : Reads (.list reader) (Value.array (l.map toValue)).reread.sorted l := by
  rw [reread_list hreread, sorted_list]
  exact reads_list_self fun a _ => hread a

theorem reread_selected (s : SelectedField) : s.toValue.reread = s.toValue := by
  obtain ⟨entity, field, label, aggregation⟩ := s
  cases label <;> cases aggregation <;> rfl

theorem reread_dataSource (d : DataSource) : d.toValue.reread = d.toValue := by
  rw [DataSource.toValue, Value.reread, Value.rereadMembers, Value.rereadMembers,
    reread_list reread_selected]
  rfl

/-- The sort keys and the keys to group by come back, and so does a time field that was read. -/
theorem Conditions.reload {q q' : Conditions} {origin : Origin} {depth : Nat}
    (hlevels : q.toValue.reread.sorted.levels ≤ depth)
    (h : reader origin depth (.ofValue q.toValue.reread.sorted) = .ok q') :
    q'.sorting = q.sorting ∧ q'.groupBy = q.groupBy ∧
      (TimeFieldRead q.timeField → q'.timeField = q.timeField) := by
  have hsorting : lookup "sorting" q.toValue.members
      = some (.array (q.sorting.map SortKey.toValue)) := by
    simp [toValue, Value.members]
  have hgroupBy : lookup "groupBy" q.toValue.members
      = some (.array (q.groupBy.map FieldRef.toValue)) := by
    simp [toValue, Value.members]
  have hfield : comesBack q.toValue.members "timeField" = q.timeField.map TimeField.toValue := by
    have hlookup : lookup "timeField" q.toValue.members = q.timeField.map TimeField.toValue := by
      simp [toValue, Value.members]
    rw [comesBack, hlookup, Option.map_map]
    rfl
  have hkeys := reads_reread_list (fun _ => rfl) reads_sortKey q.sorting
  have hrefs := reads_reread_list (fun _ => rfl) reads_fieldRef q.groupBy
  -- the members are taken off from the last one to the first
  obtain ⟨_, limit, hfive, -, rfl⟩ := (built_of_reread q.nodup_names hlevels h).seq
  obtain ⟨_, groupBy, hfour, hbuiltRefs, rfl⟩ := hfive.seq
  obtain ⟨_, timeField, hthree, hbuiltField, rfl⟩ := hfour.seq
  obtain ⟨_, timeRange, htwo, -, rfl⟩ := hthree.seq
  obtain ⟨_, sorting, hone, hbuiltKeys, rfl⟩ := htwo.seq
  obtain ⟨filters, -, rfl⟩ := hone.map
  refine ⟨hbuiltKeys.eq (.present (comesBack_of_lookup hsorting) hkeys),
    hbuiltRefs.eq (.present (comesBack_of_lookup hgroupBy) hrefs), fun hread => ?_⟩
  exact hbuiltField.eq (.optional hfield fun t ht =>
    ⟨reads_timeField (hread t ht).choose_spec, rfl⟩)

theorem Saved.reload {s s' : Saved} {origin : Origin} {depth : Nat}
    (hlevels : s.toValue.reread.sorted.levels ≤ depth)
    (h : reader origin depth (.ofValue s.toValue.reread.sorted) = .ok s') :
    s'.source = s.source ∧ s'.query.sorting = s.query.sorting
      ∧ s'.query.groupBy = s.query.groupBy
      ∧ (TimeFieldRead s.query.timeField → s'.query.timeField = s.query.timeField) := by
  have hsource : Reads DataSource.reader s.source.toValue.reread.sorted s.source := by
    rw [reread_dataSource]
    exact reads_dataSource s.source
  obtain ⟨_, query, hthree, hbuiltQuery, rfl⟩ := (built_of_reread s.nodup_names hlevels h).seq
  obtain ⟨_, source, htwo, hbuiltSource, rfl⟩ := hthree.seq
  obtain ⟨_, heading, hone, -, rfl⟩ := htwo.seq
  obtain ⟨version, -, rfl⟩ := hone.map
  obtain ⟨origin, depth, hdepth, hquery⟩ := hbuiltQuery.field (comesBack_of_lookup rfl)
  exact ⟨hbuiltSource.eq (.field (comesBack_of_lookup rfl) hsource),
    Conditions.reload hdepth hquery⟩

/-! ## Whole reports -/

namespace Config

/-- Saves the report and reads what was written. -/
def reloaded (c : Config) : Except ReportError Config :=
  ofText (Saved.ofConfig c).text

/-- **What is shown, sorted and grouped survives saving**, whatever the report holds, if it can be
read again. The same holds of the entity that it starts from, and of a time field that was read. -/
theorem reloaded_ok {c c' : Config} (h : c.reloaded = .ok c') :
    c'.selected = c.selected ∧ c'.sorting = c.sorting ∧ c'.groupBy = c.groupBy
      ∧ c'.primary? = c.primary? ∧ (TimeFieldRead c.timeField → c'.timeField = c.timeField) := by
  rw [reloaded, ofText] at h
  cases hvalue : Value.ofText? (Saved.ofConfig c).text with
  | error fault =>
    rw [hvalue] at h
    cases h
  | ok v =>
    obtain rfl := eq_of_ofText?_prettyText hvalue
    have hlevels := (Value.inOrder_of_ofText? hvalue).2
    have hversion : (Saved.ofConfig c).toValue.reread.sorted.get? "version"
        = some (.string "1.0") :=
      lookup_reread_sorted (Saved.nodup_names (Saved.ofConfig c)) "version"
    rw [hvalue] at h
    simp only [ofValue, hversion, Option.isSome_some, if_true] at h
    cases hsaved : readValue Saved.reader (Saved.ofConfig c).toValue.reread.sorted with
    | error fault =>
      rw [hsaved] at h
      cases h
    | ok s =>
      obtain ⟨hsource, hsorting, hgroupBy, hfield⟩ := Saved.reload hlevels hsaved
      simp only [hsaved, Saved.checked] at h
      split at h
      · cases h
        have hprimary : s.toConfig.primaryEntity = c.withoutBlanks.primaryEntity := by
          rw [← Saved.toConfig_ofConfig, Saved.toConfig, Saved.toConfig, hsource]
        refine ⟨congrArg DataSource.selected hsource, hsorting, hgroupBy, ?_, hfield⟩
        rw [← primary?_withoutBlanks c, primary?, primary?, hprimary]
      · cases h

end Config

end ReportSql.Report
