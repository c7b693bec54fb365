import ReportSql.Catalog.Registry

/-!
# What a registry promises

The checks of a catalog decide a declarative condition, `WellFormed`: each checking function is read
as the rule it stands for, and `check_eq_ok_iff` puts the rules together. For a registry it follows
that an id finds the one entity that has it, and that every relationship leads from a declared field
to a declared field.
-/

namespace ReportSql

/-! ## Steps that succeed -/

section

variable {ε α β : Type}

theorem bind_eq_ok {x : Except ε α} {f : α → Except ε β} {b : β} :
    (x >>= f) = .ok b ↔ ∃ a, x = .ok a ∧ f a = .ok b := by
  cases x with
  | error e => exact ⟨fun h => (nomatch h), fun ⟨_, h, _⟩ => (nomatch h)⟩
  | ok a =>
    constructor
    · intro h
      exact ⟨a, rfl, h⟩
    · rintro ⟨a', h, hb⟩
      cases h
      exact hb

/-- A check before a further step. -/
theorem check_bind_eq_ok {x : Except ε Unit} {y : Except ε β} {b : β} :
    (x >>= fun _ => y) = .ok b ↔ x = .ok () ∧ y = .ok b := by
  rw [bind_eq_ok]
  constructor
  · rintro ⟨⟨⟩, hx, hy⟩
    exact ⟨hx, hy⟩
  · rintro ⟨hx, hy⟩
    exact ⟨(), hx, hy⟩

theorem map_eq_ok {x : Except ε α} {f : α → β} {b : β} :
    x.map f = .ok b ↔ ∃ a, x = .ok a ∧ b = f a := by
  cases x with
  | error e => exact ⟨fun h => (nomatch h), fun ⟨_, h, _⟩ => (nomatch h)⟩
  | ok a => simp [Except.map, eq_comm]

/-- A step of which something is known by evaluation has succeeded. -/
theorem exists_ok_of_map {x : Except ε α} {f : α → β} {b : β}
    (h : x.toOption.map f = some b) : ∃ a, x = .ok a ∧ f a = b := by
  cases x with
  | error e => cases h
  | ok a => exact ⟨a, rfl, Option.some.inj h⟩

@[simp] theorem pure_eq_ok {a b : α} : (pure a : Except ε α) = .ok b ↔ a = b :=
  ⟨fun h => Except.ok.inj h, fun h => congrArg Except.ok h⟩

end

namespace Catalog

/-! ## The rules -/

/-- A declared encoding has a positive scale. -/
def Field.PositiveScale (f : Field) : Prop :=
  ∀ enc, f.encoding = some enc → 0 < enc.scale.toInt

/-- The relationship leads from a field of the entity to a field of an entity of the list. -/
def Relationship.Declared (entities : List Entity) (e : Entity) (rel : Relationship) : Prop :=
  ∃ t ∈ entities, t.id = rel.target ∧ e.declares rel.sourceField = true ∧
    t.declares rel.targetField = true

/-- The rules that a catalog has to obey. -/
structure WellFormed (entities : List Entity) (categories : List Category) : Prop where
  ids : (entities.map Entity.id).Nodup
  fieldIds : ∀ e ∈ entities, (e.fields.map Field.id).Nodup
  scales : ∀ e ∈ entities, ∀ f ∈ e.fields, f.PositiveScale
  category : ∀ e ∈ entities, ∀ c, e.category = some c → ∃ k ∈ categories, k.id = c
  listed : ∀ e ∈ entities, ∀ l ∈ e.listed, e.declares l.1 = true
  relationships : ∀ e ∈ entities, ∀ rel ∈ e.relationships, rel.Declared entities e

/-! ## The checks -/

theorem any_nonpositive_eq_false_iff (f : Field) :
    (f.encoding.any fun e => decide (e.scale.toInt ≤ 0)) = false ↔ f.PositiveScale := by
  cases h : f.encoding with
  | none => simp [Field.PositiveScale, h]
  | some enc => simp [Field.PositiveScale, h]

theorem checkFields_eq_ok_iff {entity : String} {seen : List String} {fields : List Field} :
    checkFields entity seen fields = .ok () ↔
      (∀ f ∈ fields, f.id ∉ seen) ∧ (fields.map Field.id).Nodup ∧
        ∀ f ∈ fields, f.PositiveScale := by
  induction fields generalizing seen with
  | nil => simp [checkFields]
  | cons f rest ih =>
    rw [checkFields]
    by_cases hseen : f.id ∈ seen
    · simp [hseen]
    · simp only [List.contains_iff_mem, hseen, if_false]
      cases hscale : f.encoding.any fun e => decide (e.scale.toInt ≤ 0) with
      | true =>
        have hnot : ¬f.PositiveScale := by
          rw [← any_nonpositive_eq_false_iff, hscale]
          simp
        simp [hnot]
      | false =>
        have hpos : f.PositiveScale := (any_nonpositive_eq_false_iff f).mp hscale
        simp only [Bool.false_eq_true, if_false, ih, List.mem_cons, List.map_cons,
          List.nodup_cons, List.mem_map, forall_eq_or_imp]
        constructor
        · rintro ⟨hfresh, hnodup, hall⟩
          refine ⟨⟨hseen, fun g hg h => hfresh g hg (.inr h)⟩, ⟨?_, hnodup⟩, hpos, hall⟩
          rintro ⟨g, hg, heq⟩
          exact hfresh g hg (.inl heq)
        · rintro ⟨⟨-, hfresh⟩, ⟨hne, hnodup⟩, -, hall⟩
          refine ⟨?_, hnodup, hall⟩
          rintro g hg (heq | hmem)
          · exact hne ⟨g, hg, heq⟩
          · exact hfresh g hg hmem

theorem checkIds_eq_ok_iff {seen : List String} {entities : List Entity} :
    checkIds seen entities = .ok () ↔
      (∀ e ∈ entities, e.id ∉ seen) ∧ (entities.map Entity.id).Nodup ∧
        ∀ e ∈ entities, (e.fields.map Field.id).Nodup ∧ ∀ f ∈ e.fields, f.PositiveScale := by
  induction entities generalizing seen with
  | nil => simp [checkIds]
  | cons e rest ih =>
    rw [checkIds]
    by_cases hseen : e.id ∈ seen
    · simp [hseen]
    · simp only [List.contains_iff_mem, hseen, if_false, check_bind_eq_ok, checkFields_eq_ok_iff,
        ih, List.mem_cons, List.map_cons, List.nodup_cons, List.mem_map, forall_eq_or_imp]
      constructor
      · rintro ⟨⟨-, hfields⟩, hfresh, hnodup, hall⟩
        refine ⟨⟨id, fun g hg h => hfresh g hg (.inr h)⟩, ⟨?_, hnodup⟩, hfields, hall⟩
        rintro ⟨g, hg, heq⟩
        exact hfresh g hg (.inl heq)
      · rintro ⟨⟨-, hfresh⟩, ⟨hne, hnodup⟩, hfields, hall⟩
        refine ⟨⟨by simp, hfields⟩, ?_, hnodup, hall⟩
        rintro g hg (heq | hmem)
        · exact hne ⟨g, hg, heq⟩
        · exact hfresh g hg hmem

theorem checkListed_eq_ok_iff {e : Entity} {listed : List (String × FieldRole)} :
    checkListed e listed = .ok () ↔ ∀ l ∈ listed, e.declares l.1 = true := by
  induction listed with
  | nil => simp [checkListed]
  | cons l rest ih =>
    obtain ⟨field, role⟩ := l
    rw [checkListed]
    split
    · rename_i h
      simp [ih, h]
    · rename_i h
      simp [h]

/-- A lookup by id misses exactly when no entity has the id. -/
theorem find?_id_eq_none_iff {entities : List Entity} {id : String} :
    entities.find? (·.id == id) = none ↔ ∀ e ∈ entities, e.id ≠ id := by
  simp [List.find?_eq_none]

theorem id_of_find? {entities : List Entity} {id : String} {e : Entity}
    (h : entities.find? (·.id == id) = some e) : e ∈ entities ∧ e.id = id := by
  have hid := List.find?_some h
  exact ⟨List.mem_of_find?_eq_some h, by simpa using hid⟩

/-- Where ids are distinct, an entity is what its id finds. -/
theorem find?_id_of_mem {entities : List Entity} (hnodup : (entities.map Entity.id).Nodup)
    {e : Entity} (he : e ∈ entities) : entities.find? (·.id == e.id) = some e := by
  induction entities with
  | nil => simp at he
  | cons x rest ih =>
    simp only [List.map_cons, List.nodup_cons, List.mem_map] at hnodup
    obtain ⟨hfresh, hnodup⟩ := hnodup
    rcases List.mem_cons.mp he with rfl | hrest
    · simp
    · have hne : x.id ≠ e.id := fun heq => hfresh ⟨e, hrest, heq.symm⟩
      simpa [hne] using ih hnodup hrest

theorem checkRelationships_eq_ok_iff {entities : List Entity}
    (hnodup : (entities.map Entity.id).Nodup) {e : Entity} {rels : List Relationship} :
    checkRelationships entities e rels = .ok () ↔ ∀ rel ∈ rels, rel.Declared entities e := by
  induction rels with
  | nil => simp [checkRelationships]
  | cons rel rest ih =>
    rw [checkRelationships]
    cases hfind : entities.find? (·.id == rel.target) with
    | none =>
      have hnot : ¬rel.Declared entities e := by
        rintro ⟨t, ht, hid, -⟩
        exact find?_id_eq_none_iff.mp hfind t ht hid
      simp [hnot]
    | some target =>
      obtain ⟨hmem, hid⟩ := id_of_find? hfind
      -- the id names one entity, so the target that is found is the only candidate
      have hiff : rel.Declared entities e ↔
          e.declares rel.sourceField = true ∧ target.declares rel.targetField = true := by
        constructor
        · rintro ⟨t, ht, htid, hs, htarget⟩
          have hsame : t = target := by
            have := find?_id_of_mem hnodup ht
            rw [htid, hfind] at this
            exact (Option.some.inj this).symm
          exact ⟨hs, hsame ▸ htarget⟩
        · rintro ⟨hs, ht⟩
          exact ⟨target, hmem, hid, hs, ht⟩
      cases hs : e.declares rel.sourceField with
      | false => simp [hiff, hs]
      | true =>
        cases ht : target.declares rel.targetField with
        | false => simp [hiff, ht]
        | true => simp [hiff, hs, ht, ih]

theorem checkNames_eq_ok_iff {entities : List Entity} {categories : List Category}
    (hnodup : (entities.map Entity.id).Nodup) {e : Entity} :
    checkNames entities categories e = .ok () ↔
      (∀ c, e.category = some c → ∃ k ∈ categories, k.id = c) ∧
        (∀ l ∈ e.listed, e.declares l.1 = true) ∧
        ∀ rel ∈ e.relationships, rel.Declared entities e := by
  rw [checkNames]
  cases hcat : e.category with
  | none =>
    simp [check_bind_eq_ok, checkListed_eq_ok_iff, checkRelationships_eq_ok_iff hnodup]
  | some c =>
    by_cases hknown : ∃ k ∈ categories, k.id = c
    · have hany : categories.any (·.id == c) = true := by simpa using hknown
      simp [hany, hknown, check_bind_eq_ok, checkListed_eq_ok_iff,
        checkRelationships_eq_ok_iff hnodup]
    · have hany : categories.any (·.id == c) = false := by simpa using hknown
      simp [hany, hknown, check_bind_eq_ok]

theorem checkAllNames_eq_ok_iff {entities : List Entity} {categories : List Category}
    {rest : List Entity} :
    checkAllNames entities categories rest = .ok () ↔
      ∀ e ∈ rest, checkNames entities categories e = .ok () := by
  induction rest with
  | nil => simp [checkAllNames]
  | cons e rest ih => simp [checkAllNames, check_bind_eq_ok, ih]

/-- **The checks decide the rules.** -/
theorem check_eq_ok_iff {entities : List Entity} {categories : List Category} :
    check entities categories = .ok () ↔ WellFormed entities categories := by
  rw [check, check_bind_eq_ok]
  constructor
  · rintro ⟨hids, hnames⟩
    obtain ⟨-, hnodup, hfields⟩ := checkIds_eq_ok_iff.mp hids
    rw [checkAllNames_eq_ok_iff] at hnames
    have hrules := fun e he => (checkNames_eq_ok_iff hnodup).mp (hnames e he)
    exact ⟨hnodup, fun e he => (hfields e he).1, fun e he => (hfields e he).2,
      fun e he => (hrules e he).1, fun e he => (hrules e he).2.1, fun e he => (hrules e he).2.2⟩
  · intro h
    refine ⟨checkIds_eq_ok_iff.mpr ⟨by simp, h.ids, fun e he => ?_⟩, ?_⟩
    · exact ⟨h.fieldIds e he, h.scales e he⟩
    · refine checkAllNames_eq_ok_iff.mpr fun e he => (checkNames_eq_ok_iff h.ids).mpr ?_
      exact ⟨h.category e he, h.listed e he, h.relationships e he⟩

/-! ## Registries -/

theorem Entity.field?_eq_some {e : Entity} {id : String} {f : Field} (h : e.field? id = some f) :
    f ∈ e.fields ∧ f.id = id := by
  have hid := List.find?_some h
  exact ⟨List.mem_of_find?_eq_some h, by simpa using hid⟩

theorem Entity.declares_eq_isSome (e : Entity) (id : String) :
    e.declares id = (e.field? id).isSome := by
  rw [Bool.eq_iff_iff, Entity.declares, Entity.field?, List.find?_isSome, List.any_eq_true]

namespace Registry

theorem wellFormed (r : Registry) : WellFormed r.entities r.categories :=
  check_eq_ok_iff.mp r.accepted

/-- An id finds the one entity that has it. -/
theorem entity?_eq_some_iff (r : Registry) {id : String} {e : Entity} :
    r.entity? id = some e ↔ e ∈ r.entities ∧ e.id = id := by
  constructor
  · exact id_of_find?
  · rintro ⟨he, rfl⟩
    exact find?_id_of_mem r.wellFormed.ids he

end Registry

end Catalog

end ReportSql
