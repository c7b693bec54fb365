import ReportSql.Proofs.Faults

/-!
# The defects of a catalog

`defects` lists all that is wrong with a catalog: first the ids that are taken and the encodings
without a positive scale, then the names of things that do not exist, both in the order in which
the catalog declares them. `build_reports_first_defect` says that a registry is built exactly from
a catalog that obeys the rules, and that the first defect is reported otherwise.
-/

namespace ReportSql

/-! ## Rules -/

section

variable {ε α : Type} {rule failing : Prop} [Decidable rule] [Decidable failing]

/-- What is to be reported of a rule: nothing if it holds. -/
def require (rule : Prop) [Decidable rule] (e : ε) : List ε :=
  if rule then [] else [e]

/-- A test for the opposite of a rule, before a further step. -/
theorem Reports.require_ite {e : ε} {x : Except ε α} {faults : List ε}
    (hfailing : failing ↔ ¬rule) (hx : rule → Reports x faults) :
    Reports (if failing then .error e else x) (require rule e ++ faults) := by
  rw [require]
  by_cases h : rule
  · rw [if_neg (by simp [hfailing, h]), if_pos h]
    exact hx h
  · rw [if_pos (hfailing.mpr h), if_neg h]
    exact .error e faults

end

namespace Catalog

instance (f : Field) : Decidable f.PositiveScale :=
  decidable_of_iff _ (any_nonpositive_eq_false_iff f)

/-! ## The list of defects -/

section

variable {α : Type}

/-- The parts of a list need ids of their own: a part is at fault if one before it has its id.
What is wrong with a part besides comes behind. -/
def partDefects (id : α → String) (taken : α → CatalogError) (more : α → List CatalogError)
    (parts : List α) : List CatalogError :=
  parts.zipIdx.flatMap fun p =>
    require (id p.1 ∉ (parts.take p.2).map id) (taken p.1) ++ more p.1

end

/-- Fields have ids of their own and positive scales. -/
def fieldDefects (e : Entity) : List CatalogError :=
  partDefects Field.id (fun f => .duplicateField e.id f.id)
    (fun f => require f.PositiveScale (.invalidEncoding e.id f.id)) e.fields

/-- Entities have ids of their own and fields in order. -/
def idDefects (entities : List Entity) : List CatalogError :=
  partDefects Entity.id (fun e => .duplicateEntity e.id) fieldDefects entities

def categoryDefects (categories : List Category) (e : Entity) : List CatalogError :=
  e.category.toList.flatMap fun c =>
    require (∃ k ∈ categories, k.id = c) (.unknownCategory e.id c)

def listedDefects (e : Entity) : List CatalogError :=
  let listed (role : FieldRole) (field : String) : List CatalogError :=
    require (∃ f ∈ e.fields, f.id = field) (.unknownField e.id field role)
  e.defaultFields.flatMap (listed .byDefault) ++ e.searchableFields.flatMap (listed .searchable)
    ++ e.timestampField.toList.flatMap (listed .timestamp)

/-- A relationship leads to an entity of the list, from a field of the owner, to a field of that
entity. -/
def relationshipDefects (entities : List Entity) (e : Entity) (rel : Relationship) :
    List CatalogError :=
  require (∃ t ∈ entities, t.id = rel.target) (.unknownTarget e.id rel.target)
    ++ require (∃ f ∈ e.fields, f.id = rel.sourceField)
      (.unknownJoinField e.id rel.target rel.sourceField)
    ++ require (∃ t ∈ entities, t.id = rel.target ∧ ∃ f ∈ t.fields, f.id = rel.targetField)
      (.unknownJoinField e.id rel.target rel.targetField)

/-- What an entity names exists. -/
def nameDefects (entities : List Entity) (categories : List Category) (e : Entity) :
    List CatalogError :=
  categoryDefects categories e ++ listedDefects e
    ++ e.relationships.flatMap (relationshipDefects entities e)

/-- All that is wrong with a catalog, in the order of the two passes. -/
def defects (entities : List Entity) (categories : List Category) : List CatalogError :=
  idDefects entities ++ entities.flatMap (nameDefects entities categories)

/-! ## First pass -/

section

variable {α : Type} {id : α → String} {taken : α → CatalogError} {more : α → List CatalogError}
  {check : List String → List α → Except CatalogError Unit} (step : α → Except CatalogError Unit)

/-- A pass over a list that remembers the ids it has seen. `before` are the parts that it has
behind it; the induction is on those ahead. -/
theorem pass_reports (hnil : ∀ seen, check seen [] = .ok ())
    (hcons : ∀ seen x rest, check seen (x :: rest) =
      if id x ∈ seen then .error (taken x) else step x >>= fun _ => check (id x :: seen) rest)
    (hstep : ∀ x, Reports (step x) (more x)) (before rest : List α) (seen : List String)
    (hseen : ∀ s, s ∈ seen ↔ s ∈ before.map id) :
    Reports (check seen rest) ((rest.zipIdx before.length).flatMap fun p =>
      require (id p.1 ∉ ((before ++ rest).take p.2).map id) (taken p.1) ++ more p.1) := by
  induction rest generalizing before seen with
  | nil => exact hnil seen ▸ .ok ()
  | cons x rest ih =>
    rw [hcons, List.zipIdx_cons, List.flatMap_cons, List.append_assoc]
    refine .require_ite ?_ fun _ => (hstep x).check_bind ?_
    · rw [List.take_left, hseen, Decidable.not_not]
    · have hrest := ih (before ++ [x]) (id x :: seen) fun s => by
        rw [List.mem_cons, hseen, List.map_append, List.map_singleton, List.mem_append,
          List.mem_singleton, or_comm]
      rwa [List.length_append, List.append_assoc] at hrest

theorem partDefects_reports (hnil : ∀ seen, check seen [] = .ok ())
    (hcons : ∀ seen x rest, check seen (x :: rest) =
      if id x ∈ seen then .error (taken x) else step x >>= fun _ => check (id x :: seen) rest)
    (hstep : ∀ x, Reports (step x) (more x)) (parts : List α) :
    Reports (check [] parts) (partDefects id taken more parts) :=
  pass_reports step hnil hcons hstep [] parts [] fun _ => by simp

end

theorem checkFields_reports (e : Entity) :
    Reports (checkFields e.id [] e.fields) (fieldDefects e) := by
  refine partDefects_reports (fun f =>
    if (f.encoding.any fun e => decide (e.scale.toInt ≤ 0)) = true then
      .error (.invalidEncoding e.id f.id)
    else .ok ()) (fun _ => rfl) (fun seen f rest => ?_) (fun f => ?_) e.fields
  · rw [checkFields]
    simp only [List.contains_iff_mem]
    congr 1
    split <;> rfl
  · rw [← List.append_nil (require _ _)]
    refine .require_ite ?_ fun _ => .ok ()
    rw [← any_nonpositive_eq_false_iff, Bool.not_eq_false]

theorem checkIds_reports (entities : List Entity) :
    Reports (checkIds [] entities) (idDefects entities) := by
  refine partDefects_reports (fun e => checkFields e.id [] e.fields) (fun _ => rfl)
    (fun seen e rest => ?_) checkFields_reports entities
  rw [checkIds]
  simp only [List.contains_iff_mem]

/-! ## Second pass -/

theorem Entity.declares_eq_true_iff {e : Entity} {field : String} :
    e.declares field = true ↔ ∃ f ∈ e.fields, f.id = field := by
  simp [Entity.declares]

theorem listedDefects_eq (e : Entity) :
    listedDefects e = e.listed.flatMap fun l =>
      require (∃ f ∈ e.fields, f.id = l.1) (.unknownField e.id l.1 l.2) := by
  simp only [listedDefects, Entity.listed, List.flatMap_append, List.flatMap_map]

theorem checkListed_reports (e : Entity) : Reports (checkListed e e.listed) (listedDefects e) := by
  rw [listedDefects_eq]
  induction e.listed with
  | nil => exact .ok ()
  | cons l rest ih =>
    obtain ⟨field, role⟩ := l
    rw [checkListed, List.flatMap_cons, ← ite_not]
    refine .require_ite ?_ fun _ => ih
    rw [Entity.declares_eq_true_iff]

section

variable {entities : List Entity}

/-- Where ids are distinct, the target that is found is the only candidate. -/
theorem exists_target_iff (hnodup : (entities.map Entity.id).Nodup) {id field : String}
    {target : Entity} (hfind : entities.find? (·.id == id) = some target) :
    (∃ t ∈ entities, t.id = id ∧ ∃ f ∈ t.fields, f.id = field) ↔ target.declares field = true := by
  obtain ⟨hmem, hid⟩ := id_of_find? hfind
  rw [Entity.declares_eq_true_iff]
  constructor
  · rintro ⟨t, ht, rfl, hf⟩
    rw [find?_id_of_mem hnodup ht] at hfind
    exact Option.some.inj hfind ▸ hf
  · exact fun hf => ⟨target, hmem, hid, hf⟩

theorem checkRelationships_reports (hnodup : (entities.map Entity.id).Nodup) (e : Entity)
    (rels : List Relationship) :
    Reports (checkRelationships entities e rels)
      (rels.flatMap (relationshipDefects entities e)) := by
  induction rels with
  | nil => exact .ok ()
  | cons rel rest ih =>
    rw [checkRelationships, List.flatMap_cons, relationshipDefects]
    simp only [List.append_assoc]
    cases hfind : entities.find? (·.id == rel.target) with
    | none =>
      have hnot : ¬∃ t ∈ entities, t.id = rel.target := by
        simpa using find?_id_eq_none_iff.mp hfind
      rw [require, if_neg hnot]
      exact .error _ _
    | some target =>
      have htarget : ∃ t ∈ entities, t.id = rel.target := ⟨target, id_of_find? hfind⟩
      rw [require, if_pos htarget]
      refine .require_ite ?_ fun _ => .require_ite ?_ fun _ => ih
      · rw [Bool.not_eq_true', ← Bool.not_eq_true, Entity.declares_eq_true_iff]
      · rw [Bool.not_eq_true', ← Bool.not_eq_true, exists_target_iff hnodup hfind]

theorem checkNames_reports (hnodup : (entities.map Entity.id).Nodup)
    (categories : List Category) (e : Entity) :
    Reports (checkNames entities categories e) (nameDefects entities categories e) := by
  have hlisted := checkListed_reports e
  have hrels := checkRelationships_reports hnodup e e.relationships
  rw [checkNames, nameDefects, categoryDefects, List.append_assoc]
  cases e.category with
  | none => exact hlisted.check_bind hrels
  | some c =>
    simp only [Option.toList_some, List.flatMap_cons, List.flatMap_nil, List.append_nil]
    rw [← ite_not]
    refine .require_ite ?_ fun _ => hlisted.check_bind hrels
    simp only [List.any_eq_true, beq_iff_eq]

theorem checkAllNames_reports (hnodup : (entities.map Entity.id).Nodup)
    (categories : List Category) (rest : List Entity) :
    Reports (checkAllNames entities categories rest)
      (rest.flatMap (nameDefects entities categories)) := by
  induction rest with
  | nil => exact .ok ()
  | cons e rest ih =>
    rw [checkAllNames, List.flatMap_cons]
    exact (checkNames_reports hnodup categories e).check_bind ih

end

/-! ## Both passes -/

theorem check_reports (entities : List Entity) (categories : List Category) :
    Reports (check entities categories) (defects entities categories) := by
  refine (checkIds_reports entities).bind fun _ hids => ?_
  exact checkAllNames_reports (checkIds_eq_ok_iff.mp hids).2.1 categories entities

/-- The list of defects is empty exactly if the catalog obeys the rules. -/
theorem defects_eq_nil_iff {entities : List Entity} {categories : List Category} :
    defects entities categories = [] ↔ WellFormed entities categories := by
  rw [← (check_reports entities categories).exists_ok_iff, ← check_eq_ok_iff]
  exact ⟨fun ⟨(), h⟩ => h, fun h => ⟨(), h⟩⟩

namespace Registry

theorem build_eq_ok_iff {entities : List Entity} {categories : List Category} {r : Registry} :
    build entities categories = .ok r ↔ r.entities = entities ∧ r.categories = categories := by
  obtain ⟨es, cs, haccepted⟩ := r
  constructor
  · rw [build]
    split
    · rintro ⟨⟩
      exact ⟨rfl, rfl⟩
    · rintro ⟨⟩
  · rintro ⟨rfl, rfl⟩
    rw [build]
    split
    · rfl
    · rename_i h
      rw [haccepted] at h
      cases h

theorem build_reports (entities : List Entity) (categories : List Category) :
    Reports (build entities categories) (defects entities categories) := by
  have hcheck := check_reports entities categories
  rw [build]
  split
  · rename_i haccepted
    exact hcheck.exists_ok_iff.mp ⟨(), haccepted⟩
  · rename_i hrefused
    exact hcheck.error_iff.mp hrefused

/-- **A registry is built exactly from a catalog that obeys the rules, and holds that catalog; of
any other catalog the first defect is reported.** -/
theorem build_reports_first_defect (entities : List Entity) (categories : List Category) :
    ((∃ r, build entities categories = .ok r) ↔ WellFormed entities categories) ∧
      (∀ r, build entities categories = .ok r ↔
        r.entities = entities ∧ r.categories = categories) ∧
      ∀ e, build entities categories = .error e ↔
        (defects entities categories).head? = some e := by
  have hbuild := build_reports entities categories
  refine ⟨?_, fun _ => build_eq_ok_iff, fun _ => hbuild.error_iff⟩
  rw [hbuild.exists_ok_iff, defects_eq_nil_iff]

/-- A taken id is reported before a category that does not exist, even of an entity before. -/
example :
    let depot : Entity :=
      ⟨"depots", "Depot", "Depots", "", "", "", some "fleet", "public", "depots", [], [], [], [],
        none⟩
    build [depot, depot] [] = .error (.duplicateEntity "depots") := by
  rfl

end Registry

end Catalog

end ReportSql
