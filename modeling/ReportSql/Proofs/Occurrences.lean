import ReportSql.Report.Edit

/-!
# First occurrences

Of the elements that name one field the first one counts. `firsts` picks the elements that no
earlier element agrees with, together with their positions; dropping repetitions keeps exactly these
elements, in their order.
-/

namespace ReportSql.Report.Config

variable {α β : Type} {key : α → FieldRef} {l : List α} {a : α} {i : Nat}

/-- The elements whose key no earlier element has, with their positions. -/
def firsts (key : α → FieldRef) (l : List α) : List (α × Nat) :=
  l.zipIdx.filter fun p => decide (∀ b ∈ l.take p.2, key b ≠ key p.1)

/-- The element is in the list, and no earlier element has its key. -/
def IsFirst (key : α → FieldRef) (l : List α) (a : α) : Prop :=
  ∃ before after, l = before ++ a :: after ∧ ∀ b ∈ before, key b ≠ key a

theorem mem_firsts : (a, i) ∈ firsts key l ↔ l[i]? = some a ∧ ∀ b ∈ l.take i, key b ≠ key a := by
  rw [firsts, List.mem_filter, List.mk_mem_zipIdx_iff_getElem?, decide_eq_true_eq]

theorem isFirst_iff : IsFirst key l a ↔ ∃ i, (a, i) ∈ firsts key l := by
  simp only [mem_firsts]
  constructor
  · rintro ⟨before, after, rfl, hbefore⟩
    refine ⟨before.length, by simp, ?_⟩
    rwa [List.take_left]
  · rintro ⟨i, hi, hbefore⟩
    obtain ⟨hlt, rfl⟩ := List.getElem?_eq_some_iff.mp hi
    refine ⟨l.take i, l.drop (i + 1), ?_, hbefore⟩
    rw [List.getElem_cons_drop, List.take_append_drop]

theorem IsFirst.mem (h : IsFirst key l a) : a ∈ l := by
  obtain ⟨before, after, rfl, -⟩ := h
  simp

/-- Each key has a first element. -/
theorem exists_isFirst (key : α → FieldRef) (ha : a ∈ l) :
    ∃ b, IsFirst key l b ∧ key b = key a := by
  have hsome : (l.find? fun b => key b == key a).isSome = true :=
    List.find?_isSome.mpr ⟨a, ha, beq_self_eq_true (key a)⟩
  obtain ⟨b, hb⟩ := Option.isSome_iff_exists.mp hsome
  obtain ⟨hkey, before, after, rfl, hbefore⟩ := List.find?_eq_some_iff_append.mp hb
  refine ⟨b, ⟨before, after, rfl, fun x hx heq => ?_⟩, eq_of_beq hkey⟩
  have hx' := hbefore x hx
  rw [heq, hkey] at hx'
  cases hx'

theorem firstBy_map {key : β → FieldRef} (f : α → β) (seen : List FieldRef) (l : List α) :
    (firstBy (fun a => key (f a)) seen l).map f = firstBy key seen (l.map f) := by
  induction l generalizing seen with
  | nil => rfl
  | cons a rest ih =>
    rw [List.map_cons, firstBy, firstBy]
    split
    · exact ih seen
    · rw [List.map_cons, ih]

/-- Dropping repetitions keeps the first elements, at their positions. -/
theorem firstBy_zipIdx (key : α → FieldRef) (l : List α) :
    firstBy (fun p => key p.1) [] l.zipIdx = firsts key l := by
  have hgeneral : ∀ (rest before : List α) (seen : List FieldRef),
      (∀ x, x ∈ seen ↔ x ∈ before.map key) →
      firstBy (fun p => key p.1) seen (rest.zipIdx before.length) =
        (rest.zipIdx before.length).filter fun p : α × Nat =>
          decide (∀ b ∈ (before ++ rest).take p.2, key b ≠ key p.1) := by
    -- on what is left; what has been seen are the keys of the elements before
    intro rest
    induction rest with
    | nil =>
      intro before seen _
      rfl
    | cons a rest ih =>
      intro before seen hseen
      have hsplit : before ++ a :: rest = (before ++ [a]) ++ rest := by simp
      have hlength : before.length + 1 = (before ++ [a]).length := by simp
      rw [List.zipIdx_cons, firstBy, List.filter_cons, List.take_left, hsplit, hlength]
      by_cases hmem : key a ∈ seen
      · have hrepeated : ¬∀ b ∈ before, key b ≠ key a := by
          intro hall
          obtain ⟨b, hb, heq⟩ := List.mem_map.mp ((hseen _).mp hmem)
          exact hall b hb heq
        rw [if_pos (List.contains_iff_mem.mpr hmem), if_neg (by simpa using hrepeated)]
        refine ih (before ++ [a]) seen fun x => ?_
        rw [List.map_append, List.mem_append, hseen]
        grind
      · have hfirst : ∀ b ∈ before, key b ≠ key a := by
          intro b hb heq
          exact hmem ((hseen _).mpr (heq ▸ List.mem_map_of_mem hb))
        rw [if_neg (by simpa using hmem), if_pos (by simpa using hfirst)]
        congr 1
        refine ih (before ++ [a]) (key a :: seen) fun x => ?_
        rw [List.mem_cons, hseen, List.map_append, List.mem_append, List.map_singleton,
          List.mem_singleton, or_comm]
  exact hgeneral l [] [] (by simp)

/-- The first elements in their order. -/
def distinct (key : α → FieldRef) (l : List α) : List α :=
  (firsts key l).map Prod.fst

theorem mem_distinct : a ∈ distinct key l ↔ IsFirst key l a := by
  rw [isFirst_iff, distinct, List.mem_map]
  constructor
  · rintro ⟨⟨b, i⟩, hb, rfl⟩
    exact ⟨i, hb⟩
  · rintro ⟨i, hi⟩
    exact ⟨(a, i), hi, rfl⟩

/-- Each element has a first one with its key. -/
theorem exists_mem_distinct (key : α → FieldRef) (ha : a ∈ l) :
    ∃ b ∈ distinct key l, key b = key a := by
  obtain ⟨b, hb, heq⟩ := exists_isFirst key ha
  exact ⟨b, mem_distinct.mpr hb, heq⟩

theorem firstBy_eq (key : α → FieldRef) (l : List α) : firstBy key [] l = distinct key l := by
  rw [distinct, ← firstBy_zipIdx, firstBy_map, List.zipIdx_map_fst]

/-! ## Lists without repetitions -/

/-- What stays has keys that were not seen, each once. -/
theorem nodup_firstBy (key : α → FieldRef) (seen : List FieldRef) (l : List α) :
    (∀ a ∈ firstBy key seen l, key a ∉ seen) ∧ ((firstBy key seen l).map key).Nodup := by
  induction l generalizing seen with
  | nil => simp [firstBy]
  | cons a rest ih =>
    rw [firstBy]
    split
    · exact ih seen
    · rename_i hfresh
      obtain ⟨hseen, hnodup⟩ := ih (key a :: seen)
      refine ⟨List.forall_mem_cons.mpr ⟨by simpa using hfresh, fun b hb hmem => ?_⟩, ?_⟩
      · exact hseen b hb (List.mem_cons_of_mem _ hmem)
      · rw [List.map_cons, List.nodup_cons]
        refine ⟨fun hmem => ?_, hnodup⟩
        obtain ⟨b, hb, heq⟩ := List.mem_map.mp hmem
        exact hseen b hb (heq ▸ List.mem_cons_self ..)

/-- Where there are no repetitions, none are dropped. -/
theorem firstBy_of_nodup {seen : List FieldRef} (hseen : ∀ a ∈ l, key a ∉ seen)
    (h : (l.map key).Nodup) : firstBy key seen l = l := by
  induction l generalizing seen with
  | nil => rfl
  | cons a rest ih =>
    obtain ⟨ha, hrest⟩ := List.forall_mem_cons.mp hseen
    rw [List.map_cons, List.nodup_cons] at h
    rw [firstBy, if_neg (by simpa using ha), ih (fun b hb hmem => ?_) h.2]
    rcases List.mem_cons.mp hmem with heq | hmem
    · exact h.1 (heq ▸ List.mem_map_of_mem hb)
    · exact hrest b hb hmem

theorem firstBy_eq_self_iff : firstBy key [] l = l ↔ (l.map key).Nodup := by
  constructor
  · intro h
    rw [← h]
    exact (nodup_firstBy key [] l).2
  · exact firstBy_of_nodup (by simp)

/-- What depends on the key alone holds of some element exactly if it holds of a first one. -/
theorem any_firstBy (key : α → FieldRef) (p : FieldRef → Bool) (l : List α) :
    ((firstBy key [] l).any fun a => p (key a)) = l.any fun a => p (key a) := by
  rw [Bool.eq_iff_iff, List.any_eq_true, List.any_eq_true, firstBy_eq]
  constructor
  · rintro ⟨a, ha, hp⟩
    exact ⟨a, (mem_distinct.mp ha).mem, hp⟩
  · rintro ⟨a, ha, hp⟩
    obtain ⟨b, hb, heq⟩ := exists_mem_distinct key ha
    exact ⟨b, hb, by rwa [heq]⟩

end ReportSql.Report.Config
