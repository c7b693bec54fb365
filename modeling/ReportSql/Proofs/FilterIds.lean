import Mathlib.Data.List.Perm.Subperm
import Mathlib.Order.Bounds.Defs
import ReportSql.Proofs.Numerals
import ReportSql.Report.Edit

/-!
# Ids of filters

A filter without an id is given a numbered one. The numbers are tried one after another, from the
one behind the number of filters on, until an id is found that no filter has. Nothing else ends the
search; it ends because fewer ids can be taken than there are filters and one. `freshId` tries as
many numbers as that and finds what the search finds, so that a filter added in this way is the only
one of its id, and dropping that id undoes the addition.
-/

namespace ReportSql.Report.Config

variable {c : Config}

/-! ## Numbered ids -/

/-- Different numbers make different ids. -/
theorem filterId_injective : Function.Injective filterId := by
  intro m n h
  have hdigits : Decimal.natText m = Decimal.natText n := by
    have hchars := congrArg String.toList h
    simpa only [filterId, String.toList_append, String.toList_ofList,
      List.append_cancel_left_eq] using hchars
  rw [← Decimal.digitsValue_natText m, hdigits, Decimal.digitsValue_natText]

theorem filterId_eq (n : Nat) : filterId n = "filter-" ++ toString n :=
  rfl

theorem hasFilter_eq_true_iff {id : String} :
    c.hasFilter id = true ↔ id ∈ c.filters.map Filter.id := by
  simp [hasFilter, List.mem_map]

theorem hasFilter_eq_false_iff {id : String} :
    c.hasFilter id = false ↔ ∀ f ∈ c.filters, f.id ≠ id := by
  simp [hasFilter]

/-- Of as many numbers as there are filters and one more, one is free. -/
theorem exists_free (c : Config) (start : Nat) :
    ∃ n, start ≤ n ∧ n ≤ start + c.filters.length ∧ c.hasFilter (filterId n) = false := by
  by_contra hnone
  -- otherwise so many different ids would be among the ids of the filters
  have htaken : (List.range' start (c.filters.length + 1)).map filterId ⊆
      c.filters.map Filter.id := by
    intro id hid
    obtain ⟨n, hn, rfl⟩ := List.mem_map.mp hid
    rw [List.mem_range'_1] at hn
    rw [← hasFilter_eq_true_iff]
    by_contra hfree
    exact hnone ⟨n, by omega, by omega, Bool.eq_false_of_not_eq_true hfree⟩
  have hdifferent : ((List.range' start (c.filters.length + 1)).map filterId).Nodup :=
    (List.nodup_range' ..).map filterId_injective
  have hlength := (List.subperm_of_subset hdifferent htaken).length_le
  rw [List.length_map, List.length_map, List.length_range'] at hlength
  omega

/-! ## The search for a free number -/

/-- The search from the first number on ends at the second one: it goes on while an id is taken. -/
inductive EndsAt (c : Config) : Nat → Nat → Prop where
  | free {n : Nat} : c.hasFilter (filterId n) = false → EndsAt c n n
  | taken {n m : Nat} : c.hasFilter (filterId n) = true → EndsAt c (n + 1) m → EndsAt c n m

namespace EndsAt

variable {n m : Nat}

theorem le (h : EndsAt c n m) : n ≤ m := by
  induction h with
  | free _ => exact Nat.le_refl _
  | taken _ _ ih => exact Nat.le_of_succ_le ih

/-- The search ends at the first free number. -/
theorem isLeast (h : EndsAt c n m) :
    IsLeast {k | n ≤ k ∧ c.hasFilter (filterId k) = false} m := by
  induction h with
  | free hfree => exact ⟨⟨Nat.le_refl _, hfree⟩, fun k hk => hk.1⟩
  | @taken n m htaken _ ih =>
    refine ⟨⟨Nat.le_of_succ_le ih.1.1, ih.1.2⟩, ?_⟩
    intro k ⟨hle, hfree⟩
    have hne : n ≠ k := by
      intro heq
      rw [heq, hfree] at htaken
      cases htaken
    exact ih.2 ⟨by omega, hfree⟩

/-- The search ends if there is a free number at all, and goes no further than that. -/
theorem of_free {k : Nat} (hle : n ≤ k) (hfree : c.hasFilter (filterId k) = false) :
    ∃ m, m ≤ k ∧ EndsAt c n m := by
  obtain ⟨d, rfl⟩ := Nat.exists_eq_add_of_le hle
  induction d generalizing n with
  | zero => exact ⟨n, Nat.le_refl n, .free hfree⟩
  | succ d ih =>
    cases hn : c.hasFilter (filterId n) with
    | false => exact ⟨n, hle, .free hn⟩
    | true =>
      have hsum : n + (d + 1) = n + 1 + d := by omega
      rw [hsum] at hfree
      obtain ⟨m, hm, hends⟩ := ih (by omega) hfree
      exact ⟨m, by omega, .taken hn hends⟩

/-- Enough tries find the number at which the search ends. -/
theorem freshId_eq (h : EndsAt c n m) {tries : Nat} (htries : m ≤ n + tries) :
    c.freshId tries n = filterId m := by
  induction h generalizing tries with
  | free hfree =>
    cases tries with
    | zero => rfl
    | succ tries => rw [freshId, if_neg (by simp [hfree])]
  | taken htaken hends ih =>
    have hlt := hends.le
    cases tries with
    | zero => omega
    | succ tries => rw [freshId, if_pos htaken, ih (by omega)]

end EndsAt

/-- From wherever it starts, the search ends after at most as many taken ids as filters. -/
theorem exists_endsAt (c : Config) (start : Nat) :
    ∃ n, n ≤ start + c.filters.length ∧ EndsAt c start n := by
  obtain ⟨k, hle, hbound, hfree⟩ := exists_free c start
  obtain ⟨n, hn, hends⟩ := EndsAt.of_free hle hfree
  exact ⟨n, Nat.le_trans hn hbound, hends⟩

/-! ## Adding and dropping filters -/

theorem addFilter_of_empty {f : Filter} (hf : f.id = "") {n : Nat}
    (h : EndsAt c (c.filters.length + 1) n) (hn : n ≤ c.filters.length + 1 + c.filters.length) :
    c.addFilter f =
      ({ c with filters := c.filters ++ [{ f with id := filterId n }] }, filterId n) := by
  have hempty : f.id.isEmpty = true := String.isEmpty_iff.mpr hf
  simp only [addFilter, hempty, if_true, h.freshId_eq hn]

/-- Dropping the id of the last filter, which no other filter has, drops that filter alone. -/
theorem removeFilter_append {f : Filter} (hfresh : ∀ g ∈ c.filters, g.id ≠ f.id) :
    removeFilter { c with filters := c.filters ++ [f] } f.id = (c, true) := by
  have hthere : hasFilter { c with filters := c.filters ++ [f] } f.id = true :=
    hasFilter_eq_true_iff.mpr (by simp)
  have hothers : c.filters.filter (·.id != f.id) = c.filters := by
    rw [List.filter_eq_self]
    intro g hg
    exact bne_iff_ne.mpr (hfresh g hg)
  have hlast : (c.filters ++ [f]).filter (·.id != f.id) = c.filters := by
    rw [List.filter_append, hothers, List.filter_cons_of_neg (by simp), List.filter_nil,
      List.append_nil]
  rw [removeFilter, if_pos hthere, hlast]

/-- **A filter without an id gets a fresh one, and dropping it undoes the addition.** Whatever ids
the filters of a report have, the search for an id that no filter has ends; it starts with the
number behind the number of filters and ends at the first one from there on whose id is free. The
filter is appended with this id and nothing else is changed; dropping the filter of this id succeeds
and gives the report as it was before. -/
theorem addFilter_fresh_and_undone (c : Config) {f : Filter} (hf : f.id = "") :
    ∃ n, EndsAt c (c.filters.length + 1) n ∧
      IsLeast {k | c.filters.length + 1 ≤ k ∧ ∀ g ∈ c.filters, g.id ≠ "filter-" ++ toString k} n ∧
      c.addFilter f =
        ({ c with filters := c.filters ++ [{ f with id := "filter-" ++ toString n }] },
          "filter-" ++ toString n) ∧
      (c.addFilter f).1.removeFilter (c.addFilter f).2 = (c, true) := by
  obtain ⟨n, hn, hends⟩ := exists_endsAt c (c.filters.length + 1)
  have hleast := hends.isLeast
  have hadded := addFilter_of_empty hf hends hn
  simp only [hasFilter_eq_false_iff, filterId_eq] at hleast hadded
  refine ⟨n, hends, hleast, hadded, ?_⟩
  rw [hadded]
  have hfresh : ∀ g ∈ c.filters, g.id ≠ "filter-" ++ toString n := hleast.1.2
  exact removeFilter_append hfresh

/-- Three filters, two of which have the id that is tried first for a fourth one. -/
def numberedFilters : Config :=
  let named (id : String) : Filter := ⟨id, "objects", "object_id", .isNotNull, none, none⟩
  { Config.new "objects" with filters := [named "mine", named "filter-4", named "filter-4"] }

theorem numberedFilters_addFilter :
    let f : Filter := ⟨"", "objects", "name", .isNull, none, none⟩
    (numberedFilters.addFilter f).2 = "filter-5" ∧
      (numberedFilters.addFilter f).1.filters =
        numberedFilters.filters ++ [{ f with id := "filter-5" }] ∧
      (numberedFilters.addFilter f).1.removeFilter "filter-5" = (numberedFilters, true) := by
  intro f
  obtain ⟨n, -, -, hadded, hremoved⟩ := addFilter_fresh_and_undone numberedFilters (f := f) rfl
  have hid : (numberedFilters.addFilter f).2 = "filter-5" := by decide +kernel
  have hn : "filter-" ++ toString n = "filter-5" := (congrArg Prod.snd hadded).symm.trans hid
  rw [hn] at hadded
  refine ⟨hid, ?_, ?_⟩
  · rw [hadded]
  · rw [hid] at hremoved
    exact hremoved

end ReportSql.Report.Config
