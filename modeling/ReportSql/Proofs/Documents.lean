import Mathlib.Data.List.Perm.Basic
import Mathlib.Data.String.Basic
import ReportSql.Proofs.Catalog

/-!
# Values as documents

A value that has been read from a text is nested no deeper than a reader goes, and reading it as a
value once more gives it back. Its objects hold their members in the order of their names.
-/

namespace ReportSql.Json

/-! ## Members of objects -/

section Members

variable {name : String} {v : Value} {ms ns : List (String × Value)}

/-- The member of the given name, the first one of several. -/
def lookup (name : String) (ms : List (String × Value)) : Option Value :=
  (ms.find? (·.1 == name)).map (·.2)

@[simp] theorem lookup_nil (name : String) : lookup name [] = none :=
  rfl

@[simp] theorem lookup_cons (name other : String) (v : Value) (ms : List (String × Value)) :
    lookup name ((other, v) :: ms) = if other = name then some v else lookup name ms := by
  by_cases h : other = name <;> simp [lookup, h]

@[simp] theorem lookup_append (name : String) (ms ns : List (String × Value)) :
    lookup name (ms ++ ns) = (lookup name ms).or (lookup name ns) := by
  simp [lookup, List.find?_append, Option.map_or]

theorem lookup_map (f : Value → Value) (name : String) (ms : List (String × Value)) :
    lookup name (ms.map fun m => (m.1, f m.2)) = (lookup name ms).map f := by
  induction ms with
  | nil => rfl
  | cons m ms ih =>
    rw [List.map_cons, lookup_cons, lookup_cons, ih]
    by_cases h : m.1 = name
    · rw [if_pos h, if_pos h, Option.map_some]
    · rw [if_neg h, if_neg h]

theorem lookup_filter (tag name : String) (ms : List (String × Value)) :
    lookup name (ms.filter fun m => m.1 != tag) = if name = tag then none else lookup name ms := by
  induction ms with
  | nil => simp
  | cons m ms ih =>
    by_cases hm : m.1 = tag
    · rw [List.filter_cons_of_neg (by simpa using hm), ih, lookup_cons]
      by_cases hname : name = tag
      · rw [if_pos hname, if_pos hname]
      · have hne : m.1 ≠ name := fun h => hname (h.symm.trans hm)
        rw [if_neg hname, if_neg hname, if_neg hne]
    · rw [List.filter_cons_of_pos (by simpa using hm), lookup_cons, lookup_cons, ih]
      by_cases hname : name = tag
      · have hne : m.1 ≠ name := fun h => hm (h.trans hname)
        rw [if_pos hname, if_pos hname, if_neg hne]
      · rw [if_neg hname, if_neg hname]

theorem mem_of_lookup (h : lookup name ms = some v) : (name, v) ∈ ms := by
  rw [lookup, Option.map_eq_some_iff] at h
  obtain ⟨⟨other, w⟩, hfind, rfl⟩ := h
  have hname : other = name := by simpa using List.find?_some hfind
  exact hname ▸ List.mem_of_find?_eq_some hfind

theorem lookup_eq_some_iff (hnodup : (ms.map Prod.fst).Nodup) :
    lookup name ms = some v ↔ (name, v) ∈ ms := by
  refine ⟨mem_of_lookup, ?_⟩
  intro h
  induction ms with
  | nil => cases h
  | cons m ms ih =>
    obtain ⟨hfresh, hrest⟩ := List.nodup_cons.mp hnodup
    rw [lookup_cons]
    rcases List.mem_cons.mp h with rfl | h
    · exact if_pos rfl
    · have hne : m.1 ≠ name := by
        rintro rfl
        exact hfresh (List.mem_map.mpr ⟨_, h, rfl⟩)
      rw [if_neg hne, ih hrest h]

/-- Which member a name has does not depend on the order of the members. -/
theorem lookup_perm (hperm : ms.Perm ns) (hnodup : (ms.map Prod.fst).Nodup) (name : String) :
    lookup name ms = lookup name ns := by
  have hnodup' : (ns.map Prod.fst).Nodup := (hperm.map Prod.fst).nodup_iff.mp hnodup
  ext v
  rw [lookup_eq_some_iff hnodup, lookup_eq_some_iff hnodup', hperm.mem_iff]

end Members

namespace Value

/-- The members of an object. -/
def members : Value → List (String × Value)
  | object ms => ms
  | _ => []

/-! ## Nesting -/

mutual

/-- The levels that lists and objects are nested in a value. -/
def levels : Value → Nat
  | array items => levelsOfItems items + 1
  | object members => levelsOfMembers members + 1
  | null | bool _ | number _ | string _ => 0

def levelsOfItems : List Value → Nat
  | [] => 0
  | v :: rest => max (levels v) (levelsOfItems rest)

def levelsOfMembers : List (String × Value) → Nat
  | [] => 0
  | (_, v) :: rest => max (levels v) (levelsOfMembers rest)

end

theorem levelsOfItems_le_iff {items : List Value} {d : Nat} :
    levelsOfItems items ≤ d ↔ ∀ v ∈ items, v.levels ≤ d := by
  induction items with
  | nil => simp [levelsOfItems]
  | cons v rest ih => rw [levelsOfItems, Nat.max_le, ih, List.forall_mem_cons]

theorem levelsOfMembers_le_iff {ms : List (String × Value)} {d : Nat} :
    levelsOfMembers ms ≤ d ↔ ∀ m ∈ ms, m.2.levels ≤ d := by
  induction ms with
  | nil => simp [levelsOfMembers]
  | cons m rest ih => rw [levelsOfMembers, Nat.max_le, ih, List.forall_mem_cons]

theorem levels_array_le_iff {items : List Value} {d : Nat} :
    (array items).levels ≤ d ↔ ∃ d', d = d' + 1 ∧ ∀ v ∈ items, v.levels ≤ d' := by
  rw [levels]
  cases d with
  | zero => simp
  | succ d => simp [levelsOfItems_le_iff]

theorem levels_object_le_iff {ms : List (String × Value)} {d : Nat} :
    (object ms).levels ≤ d ↔ ∃ d', d = d' + 1 ∧ ∀ m ∈ ms, m.2.levels ≤ d' := by
  rw [levels]
  cases d with
  | zero => simp
  | succ d => simp [levelsOfMembers_le_iff]

/-! ## Objects in order -/

theorem mem_insertMember {m : String × Value} {name : String} {v : Value}
    {ms : List (String × Value)} (h : m ∈ insertMember name v ms) : m = (name, v) ∨ m ∈ ms := by
  induction ms with
  | nil => exact .inl (List.mem_singleton.mp h)
  | cons n ms ih =>
    rw [insertMember] at h
    split at h
    · exact List.mem_cons.mp h
    · split at h
      · exact (List.mem_cons.mp h).imp_right (.tail _)
      · rcases List.mem_cons.mp h with rfl | h
        · exact .inr (.head _)
        · exact (ih h).imp_right (.tail _)

theorem insertMember_perm {name : String} {ms : List (String × Value)}
    (h : name ∉ ms.map Prod.fst) (v : Value) : (insertMember name v ms).Perm ((name, v) :: ms) := by
  induction ms with
  | nil => exact .refl _
  | cons n ms ih =>
    obtain ⟨hne, hrest⟩ := not_or.mp (mt List.mem_cons.mpr h)
    rw [insertMember]
    split
    · exact .refl _
    · exact ((ih hrest).cons n).trans (.swap _ _ _)

/-- The members in the order of their names, the last one of a name kept. -/
def inOrder (ms : List (String × Value)) : List (String × Value) :=
  ms.foldl (fun acc m => insertMember m.1 m.2 acc) []

theorem ofMembers_eq (ms : List (String × Value)) : ofMembers ms = object (inOrder ms) :=
  rfl

theorem mem_of_mem_inOrder {m : String × Value} {ms : List (String × Value)}
    (h : m ∈ inOrder ms) : m ∈ ms := by
  suffices hacc : ∀ acc, m ∈ ms.foldl (fun acc m => insertMember m.1 m.2 acc) acc →
      m ∈ acc ∨ m ∈ ms by simpa using hacc [] h
  clear h
  induction ms with
  | nil => exact fun acc h => .inl h
  | cons n ms ih =>
    intro acc h
    rcases ih _ h with h | h
    · rcases mem_insertMember h with rfl | h
      · exact .inr (.head _)
      · exact .inl h
    · exact .inr (.tail _ h)

/-- Putting members with different names in order loses and adds none. -/
theorem inOrder_perm {ms : List (String × Value)} (hnodup : (ms.map Prod.fst).Nodup) :
    (inOrder ms).Perm ms := by
  suffices hacc : ∀ acc, ((acc ++ ms).map Prod.fst).Nodup →
      (ms.foldl (fun acc m => insertMember m.1 m.2 acc) acc).Perm (acc ++ ms) from hacc [] hnodup
  -- members in order and members to come are together what they were at the start
  clear hnodup
  induction ms with
  | nil =>
    intro acc _
    rw [List.append_nil]
    exact .refl _
  | cons m ms ih =>
    intro acc hnodup
    have hfresh : m.1 ∉ acc.map Prod.fst := by
      rw [List.map_append, List.nodup_append] at hnodup
      intro hmem
      exact hnodup.2.2 _ hmem _ (List.mem_map_of_mem (.head _)) rfl
    have hstep : (insertMember m.1 m.2 acc ++ ms).Perm (acc ++ m :: ms) :=
      ((insertMember_perm hfresh m.2).append_right ms).trans List.perm_middle.symm
    refine (ih _ ?_).trans hstep
    exact (hstep.map Prod.fst).nodup_iff.mpr hnodup

/-- The names of the members grow. -/
def NamesGrow (ms : List (String × Value)) : Prop :=
  ms.Pairwise fun m n => m.1 < n.1

theorem namesGrow_insertMember {ms : List (String × Value)} (h : NamesGrow ms) (name : String)
    (v : Value) : NamesGrow (insertMember name v ms) := by
  induction ms with
  | nil => exact List.pairwise_singleton _ _
  | cons n ms ih =>
    obtain ⟨hn, hms⟩ := List.pairwise_cons.mp h
    rw [insertMember]
    split
    case isTrue hlt =>
      refine List.pairwise_cons.mpr ⟨?_, h⟩
      intro m hm
      rcases List.mem_cons.mp hm with rfl | hm
      · exact hlt
      · exact lt_trans hlt (hn m hm)
    case isFalse hlt =>
      split
      case isTrue heq => exact List.pairwise_cons.mpr ⟨fun m hm => heq ▸ hn m hm, hms⟩
      case isFalse hne =>
        have hgt : n.1 < name := lt_of_le_of_ne (not_lt.mp hlt) (Ne.symm hne)
        refine List.pairwise_cons.mpr ⟨?_, ih hms⟩
        intro m hm
        rcases mem_insertMember hm with rfl | hm
        · exact hgt
        · exact hn m hm

theorem namesGrow_inOrder (ms : List (String × Value)) : NamesGrow (inOrder ms) := by
  suffices hacc : ∀ acc, NamesGrow acc →
      NamesGrow (ms.foldl (fun acc m => insertMember m.1 m.2 acc) acc) from hacc [] .nil
  induction ms with
  | nil => exact fun acc h => h
  | cons m ms ih => exact fun acc h => ih _ (namesGrow_insertMember h m.1 m.2)

/-- A member whose name is beyond all others goes to the end. -/
theorem insertMember_of_lt {name : String} {ms : List (String × Value)}
    (h : ∀ m ∈ ms, m.1 < name) (v : Value) : insertMember name v ms = ms ++ [(name, v)] := by
  induction ms with
  | nil => rfl
  | cons n ms ih =>
    obtain ⟨hn, hms⟩ := List.forall_mem_cons.mp h
    rw [insertMember, if_neg (lt_asymm hn), if_neg (ne_of_gt hn), ih hms]
    rfl

/-- Members whose names grow are in order already. -/
theorem inOrder_of_namesGrow {ms : List (String × Value)} (h : NamesGrow ms) :
    inOrder ms = ms := by
  suffices hacc : ∀ acc, NamesGrow (acc ++ ms) →
      ms.foldl (fun acc m => insertMember m.1 m.2 acc) acc = acc ++ ms from hacc [] h
  -- every member is beyond those in order and goes behind them
  clear h
  induction ms with
  | nil => exact fun acc _ => (List.append_nil acc).symm
  | cons m ms ih =>
    intro acc h
    have hlast : ∀ n ∈ acc, n.1 < m.1 := fun n hn =>
      (List.pairwise_append.mp h).2.2 n hn m (.head _)
    rw [List.foldl_cons, insertMember_of_lt hlast, ih, List.append_assoc]
    · rfl
    · rwa [List.append_assoc]

theorem inOrder_inOrder (ms : List (String × Value)) : inOrder (inOrder ms) = inOrder ms :=
  inOrder_of_namesGrow (namesGrow_inOrder ms)

mutual

/-- The value with the members of its objects in the order of their names, as it comes back from a
text. -/
def sorted : Value → Value
  | array items => array (sortedItems items)
  | object members => ofMembers (sortedMembers members)
  | v => v

def sortedItems : List Value → List Value
  | [] => []
  | v :: rest => sorted v :: sortedItems rest

def sortedMembers : List (String × Value) → List (String × Value)
  | [] => []
  | (name, v) :: rest => (name, sorted v) :: sortedMembers rest

end

mutual

/-- The members of every object stand in the order of their names, each name once, as they do in
every value that was read from a text. -/
def InOrder : Value → Prop
  | array items => ItemsInOrder items
  | object members => MembersInOrder members ∧ inOrder members = members
  | null | bool _ | number _ | string _ => True

def ItemsInOrder : List Value → Prop
  | [] => True
  | v :: rest => InOrder v ∧ ItemsInOrder rest

def MembersInOrder : List (String × Value) → Prop
  | [] => True
  | (_, v) :: rest => InOrder v ∧ MembersInOrder rest

end

theorem itemsInOrder_iff {items : List Value} :
    ItemsInOrder items ↔ ∀ v ∈ items, v.InOrder := by
  induction items with
  | nil => simp [ItemsInOrder]
  | cons v rest ih => rw [ItemsInOrder, ih, List.forall_mem_cons]

theorem membersInOrder_iff {ms : List (String × Value)} :
    MembersInOrder ms ↔ ∀ m ∈ ms, m.2.InOrder := by
  induction ms with
  | nil => simp [MembersInOrder]
  | cons m rest ih => rw [MembersInOrder, ih, List.forall_mem_cons]

@[simp] theorem sortedItems_eq_map (items : List Value) : sortedItems items = items.map sorted := by
  induction items with
  | nil => rfl
  | cons v rest ih => rw [sortedItems, ih, List.map_cons]

@[simp] theorem sortedMembers_eq_map (ms : List (String × Value)) :
    sortedMembers ms = ms.map fun m => (m.1, m.2.sorted) := by
  induction ms with
  | nil => rfl
  | cons m rest ih => rw [sortedMembers, ih, List.map_cons]

theorem sortedMembers_names (ms : List (String × Value)) :
    (sortedMembers ms).map Prod.fst = ms.map Prod.fst := by
  rw [sortedMembers_eq_map, List.map_map]
  rfl

theorem inOrder_sortedMembers_perm {ms : List (String × Value)}
    (hnodup : (ms.map Prod.fst).Nodup) : (inOrder (sortedMembers ms)).Perm (sortedMembers ms) :=
  inOrder_perm (sortedMembers_names ms ▸ hnodup)

theorem nodup_names_inOrder {ms : List (String × Value)} (hnodup : (ms.map Prod.fst).Nodup) :
    ((inOrder (sortedMembers ms)).map Prod.fst).Nodup := by
  rw [((inOrder_sortedMembers_perm hnodup).map Prod.fst).nodup_iff, sortedMembers_names]
  exact hnodup

/-- Members keep their names on the way through a text. -/
theorem lookup_inOrder {ms : List (String × Value)} (hnodup : (ms.map Prod.fst).Nodup)
    (name : String) :
    lookup name (inOrder (sortedMembers ms)) = (lookup name ms).map sorted := by
  rw [lookup_perm (inOrder_sortedMembers_perm hnodup) (nodup_names_inOrder hnodup),
    sortedMembers_eq_map, lookup_map]

theorem get?_sorted {ms : List (String × Value)} (hnodup : (ms.map Prod.fst).Nodup)
    (name : String) : (object ms).sorted.get? name = (lookup name ms).map sorted :=
  lookup_inOrder hnodup name

mutual

/-- A value in order comes back as it is. -/
theorem sorted_of_inOrder : ∀ v : Value, v.InOrder → v.sorted = v
  | array items, h => by
    rw [InOrder] at h
    rw [sorted, sortedItems_of_inOrder items h]
  | object members, h => by
    rw [InOrder] at h
    rw [sorted, sortedMembers_of_inOrder members h.1, ofMembers_eq, h.2]
  | null, _ | bool _, _ | number _, _ | string _, _ => rfl

theorem sortedItems_of_inOrder : ∀ items : List Value, ItemsInOrder items →
    sortedItems items = items
  | [], _ => rfl
  | v :: rest, h => by
    rw [ItemsInOrder] at h
    rw [sortedItems, sorted_of_inOrder v h.1, sortedItems_of_inOrder rest h.2]

theorem sortedMembers_of_inOrder : ∀ ms : List (String × Value), MembersInOrder ms →
    sortedMembers ms = ms
  | [], _ => rfl
  | (name, v) :: rest, h => by
    rw [MembersInOrder] at h
    rw [sortedMembers, sorted_of_inOrder v h.1, sortedMembers_of_inOrder rest h.2]

end

end Value

/-! ## Trees of values -/

namespace Tree

open Value (levels levelsOfItems levelsOfMembers InOrder ItemsInOrder MembersInOrder)

mutual

/-- A value in order is read back from its tree, if it is not nested too deeply. -/
theorem toValue_ofValue : ∀ (v : Value) (d : Nat), v.InOrder → v.levels ≤ d →
    toValue d (ofValue v) = .ok v
  | .null, d, _, _ | .bool _, d, _, _ => by rw [ofValue, toValue]
  | .string s, d, _, _ => by
    rw [ofValue, toValue]
    rfl
  | .number (.integer n), d, _, _ => by rw [ofValue, toValue]
  | .number (.real x), d, _, _ => by rw [ofValue, toValue]
  | .array items, d, hv, hd => by
    rw [InOrder] at hv
    rw [levels] at hd
    obtain ⟨d, rfl⟩ : ∃ d', d = d' + 1 := ⟨d - 1, by omega⟩
    rw [ofValue, toValue, toItems_ofItems items d hv (by omega)]
    rfl
  | .object members, d, hv, hd => by
    rw [InOrder] at hv
    rw [levels] at hd
    obtain ⟨d, rfl⟩ : ∃ d', d = d' + 1 := ⟨d - 1, by omega⟩
    rw [ofValue, toValue, toMembers_ofMembers members d hv.1 (by omega)]
    exact congrArg (fun ms => Except.ok (Value.object ms)) hv.2

theorem toItems_ofItems : ∀ (items : List Value) (d : Nat), ItemsInOrder items →
    levelsOfItems items ≤ d → toItems d (ofItems items) = .ok items
  | [], d, _, _ => by rw [ofItems, toItems]
  | v :: rest, d, hv, hd => by
    rw [ItemsInOrder] at hv
    rw [levelsOfItems] at hd
    rw [ofItems, toItems, toValue_ofValue v d hv.1 (by omega),
      toItems_ofItems rest d hv.2 (by omega)]
    rfl

theorem toMembers_ofMembers : ∀ (ms : List (String × Value)) (d : Nat), MembersInOrder ms →
    levelsOfMembers ms ≤ d → toMembers d (ofMembers ms) = .ok ms
  | [], d, _, _ => by rw [ofMembers, toMembers]
  | (name, v) :: rest, d, hv, hd => by
    rw [MembersInOrder] at hv
    rw [levelsOfMembers] at hd
    rw [ofMembers, toMembers, toValue_ofValue v d hv.1 (by omega),
      toMembers_ofMembers rest d hv.2 (by omega)]
    rfl

end

mutual

/-- Nothing is wrong with the tree of a value. -/
theorem skip_ofValue : ∀ v : Value, (ofValue v).skip = .ok ()
  | .null | .bool _ | .string _ => by rw [ofValue, skip] <;> exact nofun
  | .number (.integer n) | .number (.real x) => by rw [ofValue, skip] <;> exact nofun
  | .array items => by
    rw [ofValue, skip, skipItems_ofItems items]
    rfl
  | .object members => by
    rw [ofValue, skip, skipMembers_ofMembers members]
    rfl

theorem skipItems_ofItems : ∀ items : List Value, skipItems (ofItems items) = .ok ()
  | [] => rfl
  | v :: rest => by
    rw [ofItems, skipItems, skip_ofValue v, skipItems_ofItems rest]
    rfl

theorem skipMembers_ofMembers : ∀ ms : List (String × Value),
    skipMembers (ofMembers ms) = .ok ()
  | [] => rfl
  | (name, v) :: rest => by
    rw [ofMembers, skipMembers, skip_ofValue v, skipMembers_ofMembers rest]
    rfl

end

mutual

/-- What is read is in order, and nested no deeper than the reader goes. -/
theorem inOrder_of_toValue : ∀ (t : Tree) (d : Nat) (v : Value), toValue d t = .ok v →
    v.InOrder ∧ v.levels ≤ d
  | null, d, v, h | bool _, d, v, h | integer _, d, v, h | real _, d, v, h => by
    cases h
    exact ⟨trivial, Nat.zero_le d⟩
  | number n, d, v, h => by
    rw [toValue] at h
    cases hn : n.number? with
    | none =>
      rw [hn] at h
      cases h
    | some m =>
      rw [hn] at h
      cases h
      exact ⟨trivial, Nat.zero_le d⟩
  | string s, d, v, h => by
    cases s with
    | none => cases h
    | some s =>
      cases h
      exact ⟨trivial, Nat.zero_le d⟩
  | array items close, d, v, h => by
    cases d with
    | zero => cases h
    | succ d =>
      rw [toValue, bind_eq_ok] at h
      obtain ⟨vs, hvs, h⟩ := h
      cases close with
      | some b => cases h
      | none =>
        cases h
        have hitems := inOrder_of_toItems items d vs hvs
        refine ⟨?_, Value.levels_array_le_iff.mpr ⟨d, rfl, fun v hv => (hitems v hv).2⟩⟩
        exact Value.itemsInOrder_iff.mpr fun v hv => (hitems v hv).1
  | object members close, d, v, h => by
    cases d with
    | zero => cases h
    | succ d =>
      rw [toValue, bind_eq_ok] at h
      obtain ⟨ms, hms, h⟩ := h
      cases close with
      | some b => cases h
      | none =>
        cases h
        have hmembers : ∀ m ∈ Value.inOrder ms, m.2.InOrder ∧ m.2.levels ≤ d := fun m hm =>
          inOrder_of_toMembers members d ms hms m (Value.mem_of_mem_inOrder hm)
        refine ⟨⟨?_, Value.inOrder_inOrder ms⟩,
          Value.levels_object_le_iff.mpr ⟨d, rfl, fun m hm => (hmembers m hm).2⟩⟩
        exact Value.membersInOrder_iff.mpr fun m hm => (hmembers m hm).1
  | foreign, _, _, h | broken _, _, _, h => by cases h

theorem inOrder_of_toItems : ∀ (items : List Tree) (d : Nat) (vs : List Value),
    toItems d items = .ok vs → ∀ v ∈ vs, v.InOrder ∧ v.levels ≤ d
  | [], d, vs, h => by
    cases h
    exact nofun
  | t :: rest, d, vs, h => by
    simp only [toItems, bind_eq_ok] at h
    obtain ⟨v, hv, ws, hws, h⟩ := h
    cases h
    exact List.forall_mem_cons.mpr
      ⟨inOrder_of_toValue t d v hv, inOrder_of_toItems rest d ws hws⟩

theorem inOrder_of_toMembers : ∀ (members : List (Option String × Tree)) (d : Nat)
    (ms : List (String × Value)), toMembers d members = .ok ms →
    ∀ m ∈ ms, m.2.InOrder ∧ m.2.levels ≤ d
  | [], d, ms, h => by
    cases h
    exact nofun
  | (none, _) :: _, d, ms, h => by cases h
  | (some name, t) :: rest, d, ms, h => by
    simp only [toMembers, bind_eq_ok] at h
    obtain ⟨v, hv, ns, hns, h⟩ := h
    cases h
    exact List.forall_mem_cons.mpr
      ⟨inOrder_of_toValue t d v hv, inOrder_of_toMembers rest d ns hns⟩

end

end Tree

/-! ## Texts of values -/

/-- The value comes back from the text as it is, with the members of its objects in the order of
their names. -/
def Value.ComesBackFrom (v : Value) (text : String) : Prop :=
  Value.ofText? text = .ok v.sorted

/-- What a text holds is in order, and nested no deeper than readers go. -/
theorem Value.inOrder_of_ofText? {text : String} {v : Value} (h : Value.ofText? text = .ok v) :
    v.InOrder ∧ v.levels ≤ maxDepth := by
  rw [Value.ofText?, readText, Document.read, bind_eq_ok] at h
  obtain ⟨w, hw, h⟩ := h
  split at h
  · cases h
  · cases h
    exact Tree.inOrder_of_toValue _ _ _ hw

theorem Value.ofText?_ofList (s : List Char) :
    Value.ofText? (.ofList s)
      = Document.read ⟨(followValue (s.length + 1) s).value,
          (followValue (s.length + 1) s).rest.any fun rest => !(skipSpace rest).isEmpty⟩
        Reader.value := by
  rw [Value.ofText?, readText, Document.ofText, String.toList_ofList]

end ReportSql.Json
