import ReportSql.Proofs.Documents

/-!
# Readers of values

A reader reads a value as something if it does so wherever the value comes from and at every depth
that the value fits in. A record is read member by member, in any order of its members; what its
reader makes of it is said by what is found under the names that it knows.
-/

namespace ReportSql.Json

/-- The reader understands the value, if the value is not nested too deeply. -/
def Reads {α : Type} (reader : Reader α) (v : Value) (a : α) : Prop :=
  ∀ origin depth, v.levels ≤ depth → reader origin depth (.ofValue v) = .ok a

section

variable {α β : Type} {reader : Reader α} {v : Value} {a : α}

/-! ## Leaves and lists -/

theorem reads_string (s : String) : Reads .string (.string s) s :=
  fun _ _ _ => rfl

theorem reads_int64 (n : Int64) : Reads .int64 (.ofInt64 n) n := by
  intro origin depth _
  have hlt : n.toInt < 9223372036854775808 := n.toInt_lt
  have hword : (Integer.ofInt64 n).toInt64? = some n := by
    rw [Integer.toInt64?, Integer.ofInt64, if_pos hlt, Int64.ofInt_toInt]
  simp only [Reader.int64, Reader.numeric, Value.ofInt64, Tree.ofValue, Tree.number?,
    Option.bind_some, hword]

theorem reads_value (h : v.InOrder) : Reads .value v v :=
  fun _ depth hd => Tree.toValue_ofValue v depth h hd

theorem reads_list {ι : Type} {l : List ι} {value : ι → Value} {result : ι → α}
    (h : ∀ i ∈ l, Reads reader (value i) (result i)) :
    Reads (.list reader) (.array (l.map value)) (l.map result) := by
  intro origin depth hd
  obtain ⟨d, rfl, hlevels⟩ := Value.levels_array_le_iff.mp hd
  -- `hd` speaks of the whole list, the induction below of its elements
  clear hd
  have hitems : Reader.elements (reader origin d) (Tree.ofItems (l.map value))
      = .ok (l.map result) := by
    induction l with
    | nil => rfl
    | cons i l ih =>
      obtain ⟨hi, hl⟩ := List.forall_mem_cons.mp h
      rw [List.map_cons, List.forall_mem_cons] at hlevels
      rw [List.map_cons, Tree.ofItems, Reader.elements, hi origin d hlevels.1, ih hl hlevels.2]
      rfl
  rw [Tree.ofValue, Reader.list, hitems]
  rfl

theorem reads_list_self {l : List α} {value : α → Value} (h : ∀ a ∈ l, Reads reader (value a) a) :
    Reads (.list reader) (.array (l.map value)) l := by
  have hread : Reads (.list reader) (.array (l.map value)) (l.map fun a => a) := reads_list h
  rwa [List.map_id'] at hread

theorem reads_option (h : Reads reader v a) (hv : v.isNull = false) :
    Reads (.option reader) v (some a) := by
  intro origin depth hd
  have hread := h origin depth hd
  cases v with
  | null => cases hv
  | bool b | string s | array items | object members =>
    rw [Tree.ofValue] at hread ⊢
    rw [Reader.option, hread]
    · rfl
    · exact nofun
  | number n =>
    cases n <;>
    · rw [Tree.ofValue] at hread ⊢
      rw [Reader.option, hread]
      · rfl
      · exact nofun

theorem reads_option_null : Reads (.option reader) .null none :=
  fun _ _ _ => rfl

theorem reads_filterMap {f : α → Option β} {b : β} (h : Reads reader v a) (hf : f a = some b) :
    Reads (reader.filterMap f) v b := by
  intro origin depth hd
  rw [Reader.filterMap, h origin depth hd]
  simp only [Bind.bind, Except.bind, hf]

/-- A name is read as the first of the listed names that it is. -/
theorem reads_oneOf {names : List (String × α)} {s : String}
    (h : names.find? (·.1 == s) = some (s, a)) : Reads (.oneOf names) (.string s) a := by
  intro origin depth _
  simp only [Reader.oneOf, Tree.ofValue, h]

end

/-! ## Records -/

namespace RecordReader

variable {α β : Type} {r : RecordReader α} {find find' : String → Option Value} {a : α}

/-- The record reader makes `a` of what is found under the names that it knows: the members pass
their checks, and the record is built from their trees. -/
structure Understands (r : RecordReader α) (find : String → Option Value) (a : α) : Prop where
  checks : ∀ m ∈ r.known, ∀ v, find m.name = some v → Reads m.check v ()
  builds : ∀ origin depth slots,
    (∀ m ∈ r.known, slot? m.name slots = (find m.name).map Tree.ofValue) →
    (∀ m ∈ r.known, ∀ v, find m.name = some v → v.levels ≤ depth) →
    r.build origin depth slots = .ok a

namespace Understands

theorem map (h : r.Understands find a) (f : α → β) : Understands (f <$> r) find (f a) where
  checks := h.checks
  builds := by
    intro origin depth slots hslots hlevels
    change (r.build origin depth slots).map f = _
    rw [h.builds origin depth slots hslots hlevels]
    rfl

theorem seq {g : RecordReader (α → β)} {f : α → β} (hg : g.Understands find f)
    (h : r.Understands find a) : Understands (g <*> r) find (f a) where
  checks := by
    intro m hm
    rcases List.mem_append.mp hm with hm | hm
    · exact hg.checks m hm
    · exact h.checks m hm
  builds := by
    intro origin depth slots hslots hlevels
    have hf : g.build origin depth slots = .ok f :=
      hg.builds origin depth slots (fun m hm => hslots m (List.mem_append_left _ hm))
        fun m hm => hlevels m (List.mem_append_left _ hm)
    have ha : r.build origin depth slots = .ok a :=
      h.builds origin depth slots (fun m hm => hslots m (List.mem_append_right _ hm))
        fun m hm => hlevels m (List.mem_append_right _ hm)
    change (do
      let f ← g.build origin depth slots
      let x ← r.build origin depth slots
      .ok (f x)) = _
    rw [hf, ha]
    rfl

variable {name : String} {reader : Reader α} {v : Value} {default : α}

/-- A tree that is read passes the check. -/
theorem reads_checkOf (h : Reads reader v a) : Reads (checkOf reader) v () := by
  intro origin depth hd
  rw [checkOf, h origin depth hd]
  rfl

theorem field (hfind : find name = some v) (h : Reads reader v a) :
    Understands (.field name reader) find a where
  checks := by
    intro m hm w hw
    obtain rfl := List.mem_singleton.mp hm
    obtain rfl := Option.some.inj (hfind.symm.trans hw)
    exact reads_checkOf h
  builds := by
    intro origin depth slots hslots hlevels
    have hslot : slot? name slots = some (.ofValue v) :=
      (hslots _ (.head _)).trans (congrArg (Option.map Tree.ofValue) hfind)
    simp only [RecordReader.field, hslot]
    exact h origin depth (hlevels _ (.head _) v hfind)

theorem fieldOr (hsome : ∀ v, find name = some v → Reads reader v a)
    (hnone : find name = none → a = default) :
    Understands (.fieldOr name default reader) find a where
  checks := by
    intro m hm w hw
    obtain rfl := List.mem_singleton.mp hm
    exact reads_checkOf (hsome w hw)
  builds := by
    intro origin depth slots hslots hlevels
    have hslot : slot? name slots = (find name).map .ofValue := hslots _ (.head _)
    cases hfind : find name with
    | none =>
      rw [hfind] at hslot
      simp only [RecordReader.fieldOr, hslot, Option.map_none, hnone hfind]
    | some v =>
      rw [hfind] at hslot
      simp only [RecordReader.fieldOr, hslot, Option.map_some]
      exact hsome v hfind origin depth (hlevels _ (.head _) v hfind)

/-- A member that may be missing is there. -/
theorem present (hfind : find name = some v) (h : Reads reader v a) :
    Understands (.fieldOr name default reader) find a := by
  refine fieldOr ?_ ?_
  · intro w hw
    obtain rfl := Option.some.inj (hfind.symm.trans hw)
    exact h
  · intro hnone
    rw [hfind] at hnone
    cases hnone

/-- An optional part that is written as a member when it is there. -/
theorem optional {o : Option α} {f : α → Value} (hfind : find name = o.map f)
    (h : ∀ a, o = some a → Reads reader (f a) a ∧ (f a).isNull = false) :
    Understands (.optional name reader) find o := by
  refine fieldOr ?_ ?_
  · intro v hv
    rw [hfind, Option.map_eq_some_iff] at hv
    obtain ⟨a, rfl, rfl⟩ := hv
    obtain ⟨hread, hnull⟩ := h a rfl
    exact reads_option hread hnull
  · intro hnone
    rw [hfind, Option.map_eq_none_iff] at hnone
    exact hnone

/-- An optional value of any kind: nothing is left of a `null`. -/
theorem optional_value {o : Option Value} (hfind : find name = o)
    (h : ∀ v, o = some v → v.InOrder) :
    Understands (.optional name .value) find (o.filter fun v => !v.isNull) := by
  refine fieldOr ?_ ?_
  · intro v hv
    obtain rfl := hfind.symm.trans hv
    cases hnull : v.isNull with
    | true =>
      cases v with
      | null => exact reads_option_null
      | _ => cases hnull
    | false =>
      rw [Option.filter_some, if_pos (by rw [hnull]; rfl)]
      exact reads_option (reads_value (h v rfl)) hnull
  · intro hnone
    obtain rfl := hfind.symm.trans hnone
    rfl

theorem congr (h : r.Understands find a) (hfind : find = find') : r.Understands find' a :=
  hfind ▸ h

end Understands

/-! ## Collecting members -/

theorem slot?_append (name other : String) (t : Tree) (slots : Slots) :
    slot? name (slots ++ [(other, t)])
      = (slot? name slots).or (if other = name then some t else none) := by
  rw [slot?, slot?, List.find?_append]
  cases slots.find? (·.1 == name) with
  | some slot => rfl
  | none => by_cases h : other = name <;> simp [h]

section

variable {known : List Member} {origin : Origin} {depth : Nat} {slots slots' : Slots}
  {ms : List (String × Value)}

/-- What has been collected under a known name is what the object holds there. -/
theorem slot?_of_collect (h : collect known origin depth slots (Tree.ofMembers ms) = .ok slots')
    {m : Member} (hm : m ∈ known) :
    slot? m.name slots' = (slot? m.name slots).or ((lookup m.name ms).map Tree.ofValue) := by
  induction ms generalizing slots with
  | nil =>
    cases h
    rw [lookup_nil, Option.map_none, Option.or_none]
  | cons n ms ih =>
    obtain ⟨name, v⟩ := n
    rw [Tree.ofMembers, collect] at h
    cases hknown : known.find? (·.name == name) with
    | none =>
      have hne : name ≠ m.name := by
        rintro rfl
        exact List.find?_eq_none.mp hknown m hm (beq_self_eq_true _)
      simp only [hknown, Tree.skip_ofValue] at h
      rw [ih h, lookup_cons, if_neg hne]
    | some k =>
      simp only [hknown] at h
      split at h
      · cases h
      · obtain ⟨-, -, h⟩ := bind_eq_ok.mp h
        rw [ih h, slot?_append, lookup_cons, Option.or_assoc]
        by_cases hname : name = m.name
        · rw [if_pos hname, if_pos hname]
          rfl
        · rw [if_neg hname, if_neg hname]
          rfl

/-- The members of an object whose names differ are collected one after another; those that are not
known are passed over. -/
theorem exists_collect (hnodup : (ms.map Prod.fst).Nodup)
    (hcheck : ∀ m ∈ known, ∀ v, (m.name, v) ∈ ms → m.check origin depth (.ofValue v) = .ok ())
    (slots : Slots) (hfresh : ∀ m ∈ ms, slot? m.1 slots = none) :
    ∃ slots', collect known origin depth slots (Tree.ofMembers ms) = .ok slots' := by
  -- the slots grow by the members that are passed, and no member to come has its name in them
  induction ms generalizing slots with
  | nil => exact ⟨slots, rfl⟩
  | cons n ms ih =>
    obtain ⟨name, v⟩ := n
    obtain ⟨hname, hnodup⟩ := List.nodup_cons.mp hnodup
    obtain ⟨hslot, hfresh⟩ := List.forall_mem_cons.mp hfresh
    have hrest : ∀ m ∈ known, ∀ w, (m.name, w) ∈ ms →
        m.check origin depth (.ofValue w) = .ok () :=
      fun m hm w hw => hcheck m hm w (.tail _ hw)
    rw [Tree.ofMembers, collect]
    cases hknown : known.find? (·.name == name) with
    | none =>
      obtain ⟨slots', hcollect⟩ := ih hnodup hrest slots hfresh
      refine ⟨slots', ?_⟩
      simp only [Tree.skip_ofValue]
      exact hcollect
    | some m =>
      have hm : m ∈ known := List.mem_of_find?_eq_some hknown
      have hmname : m.name = name := by simpa using List.find?_some hknown
      have hchecked := hcheck m hm v (hmname ▸ .head _)
      have hfresh' : ∀ n ∈ ms, slot? n.1 (slots ++ [(name, .ofValue v)]) = none := by
        intro n hn
        have hne : name ≠ n.1 := by
          rintro rfl
          exact hname (List.mem_map.mpr ⟨n, hn, rfl⟩)
        rw [slot?_append, hfresh n hn, if_neg hne]
        rfl
      obtain ⟨slots', hcollect⟩ := ih hnodup hrest _ hfresh'
      refine ⟨slots', ?_⟩
      simp only [hslot, hchecked]
      exact hcollect

end

variable {ms : List (String × Value)}

/-- A record is read from an object whose members have different names. -/
theorem Understands.reads (h : r.Understands (fun name => lookup name ms) a)
    (hnodup : (ms.map Prod.fst).Nodup) : Reads r.reader (.object ms) a := by
  intro origin depth hd
  obtain ⟨d, rfl, hlevels⟩ := Value.levels_object_le_iff.mp hd
  have hcheck : ∀ m ∈ r.known, ∀ v, (m.name, v) ∈ ms →
      m.check origin d (.ofValue v) = .ok () := by
    intro m hm v hv
    exact h.checks m hm v ((lookup_eq_some_iff hnodup).mpr hv) origin d (hlevels _ hv)
  obtain ⟨slots, hcollect⟩ := exists_collect hnodup hcheck [] fun _ _ => rfl
  have hbuild : r.build origin d slots = .ok a := by
    refine h.builds origin d slots ?_ ?_
    · exact fun m hm => slot?_of_collect hcollect hm
    · exact fun m _ v hv => hlevels _ (mem_of_lookup hv)
  rw [Tree.ofValue, RecordReader.reader, hcollect]
  exact hbuild

/-- A record is read from an object that came back from a text. -/
theorem Understands.reads_sorted
    (h : r.Understands (fun name => (lookup name ms).map Value.sorted) a)
    (hnodup : (ms.map Prod.fst).Nodup) : Reads r.reader (Value.object ms).sorted a := by
  have hfind : (fun name => (lookup name ms).map Value.sorted)
      = fun name => lookup name (Value.inOrder (Value.sortedMembers ms)) :=
    funext fun name => (Value.lookup_inOrder hnodup name).symm
  rw [Value.sorted, Value.ofMembers_eq]
  exact (h.congr hfind).reads (Value.nodup_names_inOrder hnodup)

end RecordReader

/-! ## Tagged records -/

section

variable {α : Type} {tag kind : String} {isKind : String → Bool} {depth : Nat}
  {ms : List (String × Value)}

theorem splitTag_cons_tag (kind : String) (rest : List (Option String × Tree)) :
    splitTag tag isKind depth none ((some tag, .string (some kind)) :: rest)
      = if isKind kind then splitTag tag isKind depth (some kind) rest else .error .mismatch := by
  rw [splitTag.eq_def]
  simp only [beq_self_eq_true, if_true]

theorem splitTag_cons_other {name : String} (hname : name ≠ tag) (found : Option String) (t : Tree)
    (rest : List (Option String × Tree)) :
    splitTag tag isKind depth found ((some name, t) :: rest)
      = (do
        let _ ← t.toValue depth
        let (found, others) ← splitTag tag isKind depth found rest
        .ok (found, (some name, t) :: others)) := by
  rw [splitTag.eq_def]
  simp only [beq_false_of_ne hname]
  rfl

/-- Members that are not the tag are kept. -/
theorem splitTag_of_notMem (found : Option String) (hms : ∀ m ∈ ms, m.2.InOrder)
    (hd : ∀ m ∈ ms, m.2.levels ≤ depth) (htag : tag ∉ ms.map Prod.fst) :
    splitTag tag isKind depth found (Tree.ofMembers ms) = .ok (found, Tree.ofMembers ms) := by
  induction ms with
  | nil => rfl
  | cons m ms ih =>
    obtain ⟨name, v⟩ := m
    obtain ⟨hv, hms⟩ := List.forall_mem_cons.mp hms
    obtain ⟨hdv, hd⟩ := List.forall_mem_cons.mp hd
    obtain ⟨hne, htag⟩ := not_or.mp (mt List.mem_cons.mpr htag)
    rw [Tree.ofMembers, splitTag_cons_other (Ne.symm hne), Tree.toValue_ofValue v depth hv hdv,
      ih hms hd htag]
    rfl

/-- The tag is found wherever it stands, and the other members are kept. -/
theorem splitTag_ofMembers (hkind : isKind kind = true) (hms : ∀ m ∈ ms, m.2.InOrder)
    (hd : ∀ m ∈ ms, m.2.levels ≤ depth) (hnodup : (ms.map Prod.fst).Nodup)
    (htag : lookup tag ms = some (.string kind)) :
    splitTag tag isKind depth none (Tree.ofMembers ms)
      = .ok (some kind, Tree.ofMembers (ms.filter fun m => m.1 != tag)) := by
  induction ms with
  | nil => cases htag
  | cons m ms ih =>
    obtain ⟨name, v⟩ := m
    obtain ⟨hv, hrest⟩ := List.forall_mem_cons.mp hms
    obtain ⟨hdv, hdrest⟩ := List.forall_mem_cons.mp hd
    obtain ⟨hfresh, hnodup'⟩ := List.nodup_cons.mp hnodup
    rw [lookup_cons] at htag
    by_cases hname : name = tag
    · rw [if_pos hname, Option.some.injEq] at htag
      subst hname htag
      -- behind the tag no member has its name, so nothing is left out any more
      have hothers : ms.filter (fun m => m.1 != name) = ms := by
        rw [List.filter_eq_self]
        intro m hm
        exact bne_iff_ne.mpr fun h => hfresh (List.mem_map.mpr ⟨m, hm, h⟩)
      rw [List.filter_cons_of_neg (by simp), hothers, Tree.ofMembers, Tree.ofValue,
        splitTag_cons_tag, if_pos hkind]
      exact splitTag_of_notMem (some kind) hrest hdrest hfresh
    · rw [if_neg hname] at htag
      rw [List.filter_cons_of_pos (by simpa using hname), Tree.ofMembers,
        splitTag_cons_other hname, Tree.toValue_ofValue v depth hv hdv,
        ih hrest hdrest hnodup' htag]
      rfl

/-- A record of the kind that its tag names is read from its other members. -/
theorem reads_tagged {kinds : List (String × RecordReader α)} {r : RecordReader α} {a : α}
    (hkind : kinds.find? (·.1 == kind) = some (kind, r))
    (htag : lookup tag ms = some (.string kind)) (hms : ∀ m ∈ ms, m.2.InOrder)
    (hnodup : (ms.map Prod.fst).Nodup)
    (h : r.Understands (fun name => if name = tag then none else lookup name ms) a) :
    Reads (taggedReader tag kinds) (.object ms) a := by
  intro origin depth hd
  obtain ⟨d, rfl, hlevels⟩ := Value.levels_object_le_iff.mp hd
  have hany : kinds.any (·.1 == kind) = true := by
    rw [List.any_eq_true]
    exact ⟨_, List.mem_of_find?_eq_some hkind, beq_self_eq_true kind⟩
  have hsplit : splitTag tag (fun s => kinds.any (·.1 == s)) d none (Tree.ofMembers ms)
      = .ok (some kind, Tree.ofMembers (ms.filter fun m => m.1 != tag)) :=
    splitTag_ofMembers hany hms hlevels hnodup htag
  have hothers : ((ms.filter fun m => m.1 != tag).map Prod.fst).Nodup :=
    hnodup.sublist (List.filter_sublist.map Prod.fst)
  have hread := (h.congr (funext fun name => (lookup_filter tag name ms).symm)).reads hothers
    Origin.tagged (d + 1) (Value.levels_object_le_iff.mpr
      ⟨d, rfl, fun m hm => hlevels m (List.mem_of_mem_filter hm)⟩)
  rw [Tree.ofValue] at hread ⊢
  simp only [taggedReader, hsplit, hkind, bind, Except.bind]
  exact hread

/-- A tagged record is read from an object that came back from a text. -/
theorem reads_tagged_sorted (kind : String) {kinds : List (String × RecordReader α)}
    {r : RecordReader α} {a : α}
    (hkind : kinds.find? (·.1 == kind) = some (kind, r))
    (htag : lookup tag ms = some (.string kind)) (hms : ∀ m ∈ ms, m.2.InOrder)
    (hnodup : (ms.map Prod.fst).Nodup)
    (h : r.Understands (fun name => if name = tag then none else lookup name ms) a) :
    Reads (taggedReader tag kinds) (Value.object ms).sorted a := by
  have hsorted : Value.sortedMembers ms = ms := by
    rw [Value.sortedMembers_eq_map]
    refine (List.map_congr_left fun m hm => ?_).trans (List.map_id' ms)
    exact congrArg (Prod.mk m.1) (Value.sorted_of_inOrder m.2 (hms m hm))
  have hperm := Value.inOrder_perm hnodup
  have hlookup : ∀ name, lookup name (Value.inOrder ms) = lookup name ms := fun name =>
    (lookup_perm hperm.symm hnodup name).symm
  rw [Value.sorted, hsorted, Value.ofMembers_eq]
  refine reads_tagged hkind ((hlookup tag).trans htag) ?_ ?_ ?_
  · intro m hm
    exact hms m (hperm.mem_iff.mp hm)
  · exact (hperm.map Prod.fst).nodup_iff.mpr hnodup
  · exact h.congr (funext fun name => by rw [hlookup])

end

/-- What comes back from a text is understood. -/
theorem Reads.readValue {α : Type} {reader : Reader α} {v : Value} {a : α}
    (h : Reads reader v.sorted a) {text : String} (htext : v.ComesBackFrom text) :
    readValue reader v.sorted = .ok a :=
  h _ _ (Value.inOrder_of_ofText? htext).2

end ReportSql.Json
