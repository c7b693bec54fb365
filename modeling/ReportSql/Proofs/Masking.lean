import ReportSql.Execution.Masking
import ReportSql.Proofs.Numerals
import ReportSql.Proofs.Passes
import ReportSql.Proofs.Words

/-!
# What the finders of secrets see

Connections and dotted addresses are found between spaces. A value that is assigned to a key may
stand behind a space; then it is found up to its end, and what it is does not matter to anything
that is found before it.
-/

namespace ReportSql.Execution

open ReportSql.Decimal (StartsWithout startsWithout_append)
open ReportSql.Text

section

variable {p : Char → Bool} {key v w x y : List Char}

/-! ## Scanning up to a space -/

theorem takeWhile_append_space (hp : p ' ' = false) (w s : List Char) :
    (w ++ ' ' :: s).takeWhile p = w.takeWhile p := by
  induction w with
  | nil => exact List.takeWhile_cons_of_neg (by simp [hp])
  | cons c w ih =>
    by_cases hc : p c = true
    · rw [List.cons_append, List.takeWhile_cons_of_pos hc, List.takeWhile_cons_of_pos hc, ih]
    · rw [List.cons_append, List.takeWhile_cons_of_neg hc, List.takeWhile_cons_of_neg hc]

theorem dropWhile_append_space (hp : p ' ' = false) (w s : List Char) :
    (w ++ ' ' :: s).dropWhile p = w.dropWhile p ++ ' ' :: s := by
  induction w with
  | nil => exact List.dropWhile_cons_of_neg (by simp [hp])
  | cons c w ih =>
    by_cases hc : p c = true
    · rw [List.cons_append, List.dropWhile_cons_of_pos hc, List.dropWhile_cons_of_pos hc, ih]
    · rw [List.cons_append, List.dropWhile_cons_of_neg hc, List.dropWhile_cons_of_neg hc,
        List.cons_append]

theorem length_takeWhile_add_dropWhile (p : Char → Bool) (s : List Char) :
    (s.takeWhile p).length + (s.dropWhile p).length = s.length := by
  rw [← List.length_append, List.takeWhile_append_dropWhile]

theorem dropWhile_append_of_ne_nil (h : w.dropWhile p ≠ []) (s : List Char) :
    (w ++ s).dropWhile p = w.dropWhile p ++ s := by
  rw [List.dropWhile_append, if_neg]
  rwa [List.isEmpty_iff]

theorem takeWhile_append_of_ne_nil (h : w.dropWhile p ≠ []) (s : List Char) :
    (w ++ s).takeWhile p = w.takeWhile p := by
  rw [List.takeWhile_append, if_neg]
  intro hlength
  have hsum := length_takeWhile_add_dropWhile p w
  have hpos := List.length_pos_iff.mpr h
  omega

/-! ## Connections -/

/-- What stands behind a colon and two slashes. -/
def behindMark? : List Char → Option (List Char)
  | ':' :: '/' :: '/' :: rest => some rest
  | _ => none

theorem behindMark?_eq_some_iff {u rest : List Char} :
    behindMark? u = some rest ↔ u = ':' :: '/' :: '/' :: rest := by
  constructor
  · intro h
    unfold behindMark? at h
    split at h
    · rw [Option.some.inj h]
    · cases h
  · rintro rfl
    rfl

theorem behindMark?_append (u s : List Char) :
    behindMark? (u ++ ' ' :: s) = (behindMark? u).map (· ++ ' ' :: s) := by
  ext rest
  simp only [Option.map_eq_some_iff, behindMark?_eq_some_iff]
  constructor
  · intro h
    match u with
    | [] | [_] | [_, _] => cases h
    | _ :: _ :: _ :: u =>
      cases h
      exact ⟨u, rfl, rfl⟩
  · rintro ⟨rest, rfl, rfl⟩
    rfl

/-- What is found of the address of a connection, by what stands behind its mark. -/
def connection (scheme rest : List Char) : Option Found :=
  let place := rest.takeWhile fun c => !isBlank c
  if place.isEmpty then none
  else some ⟨1 + scheme.length + 3 + place.length, "[connection]".toList⟩

theorem findConnection_cons (before : Option Char) (c : Char) (s : List Char) :
    findConnection before (c :: s) =
      if startsWord before && isSchemeStart c then
        (behindMark? (s.dropWhile isSchemeChar)).bind (connection (s.takeWhile isSchemeChar))
      else none := by
  rw [findConnection]
  generalize s.dropWhile isSchemeChar = u
  split
  · split
    · rfl
    · rename_i hmark
      have hnone : behindMark? u = none :=
        Option.eq_none_iff_forall_ne_some.mpr fun rest h =>
          hmark rest (behindMark?_eq_some_iff.mp h)
      rw [hnone]
      rfl
  · rfl

theorem findConnection_eq_none {c : Char} (hc : isSchemeStart c = false) (before : Option Char)
    (s : List Char) : findConnection before (c :: s) = none := by
  rw [findConnection_cons, hc, Bool.and_false]
  rfl

theorem confined_findConnection : Confined findConnection where
  nothing before := rfl
  append before w s := by
    cases w with
    | nil => exact findConnection_eq_none (by decide) before s
    | cons c w =>
      have hscheme : isSchemeChar ' ' = false := by decide
      have hplace : ∀ scheme rest,
          connection scheme (rest ++ ' ' :: s) = connection scheme rest := by
        intro scheme rest
        rw [connection, takeWhile_append_space (by decide), connection]
      rw [List.cons_append, findConnection_cons, findConnection_cons,
        dropWhile_append_space hscheme, takeWhile_append_space hscheme, behindMark?_append,
        Option.bind_map]
      simp only [Function.comp_def, hplace]
  length_le {before w f} hfound := by
    cases w with
    | nil => cases hfound
    | cons c w =>
      rw [findConnection_cons] at hfound
      obtain ⟨-, hfound⟩ := Option.ite_none_right_eq_some.mp hfound
      obtain ⟨rest, hmark, hplace⟩ := Option.bind_eq_some_iff.mp hfound
      obtain ⟨-, hplace⟩ := Option.ite_none_left_eq_some.mp hplace
      cases hplace
      have hrest := length_takeWhile_add_dropWhile (fun c => !isBlank c) rest
      have hlength := length_takeWhile_add_dropWhile isSchemeChar w
      rw [behindMark?_eq_some_iff.mp hmark] at hlength
      simp only [List.length_cons] at hlength ⊢
      omega

theorem replacement_findConnection {before : Option Char} {f : Found}
    (h : findConnection before w = some f) : f.replacement = "[connection]".toList := by
  cases w with
  | nil => cases h
  | cons c w =>
    rw [findConnection_cons] at h
    obtain ⟨-, h⟩ := Option.ite_none_right_eq_some.mp h
    obtain ⟨rest, -, h⟩ := Option.bind_eq_some_iff.mp h
    obtain ⟨-, h⟩ := Option.ite_none_left_eq_some.mp h
    cases h
    rfl

/-! ## Values beside keys -/

/-- A text that can be the value beside a key. -/
structure IsSecret (v : List Char) : Prop where
  ne_nil : v ≠ []
  chars : ∀ c ∈ v, isSecretChar c = true

instance (v : List Char) : Decidable (IsSecret v) :=
  decidable_of_iff (v ≠ [] ∧ v.all isSecretChar = true)
    ⟨fun h => ⟨h.1, List.all_eq_true.mp h.2⟩, fun h => ⟨h.ne_nil, List.all_eq_true.mpr h.chars⟩⟩

/-- The characters that stand between a key and its value, apart from blanks. -/
def isSign (c : Char) : Bool :=
  c == '=' || c == ':'

/-- A sign with blanks around it, and nothing else: the value beside it is yet to come. -/
def leftOpen (w : List Char) : Bool :=
  match w.dropWhile isBlank with
  | c :: rest => isSign c && rest.all isBlank
  | [] => false

/-- A text that is the value, or a part of it, beside a key before it. -/
structure IsValue (x : List Char) : Prop extends IsSecret x where
  head : StartsWithout isSign x

theorem isBlank_of_isSecretChar {c : Char} (h : isSecretChar c = true) : isBlank c = false := by
  simp only [isSecretChar, Bool.and_eq_true, Bool.not_eq_true'] at h
  exact h.1.1.1.1

/-- The length of the blanks at the start, of a sign, of the blanks behind it and of the value. -/
def signed (blanks : Nat) (c : Char) (rest : List Char) : Option Nat :=
  if isSign c then
    let value := (rest.dropWhile isBlank).takeWhile isSecretChar
    if value.isEmpty then none
    else some (blanks + 1 + (rest.takeWhile isBlank).length + value.length)
  else none

theorem assigned?_of_dropWhile {s rest : List Char} {c : Char}
    (h : s.dropWhile isBlank = c :: rest) :
    assigned? s = signed (s.takeWhile isBlank).length c rest := by
  rw [assigned?, h]
  rfl

theorem assigned?_of_forall_isBlank {s : List Char} (h : ∀ c ∈ s, isBlank c = true) :
    assigned? s = none := by
  rw [assigned?, List.dropWhile_eq_nil_iff.mpr h]

theorem length_assigned? {n : Nat} (h : assigned? w = some n) : n ≤ w.length := by
  cases hw : w.dropWhile isBlank with
  | nil =>
    rw [assigned?, hw] at h
    cases h
  | cons c rest =>
    rw [assigned?_of_dropWhile hw] at h
    obtain ⟨-, h⟩ := Option.ite_none_right_eq_some.mp h
    obtain ⟨-, h⟩ := Option.ite_none_left_eq_some.mp h
    cases h
    have hlength := length_takeWhile_add_dropWhile isBlank w
    have hrest := length_takeWhile_add_dropWhile isBlank rest
    have hvalue := length_takeWhile_add_dropWhile isSecretChar (rest.dropWhile isBlank)
    rw [hw, List.length_cons] at hlength
    omega

namespace IsSecret

theorem startsWithout_isBlank (h : IsSecret x) (s : List Char) : StartsWithout isBlank (x ++ s) :=
  startsWithout_append h.ne_nil (fun c hc => isBlank_of_isSecretChar (h.chars c hc)) s

/-- Blanks before a value end with it. -/
theorem dropWhile_isBlank (h : IsSecret x) (hw : ∀ c ∈ w, isBlank c = true) (s : List Char) :
    (w ++ (x ++ s)).dropWhile isBlank = x ++ s :=
  (h.startsWithout_isBlank s).dropWhile_append hw

theorem takeWhile_isBlank (h : IsSecret x) (hw : ∀ c ∈ w, isBlank c = true) (s : List Char) :
    (w ++ (x ++ s)).takeWhile isBlank = w :=
  (h.startsWithout_isBlank s).takeWhile_append hw

theorem takeWhile_isSecretChar (h : IsSecret x) (s : List Char) :
    (x ++ ' ' :: s).takeWhile isSecretChar = x := by
  rw [takeWhile_append_space (by decide)]
  exact List.takeWhile_eq_self_iff.mpr h.chars

/-- A value right behind a sign, or behind blanks, is found up to its end. -/
theorem signed_append (h : IsSecret x) (hw : ∀ c ∈ w, isBlank c = true) {c : Char}
    (hc : isSign c = true) (blanks : Nat) (s : List Char) :
    signed blanks c (w ++ (x ++ ' ' :: s)) = some (blanks + 1 + w.length + x.length) := by
  have hempty : x.isEmpty = false := List.isEmpty_eq_false_iff.mpr h.ne_nil
  simp only [signed, hc, h.dropWhile_isBlank hw, h.takeWhile_isBlank hw, h.takeWhile_isSecretChar,
    hempty, if_true, Bool.false_eq_true, if_false]

end IsSecret

theorem isBlank_append_space (hw : ∀ c ∈ w, isBlank c = true) :
    ∀ c ∈ w ++ [' '], isBlank c = true :=
  List.forall_mem_append.mpr ⟨hw, List.forall_mem_singleton.mpr (by decide)⟩

/-- Something assigned before a value is found without it, or goes on through it. -/
theorem assigned?_append (hx : IsValue x) (w s : List Char) :
    assigned? (w ++ ' ' :: (x ++ ' ' :: s)) =
      if leftOpen w then some (w.length + 1 + x.length) else assigned? w := by
  cases hw : w.dropWhile isBlank with
  | nil =>
    have hblank : ∀ c ∈ w, isBlank c = true := List.dropWhile_eq_nil_iff.mp hw
    have hopen : leftOpen w = false := by rw [leftOpen, hw]
    have hdrop := hx.dropWhile_isBlank (isBlank_append_space hblank) (' ' :: s)
    rw [← List.append_cons] at hdrop
    obtain ⟨c, u, rfl⟩ := List.exists_cons_of_ne_nil hx.ne_nil
    have hsign : isSign c = false := hx.head c rfl
    rw [assigned?_of_dropWhile hdrop, signed, hsign, hopen, assigned?_of_forall_isBlank hblank]
    rfl
  | cons c rest =>
    have hne : w.dropWhile isBlank ≠ [] := by simp [hw]
    have hdrop : (w ++ ' ' :: (x ++ ' ' :: s)).dropWhile isBlank =
        c :: (rest ++ ' ' :: (x ++ ' ' :: s)) := by
      rw [dropWhile_append_of_ne_nil hne, hw, List.cons_append]
    rw [assigned?_of_dropWhile hdrop, assigned?_of_dropWhile hw, takeWhile_append_of_ne_nil hne,
      leftOpen, hw]
    by_cases hsign : isSign c = true
    · by_cases hblank : ∀ d ∈ rest, isBlank d = true
      · -- only the value is left to come
        have hlength := length_takeWhile_add_dropWhile isBlank w
        rw [hw, List.length_cons] at hlength
        have hall : rest.all isBlank = true := List.all_eq_true.mpr hblank
        rw [List.append_cons rest, hx.signed_append (isBlank_append_space hblank) hsign]
        simp only [hsign, hall, Bool.and_self, if_true, List.length_append, List.length_singleton]
        congr 1
        omega
      · -- the value has begun, and ends before the space
        have hall : rest.all isBlank = false := by
          rwa [← Bool.not_eq_true, List.all_eq_true]
        have hrest : rest.dropWhile isBlank ≠ [] := by rwa [Ne, List.dropWhile_eq_nil_iff]
        simp only [signed, hsign, hall, dropWhile_append_of_ne_nil hrest,
          takeWhile_append_of_ne_nil hrest, takeWhile_append_space (show isSecretChar ' ' = false by
            decide), Bool.and_false, if_true, Bool.false_eq_true, if_false]
    · simp only [signed, hsign, Bool.false_and, Bool.false_eq_true, if_false]

/-- The key `key` with a value beside it, masked. -/
def assignment? (key s : List Char) : Option Found :=
  match (stripWord key s).bind assigned? with
  | some n => some ⟨key.length + n, s.take key.length ++ "=***".toList⟩
  | none => none

theorem findAssignment_eq (keys : List (List Char)) (before : Option Char) (s : List Char) :
    findAssignment keys before s =
      if startsWord before then keys.findSome? (assignment? · s) else none :=
  rfl

theorem length_of_stripWord {rest : List Char} (h : stripWord key w = some rest) :
    w.length = key.length + rest.length := by
  obtain ⟨u, rfl, rfl⟩ := stripWord_eq_some_iff.mp h
  rw [List.length_append, List.length_map]

/-- A key without spaces ends before the next space. -/
theorem stripWord_append (hkey : ' ' ∉ key) (w s : List Char) :
    stripWord key (w ++ ' ' :: s) = (stripWord key w).map (· ++ ' ' :: s) := by
  induction key generalizing w with
  | nil => rfl
  | cons k key ih =>
    have hk : fold ' ' ≠ k := fun h => List.ne_of_not_mem_cons hkey h
    cases w with
    | nil => simp [stripWord, hk]
    | cons c w =>
      rw [List.cons_append, stripWord, stripWord]
      split
      · exact ih (List.not_mem_of_not_mem_cons hkey) w
      · rfl

/-- A word of lower-case letters, such as the keys are. -/
structure IsLowerWord (key : List Char) : Prop where
  ne_nil : key ≠ []
  isLower : ∀ l ∈ key, l.isLower = true

instance (key : List Char) : Decidable (IsLowerWord key) :=
  decidable_of_iff (key ≠ [] ∧ key.all Char.isLower = true)
    ⟨fun h => ⟨h.1, List.all_eq_true.mp h.2⟩, fun h => ⟨h.ne_nil, List.all_eq_true.mpr h.isLower⟩⟩

namespace IsLowerWord

theorem space_not_mem (h : IsLowerWord key) : ' ' ∉ key := by
  intro hmem
  have hspace := h.isLower ' ' hmem
  cases hspace

theorem stripWord_eq_none (h : IsLowerWord key) {c : Char} (hc : (fold c).isLower = false)
    (s : List Char) : stripWord key (c :: s) = none := by
  obtain ⟨k, key, rfl⟩ := List.exists_cons_of_ne_nil h.ne_nil
  have hk : fold c ≠ k := by
    rintro rfl
    rw [h.isLower _ (List.mem_cons_self ..)] at hc
    cases hc
  rw [stripWord, if_neg (by simpa using hk)]

end IsLowerWord

theorem inStep_assignment? (hx : IsValue x) (hy : IsValue y) (hkey : ' ' ∉ key) (w s : List Char) :
    InStep w.length x.length y.length (assignment? key (w ++ ' ' :: (x ++ ' ' :: s)))
      (assignment? key (w ++ ' ' :: (y ++ ' ' :: s))) := by
  rw [assignment?, assignment?, stripWord_append hkey, stripWord_append hkey]
  cases hstrip : stripWord key w with
  | none => exact .nothing
  | some rest =>
    have hlength := length_of_stripWord hstrip
    have htake : ∀ t, (w ++ t).take key.length = w.take key.length := fun t =>
      List.take_append_of_le_length (by omega)
    simp only [Option.map_some, Option.bind_some, assigned?_append hx, assigned?_append hy, htake]
    by_cases hopen : leftOpen rest = true
    · simp only [hopen, if_true]
      have hthrough : ∀ z : List Char,
          key.length + (rest.length + 1 + z.length) = w.length + 1 + z.length := fun z => by omega
      rw [hthrough, hthrough]
      exact .through _
    · simp only [hopen, Bool.false_eq_true, if_false]
      cases hassigned : assigned? rest with
      | none => exact .nothing
      | some n =>
        have hn := length_assigned? hassigned
        exact .before (by simp only; omega)

theorem inStep_findSome? {keys : List (List Char)} {n l m : Nat} {f g : List Char → Option Found}
    (h : ∀ key ∈ keys, InStep n l m (f key) (g key)) :
    InStep n l m (keys.findSome? f) (keys.findSome? g) := by
  induction keys with
  | nil => exact .nothing
  | cons key keys ih =>
    have hkeys := ih fun k hk => h k (List.mem_cons_of_mem _ hk)
    rw [List.findSome?_cons, List.findSome?_cons]
    have hkey := h key (List.mem_cons_self ..)
    generalize f key = found at hkey ⊢
    generalize g key = found' at hkey ⊢
    cases hkey with
    | nothing => exact hkeys
    | before hlength => exact .before hlength
    | through r => exact .through r

theorem findAssignment_eq_none {keys : List (List Char)} (hkeys : ∀ key ∈ keys, IsLowerWord key)
    {c : Char} (hc : (fold c).isLower = false) (before : Option Char) (s : List Char) :
    findAssignment keys before (c :: s) = none := by
  have hnone : keys.findSome? (assignment? · (c :: s)) = none := by
    refine List.findSome?_eq_none_iff.mpr fun key hmem => ?_
    rw [assignment?, (hkeys key hmem).stripWord_eq_none hc]
    rfl
  rw [findAssignment_eq, hnone, ite_self]

/-- Whatever is assigned before a value, it does not matter which value it is. -/
theorem blindTo_findAssignment {keys : List (List Char)}
    (hkeys : ∀ key ∈ keys, IsLowerWord key) (hx : IsValue x) (hy : IsValue y) :
    BlindTo (findAssignment keys) x y where
  space := findAssignment_eq_none hkeys (by decide)
  inStep before w s := by
    rw [findAssignment_eq, findAssignment_eq]
    split
    · exact inStep_findSome? fun key hmem =>
        inStep_assignment? hx hy (hkeys key hmem).space_not_mem w s
    · exact .nothing

/-! ## Dotted addresses -/

/-- A group and what follows it, the space and all behind it left aside. -/
def shift (s : List Char) (group : Nat × List Char) : Nat × List Char :=
  (group.1, group.2 ++ ' ' :: s)

theorem digitGroup?_append (w s : List Char) :
    digitGroup? (w ++ ' ' :: s) = (digitGroup? w).map (shift s) := by
  have hspace : Text.isDigit ' ' = false := by decide
  simp only [digitGroup?, takeWhile_append_space hspace, dropWhile_append_space hspace]
  split <;> rfl

theorem pointGroup?_append (w s : List Char) :
    pointGroup? (w ++ ' ' :: s) = (pointGroup? w).map (shift s) := by
  match w with
  | [] => rfl
  | c :: w =>
    rw [List.cons_append]
    by_cases hc : c = '.'
    · rw [hc, pointGroup?, pointGroup?, digitGroup?_append, Option.map_map, Option.map_map]
      rfl
    · have hnone : ∀ t, pointGroup? (c :: t) = none := by
        intro t
        unfold pointGroup?
        split
        · rename_i heq
          exact absurd (List.cons.inj heq).1 hc
        · rfl
      rw [hnone, hnone]
      rfl

theorem addressGroups?_append (w s : List Char) :
    addressGroups? (w ++ ' ' :: s) = (addressGroups? w).map (shift s) := by
  have hpoint : ∀ group : Nat × List Char, pointGroup? (shift s group).2 =
      (pointGroup? group.2).map (shift s) := fun group => pointGroup?_append group.2 s
  simp only [addressGroups?, digitGroup?_append, Option.bind_eq_bind, Option.bind_map,
    Function.comp_def, hpoint, Option.map_bind]
  rfl

/-- The lengths of the groups and of what follows them add up. -/
theorem length_digitGroup? {n : Nat} {rest : List Char} (h : digitGroup? w = some (n, rest)) :
    n + rest.length = w.length := by
  obtain ⟨-, h⟩ := Option.ite_none_right_eq_some.mp h
  cases h
  exact length_takeWhile_add_dropWhile Text.isDigit w

theorem length_pointGroup? {n : Nat} {rest : List Char} (h : pointGroup? w = some (n, rest)) :
    n + rest.length = w.length := by
  unfold pointGroup? at h
  split at h
  · obtain ⟨⟨m, rest'⟩, hgroup, h⟩ := Option.map_eq_some_iff.mp h
    cases h
    have hlength := length_digitGroup? hgroup
    rw [List.length_cons]
    omega
  · cases h

theorem length_addressGroups? {n : Nat} {rest : List Char} (h : addressGroups? w = some (n, rest)) :
    n + rest.length = w.length := by
  simp only [addressGroups?, Option.bind_eq_bind, Option.bind_eq_some_iff] at h
  obtain ⟨⟨a, s₁⟩, h₁, ⟨b, s₂⟩, h₂, ⟨c, s₃⟩, h₃, ⟨d, s₄⟩, h₄, h⟩ := h
  cases h
  have ha := length_digitGroup? h₁
  have hb := length_pointGroup? h₂
  have hc := length_pointGroup? h₃
  have hd := length_pointGroup? h₄
  simp only at hb hc hd ⊢
  omega

theorem endsWord_append (w s : List Char) : endsWord (w ++ ' ' :: s) = endsWord w := by
  cases w with
  | nil =>
    have hspace : isWord ' ' = false := by decide
    simp [endsWord, hspace]
  | cons c w => rfl

theorem colonNumberLength_append (w s : List Char) :
    colonNumberLength (w ++ ' ' :: s) = colonNumberLength w := by
  match w with
  | [] => rfl
  | c :: w =>
    rw [List.cons_append]
    by_cases hc : c = ':'
    · have hspace : Text.isDigit ' ' = false := by decide
      rw [hc, colonNumberLength, colonNumberLength, takeWhile_append_space hspace,
        dropWhile_append_space hspace, endsWord_append]
    · have hzero : ∀ t, colonNumberLength (c :: t) = 0 := by
        intro t
        unfold colonNumberLength
        split
        · rename_i heq
          exact absurd (List.cons.inj heq).1 hc
        · rfl
      rw [hzero, hzero]

theorem colonNumberLength_le (w : List Char) : colonNumberLength w ≤ w.length := by
  unfold colonNumberLength
  split
  · rename_i s
    have hlength := length_takeWhile_add_dropWhile Text.isDigit s
    simp only [List.length_cons]
    split <;> omega
  · exact Nat.zero_le _

theorem confined_findAddress : Confined findAddress where
  nothing before := ite_self none
  append before w s := by
    rw [findAddress, findAddress, addressGroups?_append]
    cases addressGroups? w with
    | none => rfl
    | some group => simp only [Option.map_some, shift, endsWord_append, colonNumberLength_append]
  length_le {before w f} hfound := by
    obtain ⟨-, hfound⟩ := Option.ite_none_right_eq_some.mp hfound
    cases hgroups : addressGroups? w with
    | none =>
      rw [hgroups] at hfound
      cases hfound
    | some group =>
      rw [hgroups] at hfound
      obtain ⟨-, hfound⟩ := Option.ite_none_right_eq_some.mp hfound
      cases hfound
      have hlength := length_addressGroups? hgroups
      have hcolon := colonNumberLength_le group.2
      simp only
      omega

end

end ReportSql.Execution
