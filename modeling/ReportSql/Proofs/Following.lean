import ReportSql.Json.Print
import ReportSql.Proofs.Documents
import ReportSql.Proofs.NumberTexts

/-!
# Following what was written

The text of a value is followed to its end, and what is found there is the value again. Quoted texts
come back as they are, with their escapes undone. Numbers come back as numbers: of a double, digits
are read that need not round to it, so that `Number.reread` says what a number comes back as.
-/

namespace ReportSql.Json

open ReportSql.Decimal (StartsWithout)

/-! ## Quoted texts -/

/-- What an escaped character is followed as: a control character that has no letter for it is
written as a unit. -/
def escapedPart (c : Char) : TextPart :=
  if c.toNat < 0x20 ∧ c ∉ ['\x08', '\x0c', '\n', '\r', '\t'] then .unit c.toNat else .char c

theorem joinParts_escaped (s : List Char) : joinParts (s.map escapedPart) = some s := by
  induction s with
  | nil => rfl
  | cons c rest ih =>
    rw [List.map_cons, escapedPart]
    split
    · rename_i h
      have hleading : isLeading c.toNat = false := by
        rw [isLeading, Bool.and_eq_false_imp]
        intro hlarge
        have := of_decide_eq_true hlarge
        omega
      have htrailing : ¬(0xDC00 ≤ c.toNat ∧ c.toNat < 0xE000) := by omega
      rw [joinParts.eq_def]
      simp only [hleading, htrailing, Bool.false_eq_true, if_false, ih, Char.ofNat_toNat,
        Option.map_some]
    · rw [joinParts, ih, Option.map_some]

theorem hexValue?_hexDigit : ∀ n < 16, hexValue? (hexDigit n) = some n := by
  decide

theorem hexUnit_escape {n : Nat} (h : n < 0x20) (rest : List Char) :
    hexUnit ('0' :: '0' :: hexDigit (n / 16) :: hexDigit (n % 16) :: rest) = .ok (n, rest) := by
  have hzero : hexValue? '0' = some 0 := by decide
  have hvalue : n / 16 * 16 + n % 16 = n := Nat.div_add_mod' n 16
  simp only [hexUnit, hzero, hexValue?_hexDigit (n / 16) (by omega),
    hexValue?_hexDigit (n % 16) (Nat.mod_lt n (by decide)), Nat.zero_mul, Nat.zero_add, hvalue]

/-- One step undoes one escape. -/
theorem textParts_escapeChar (fuel : Nat) (c : Char) (rest : List Char) :
    textParts (fuel + 1) (escapeChar c ++ rest) =
      (escapedPart c :: (textParts fuel rest).1, (textParts fuel rest).2) := by
  by_cases hshort : c ∈ ['"', '\\', '\x08', '\x0c', '\n', '\r', '\t']
  · simp only [List.mem_cons, List.not_mem_nil, or_false] at hshort
    rcases hshort with rfl | rfl | rfl | rfl | rfl | rfl | rfl <;> rfl
  · simp only [List.mem_cons, List.not_mem_nil, or_false, not_or] at hshort
    obtain ⟨hquote, hslash, hb, hf, hn, hr, ht⟩ := hshort
    by_cases hcontrol : c.toNat < 0x20
    · have hpart : escapedPart c = .unit c.toNat := by
        simp [escapedPart, hcontrol, hb, hf, hn, hr, ht]
      have htext : escapeChar c =
          ['\\', 'u', '0', '0', hexDigit (c.toNat / 16), hexDigit (c.toNat % 16)] := by
        simp [escapeChar, hquote, hslash, hb, hf, hn, hr, ht, hcontrol]
      rw [htext, hpart]
      simp only [List.cons_append, List.nil_append]
      rw [textParts]
      simp only [hexUnit_escape hcontrol]
      rfl
    · have hpart : escapedPart c = .char c := by simp [escapedPart, hcontrol]
      have htext : escapeChar c = [c] := by
        simp [escapeChar, hquote, hslash, hb, hf, hn, hr, ht, hcontrol]
      rw [htext, hpart, List.singleton_append, textParts.eq_def]
      simp [hquote, hslash, hcontrol]

theorem textParts_escaped {fuel : Nat} {s : List Char} (h : s.length < fuel) (rest : List Char) :
    textParts fuel (s.flatMap escapeChar ++ '"' :: rest) = (s.map escapedPart, .ok rest) := by
  induction s generalizing fuel with
  | nil =>
    obtain ⟨fuel, rfl⟩ := Nat.exists_eq_succ_of_ne_zero (Nat.ne_zero_of_lt h)
    rfl
  | cons c s ih =>
    obtain ⟨fuel, rfl⟩ := Nat.exists_eq_succ_of_ne_zero (Nat.ne_zero_of_lt h)
    rw [List.flatMap_cons, List.append_assoc, Nat.succ_eq_add_one, textParts_escapeChar,
      ih (Nat.lt_of_succ_lt_succ h)]
    rfl

theorem length_le_length_escaped (s : List Char) : s.length ≤ (s.flatMap escapeChar).length := by
  induction s with
  | nil => exact Nat.le_refl 0
  | cons c s ih =>
    have hpos : 0 < (escapeChar c).length := by
      rw [escapeChar]
      split_ifs <;> exact Nat.succ_pos _
    rw [List.flatMap_cons, List.length_append, List.length_cons]
    omega

/-- **A quoted text comes back**, whatever characters it holds. -/
theorem followText_escaped (s : String) (rest : List Char) :
    followText (s.toList.flatMap escapeChar ++ '"' :: rest) = .ok (some s, rest) := by
  have hfuel : s.toList.length <
      (s.toList.flatMap escapeChar ++ '"' :: rest).length + 1 := by
    have := length_le_length_escaped s.toList
    rw [List.length_append, List.length_cons]
    omega
  rw [followText, textParts_escaped hfuel]
  simp only [joinParts_escaped, Option.map_some, String.ofList_toList]

/-! ## Values -/

/-- What the text of a number is read as. -/
def Number.reread (n : Number) : Number :=
  (followValue 1 n.text).value.number?.getD n

mutual

/-- The tree that the text of a value is followed to. -/
def Tree.written : Value → Tree
  | .null => null
  | .bool b => bool b
  | .number n => (followValue 1 n.text).value
  | .string s => string (some s)
  | .array items => array (writtenItems items) none
  | .object members => object (writtenMembers members) none

def Tree.writtenItems : List Value → List Tree
  | [] => []
  | v :: rest => written v :: writtenItems rest

def Tree.writtenMembers : List (String × Value) → List (Option String × Tree)
  | [] => []
  | (name, v) :: rest => (some name, written v) :: writtenMembers rest

end

/-! ### Steps -/

section

variable {fuel : Nat} {c : Char} {s t more rest : List Char} {v : Tree}

theorem skipSpace_newLine (level : Nat) (s : List Char) :
    skipSpace (Value.newLine level ++ s) = skipSpace s := by
  rw [Value.newLine, skipSpace, List.cons_append, List.dropWhile_cons_of_pos rfl]
  induction 2 * level with
  | zero => rfl
  | succ n ih => rwa [List.replicate_succ, List.cons_append, List.dropWhile_cons_of_pos rfl]

theorem length_newLine (level : Nat) : (Value.newLine level).length = 2 * level + 1 := by
  rw [Value.newLine, List.length_cons, List.length_replicate]

theorem followValue_space (fuel : Nat) (s : List Char) :
    followValue fuel (' ' :: s) = followValue fuel s := by
  cases fuel with
  | zero => rfl
  | succ fuel =>
    rw [followValue, followValue, skipSpace, List.dropWhile_cons_of_pos rfl]
    rfl

theorem followItems_close (fuel : Nat) (first : Bool) (level : Nat) (rest : List Char) :
    followItems (fuel + 1) first (Value.newLine level ++ ']' :: rest) =
      ⟨([], none), some rest⟩ := by
  rw [followItems, skipSpace_newLine]
  rfl

theorem followItems_first {ts : List Tree} (level : Nat) (hc : isSpace c = false) (hclose : c ≠ ']')
    (hv : followValue fuel (c :: t) = ⟨v, some more⟩)
    (hmore : followItems fuel false more = ⟨(ts, none), some rest⟩) :
    followItems (fuel + 1) true (Value.newLine level ++ c :: t) =
      ⟨(v :: ts, none), some rest⟩ := by
  rw [followItems, skipSpace_newLine, skipSpace_cons hc]
  split
  · rename_i heq
    cases heq
  · rename_i heq
    exact absurd (List.cons.inj heq).1 hclose
  · rename_i heq
    obtain ⟨rfl, rfl⟩ := List.cons.inj heq
    simp only [if_true, hv, hmore]

theorem followItems_next {ts : List Tree} (level : Nat) (hc : isSpace c = false) (hclose : c ≠ ']')
    (hv : followValue fuel (c :: t) = ⟨v, some more⟩)
    (hmore : followItems fuel false more = ⟨(ts, none), some rest⟩) :
    followItems (fuel + 1) false (',' :: (Value.newLine level ++ c :: t)) =
      ⟨(v :: ts, none), some rest⟩ := by
  have hstart : skipSpace (Value.newLine level ++ c :: t) = c :: t :=
    (skipSpace_newLine level _).trans (skipSpace_cons hc)
  have hcomma : skipSpace (',' :: (Value.newLine level ++ c :: t)) =
    ',' :: (Value.newLine level ++ c :: t) := skipSpace_cons rfl
  simp [followItems, hcomma, hstart, hclose, hv, hmore]

theorem followMembers_close (fuel : Nat) (first : Bool) (level : Nat) (rest : List Char) :
    followMembers (fuel + 1) first (Value.newLine level ++ '\x7d' :: rest) =
      ⟨([], none), some rest⟩ := by
  rw [followMembers, skipSpace_newLine]
  rfl

theorem quote_append (name : String) (s : List Char) :
    quote name ++ s = '"' :: (name.toList.flatMap escapeChar ++ '"' :: s) := by
  rw [quote, List.append_assoc, List.cons_append, List.singleton_append]

theorem skipSpace_quote (level : Nat) (name : String) (s : List Char) :
    skipSpace (Value.newLine level ++ (quote name ++ s)) =
      '"' :: (name.toList.flatMap escapeChar ++ '"' :: s) := by
  rw [skipSpace_newLine, quote_append, skipSpace_cons rfl]

theorem followMembers_first {ms : List (Option String × Tree)} (level : Nat) (name : String)
    (hv : followValue fuel t = ⟨v, some more⟩)
    (hmore : followMembers fuel false more = ⟨(ms, none), some rest⟩) :
    followMembers (fuel + 1) true (Value.newLine level ++ (quote name ++ ':' :: ' ' :: t)) =
      ⟨((some name, v) :: ms, none), some rest⟩ := by
  have hstart := skipSpace_quote level name (':' :: ' ' :: t)
  have hcolon : skipSpace (':' :: ' ' :: t) = ':' :: ' ' :: t := skipSpace_cons rfl
  simp [followMembers, hstart, followText_escaped, hcolon, followValue_space, hv, hmore]

theorem followMembers_next {ms : List (Option String × Tree)} (level : Nat) (name : String)
    (hv : followValue fuel t = ⟨v, some more⟩)
    (hmore : followMembers fuel false more = ⟨(ms, none), some rest⟩) :
    followMembers (fuel + 1) false
        (',' :: (Value.newLine level ++ (quote name ++ ':' :: ' ' :: t))) =
      ⟨((some name, v) :: ms, none), some rest⟩ := by
  have hstart := skipSpace_quote level name (':' :: ' ' :: t)
  have hcomma : skipSpace (',' :: (Value.newLine level ++ (quote name ++ ':' :: ' ' :: t))) =
    ',' :: (Value.newLine level ++ (quote name ++ ':' :: ' ' :: t)) := skipSpace_cons rfl
  have hcolon : skipSpace (':' :: ' ' :: t) = ':' :: ' ' :: t := skipSpace_cons rfl
  simp [followMembers, hstart, followText_escaped, hcomma, hcolon, followValue_space, hv, hmore]

theorem followValue_array (fuel : Nat) (s : List Char) :
    followValue (fuel + 1) ('[' :: s) =
      ⟨.array (followItems fuel true s).value.1 (followItems fuel true s).value.2,
        (followItems fuel true s).rest⟩ := by
  rw [followValue, skipSpace_cons rfl]
  rfl

theorem followValue_object (fuel : Nat) (s : List Char) :
    followValue (fuel + 1) ('\x7b' :: s) =
      ⟨.object (followMembers fuel true s).value.1 (followMembers fuel true s).value.2,
        (followMembers fuel true s).rest⟩ := by
  rw [followValue, skipSpace_cons rfl]
  rfl

theorem followValue_quote (fuel : Nat) (text : String) (rest : List Char) :
    followValue (fuel + 1) (quote text ++ rest) = ⟨.string (some text), some rest⟩ := by
  rw [quote_append, followValue, skipSpace_cons rfl]
  simp [followText_escaped]

end

/-! ### Whole values -/

/-- The text of a number is followed to a number, wherever it stands. -/
theorem exists_written_number (n : Number) :
    ∃ m, Tree.written (.number n) = .number m ∧
      ∀ fuel rest, StartsWithout continuesNumber rest →
        followValue (fuel + 1) (n.text ++ rest) = ⟨.number m, some rest⟩ := by
  obtain ⟨m, hm⟩ := exists_followValue_number (isNumber_text n)
  have halone := hm 0 [] nofun
  rw [List.append_nil] at halone
  exact ⟨m, congrArg Followed.value halone, hm⟩

theorem followValue_text (n : Number) (fuel : Nat) {rest : List Char}
    (hrest : StartsWithout continuesNumber rest) :
    followValue (fuel + 1) (n.text ++ rest) = ⟨.written (.number n), some rest⟩ := by
  obtain ⟨m, hwritten, hfollow⟩ := exists_written_number n
  rw [hfollow fuel rest hrest, hwritten]

/-- A value starts with a character of its own. -/
theorem exists_cons_prettyAt (level : Nat) (v : Value) :
    ∃ c s, v.prettyAt level = c :: s ∧ isSpace c = false ∧ c ≠ ']' := by
  cases v with
  | null => exact ⟨_, _, rfl, rfl, by decide⟩
  | bool b => cases b <;> exact ⟨_, _, rfl, rfl, by decide⟩
  | number n =>
    have hnumber := isNumber_text n
    rw [Value.prettyAt]
    generalize n.text = text at hnumber
    cases hnumber with
    | unsigned h =>
      obtain ⟨d, more, rfl, hd⟩ := exists_cons_of_isUnsigned h
      exact ⟨d, more, rfl, isSpace_of_isDigit hd, ne_of_isDigit hd rfl⟩
    | negative h => exact ⟨_, _, rfl, rfl, by decide⟩
  | string s => exact ⟨_, _, rfl, rfl, by decide⟩
  | array items => cases items <;> exact ⟨_, _, rfl, rfl, by decide⟩
  | object members =>
    rcases members with _ | ⟨⟨name, v⟩, rest⟩ <;> exact ⟨_, _, rfl, rfl, by decide⟩

section

variable (level closing : Nat) (rest : List Char)

theorem startsWithout_prettyItems (items : List Value) :
    StartsWithout continuesNumber
      (Value.prettyItems level items ++ (Value.newLine closing ++ ']' :: rest)) := by
  cases items <;>
  · rintro c ⟨⟩
    rfl

theorem startsWithout_prettyMembers (members : List (String × Value)) :
    StartsWithout continuesNumber
      (Value.prettyMembers level members ++ (Value.newLine closing ++ '\x7d' :: rest)) := by
  cases members <;>
  · rintro c ⟨⟩
    rfl

end

-- Each step passes a character at least, so that the length of the text bounds the steps left; the
-- text behind a value begins with none of the characters that would go on with a number.
mutual

/-- **The text of a value is followed to its end.** -/
theorem followValue_prettyAt : ∀ (v : Value) (level fuel : Nat) (rest : List Char),
    StartsWithout continuesNumber rest → (v.prettyAt level ++ rest).length < fuel →
    followValue fuel (v.prettyAt level ++ rest) = ⟨.written v, some rest⟩
  | v, _, 0, _, _, hfuel => absurd hfuel (Nat.not_lt_zero _)
  | .null, _, fuel + 1, rest, _, _ => rfl
  | .bool true, _, fuel + 1, rest, _, _ => rfl
  | .bool false, _, fuel + 1, rest, _, _ => rfl
  | .number n, _, fuel + 1, rest, hrest, _ => followValue_text n fuel hrest
  | .string s, _, fuel + 1, rest, _, _ => followValue_quote fuel s rest
  | .array [], _, fuel + 1, rest, _, hfuel => by
    have hpos : fuel ≠ 0 := by
      simp only [Value.prettyAt, List.length_append, List.length_cons] at hfuel
      omega
    obtain ⟨fuel, rfl⟩ := Nat.exists_eq_succ_of_ne_zero hpos
    rfl
  | .array (v :: items), level, fuel + 1, rest, _, hfuel => by
    have htext : (Value.array (v :: items)).prettyAt level ++ rest =
        '[' :: (Value.newLine (level + 1) ++ (v.prettyAt (level + 1) ++
          (Value.prettyItems (level + 1) items ++ (Value.newLine level ++ ']' :: rest)))) := by
      simp [Value.prettyAt]
    rw [htext] at hfuel ⊢
    rw [List.length_cons, List.length_append, length_newLine] at hfuel
    obtain ⟨fuel, rfl⟩ := Nat.exists_eq_succ_of_ne_zero (n := fuel) (by omega)
    have hv := followValue_prettyAt v (level + 1) fuel _
      (startsWithout_prettyItems (level + 1) level rest items) (by omega)
    have hitems := followItems_prettyItems items (level + 1) level fuel rest (by
      rw [List.length_append] at hfuel
      omega)
    obtain ⟨c, s, hs, hspace, hclose⟩ := exists_cons_prettyAt (level + 1) v
    rw [hs, List.cons_append] at hv ⊢
    rw [followValue_array, followItems_first (level + 1) hspace hclose hv hitems]
    rfl
  | .object [], _, fuel + 1, rest, _, hfuel => by
    have hpos : fuel ≠ 0 := by
      simp only [Value.prettyAt, List.length_append, List.length_cons] at hfuel
      omega
    obtain ⟨fuel, rfl⟩ := Nat.exists_eq_succ_of_ne_zero hpos
    rfl
  | .object ((name, v) :: members), level, fuel + 1, rest, _, hfuel => by
    have htext : (Value.object ((name, v) :: members)).prettyAt level ++ rest =
        '\x7b' :: (Value.newLine (level + 1) ++ (quote name ++ ':' :: ' ' ::
          (v.prettyAt (level + 1) ++ (Value.prettyMembers (level + 1) members ++
            (Value.newLine level ++ '\x7d' :: rest))))) := by
      simp [Value.prettyAt]
    rw [htext] at hfuel ⊢
    simp only [List.length_cons, List.length_append, length_newLine] at hfuel
    obtain ⟨fuel, rfl⟩ := Nat.exists_eq_succ_of_ne_zero (n := fuel) (by omega)
    have hv := followValue_prettyAt v (level + 1) fuel _
      (startsWithout_prettyMembers (level + 1) level rest members) (by
        simp only [List.length_cons, List.length_append, length_newLine]
        omega)
    have hmembers := followMembers_prettyMembers members (level + 1) level fuel rest (by
      simp only [List.length_cons, List.length_append, length_newLine]
      omega)
    rw [followValue_object, followMembers_first (level + 1) name hv hmembers]
    rfl

theorem followItems_prettyItems : ∀ (items : List Value) (level closing fuel : Nat)
    (rest : List Char),
    (Value.prettyItems level items ++ (Value.newLine closing ++ ']' :: rest)).length < fuel →
    followItems fuel false
        (Value.prettyItems level items ++ (Value.newLine closing ++ ']' :: rest)) =
      ⟨(Tree.writtenItems items, none), some rest⟩
  | _, _, _, 0, _, hfuel => absurd hfuel (Nat.not_lt_zero _)
  | [], _, closing, fuel + 1, rest, _ => followItems_close fuel false closing rest
  | v :: items, level, closing, fuel + 1, rest, hfuel => by
    have htext : Value.prettyItems level (v :: items) ++ (Value.newLine closing ++ ']' :: rest) =
        ',' :: (Value.newLine level ++ (v.prettyAt level ++
          (Value.prettyItems level items ++ (Value.newLine closing ++ ']' :: rest)))) := by
      simp [Value.prettyItems]
    rw [htext] at hfuel ⊢
    rw [List.length_cons, List.length_append, length_newLine] at hfuel
    have hv := followValue_prettyAt v level fuel _
      (startsWithout_prettyItems level closing rest items) (by omega)
    have hitems := followItems_prettyItems items level closing fuel rest (by
      rw [List.length_append] at hfuel
      omega)
    obtain ⟨c, s, hs, hspace, hclose⟩ := exists_cons_prettyAt level v
    rw [hs, List.cons_append] at hv ⊢
    exact followItems_next level hspace hclose hv hitems

theorem followMembers_prettyMembers : ∀ (members : List (String × Value))
    (level closing fuel : Nat) (rest : List Char),
    (Value.prettyMembers level members ++ (Value.newLine closing ++ '\x7d' :: rest)).length < fuel →
    followMembers fuel false
        (Value.prettyMembers level members ++ (Value.newLine closing ++ '\x7d' :: rest)) =
      ⟨(Tree.writtenMembers members, none), some rest⟩
  | _, _, _, 0, _, hfuel => absurd hfuel (Nat.not_lt_zero _)
  | [], _, closing, fuel + 1, rest, _ => followMembers_close fuel false closing rest
  | (name, v) :: members, level, closing, fuel + 1, rest, hfuel => by
    have htext : Value.prettyMembers level ((name, v) :: members) ++
        (Value.newLine closing ++ '\x7d' :: rest) =
        ',' :: (Value.newLine level ++ (quote name ++ ':' :: ' ' :: (v.prettyAt level ++
          (Value.prettyMembers level members ++ (Value.newLine closing ++ '\x7d' :: rest))))) := by
      simp [Value.prettyMembers]
    rw [htext] at hfuel ⊢
    simp only [List.length_cons, List.length_append, length_newLine] at hfuel
    have hv := followValue_prettyAt v level fuel _
      (startsWithout_prettyMembers level closing rest members) (by
        simp only [List.length_cons, List.length_append, length_newLine]
        omega)
    have hmembers := followMembers_prettyMembers members level closing fuel rest (by
      simp only [List.length_cons, List.length_append, length_newLine]
      omega)
    exact followMembers_next level name hv hmembers

end

/-! ### Reading what was followed -/

mutual

/-- The value that the text of a value stands for, but for the order of members. -/
def Value.reread : Value → Value
  | null => null
  | bool b => bool b
  | number n => number n.reread
  | string s => string s
  | array items => array (rereadItems items)
  | object members => object (rereadMembers members)

def Value.rereadItems : List Value → List Value
  | [] => []
  | v :: rest => reread v :: rereadItems rest

def Value.rereadMembers : List (String × Value) → List (String × Value)
  | [] => []
  | (name, v) :: rest => (name, reread v) :: rereadMembers rest

end

theorem toValue_written_number {n : Number} {d : Nat} {w : Value}
    (h : Tree.toValue d (.written (.number n)) = .ok w) : w = .number n.reread := by
  obtain ⟨m, hwritten, -⟩ := exists_written_number n
  have hreread : n.reread = m.number?.getD n := by
    rw [Tree.written] at hwritten
    rw [Number.reread, hwritten, Tree.number?]
  rw [hwritten, Tree.toValue] at h
  cases hnumber : m.number? with
  | none =>
    rw [hnumber] at h
    cases h
  | some k =>
    rw [hnumber] at h hreread
    cases h
    rw [hreread, Option.getD_some]

mutual

/-- What the text of a value is read as. -/
theorem toValue_written : ∀ (v : Value) (d : Nat) (w : Value),
    Tree.toValue d (.written v) = .ok w → w = v.reread.sorted
  | .null, d, w, h | .bool _, d, w, h | .string _, d, w, h => by
    cases h
    rfl
  | .number n, d, w, h => toValue_written_number h
  | .array items, d, w, h => by
    cases d with
    | zero => cases h
    | succ d =>
      rw [Tree.written, Tree.toValue, bind_eq_ok] at h
      obtain ⟨vs, hvs, h⟩ := h
      cases h
      rw [toItems_writtenItems items d vs hvs, Value.reread, Value.sorted]
  | .object members, d, w, h => by
    cases d with
    | zero => cases h
    | succ d =>
      rw [Tree.written, Tree.toValue, bind_eq_ok] at h
      obtain ⟨ms, hms, h⟩ := h
      cases h
      rw [toMembers_writtenMembers members d ms hms, Value.reread, Value.sorted]

theorem toItems_writtenItems : ∀ (items : List Value) (d : Nat) (vs : List Value),
    Tree.toItems d (Tree.writtenItems items) = .ok vs →
    vs = Value.sortedItems (Value.rereadItems items)
  | [], d, vs, h => by
    cases h
    rfl
  | v :: rest, d, vs, h => by
    simp only [Tree.writtenItems, Tree.toItems, bind_eq_ok] at h
    obtain ⟨w, hw, ws, hws, h⟩ := h
    cases h
    rw [toValue_written v d w hw, toItems_writtenItems rest d ws hws, Value.rereadItems,
      Value.sortedItems]

theorem toMembers_writtenMembers : ∀ (members : List (String × Value)) (d : Nat)
    (ms : List (String × Value)), Tree.toMembers d (Tree.writtenMembers members) = .ok ms →
    ms = Value.sortedMembers (Value.rereadMembers members)
  | [], d, ms, h => by
    cases h
    rfl
  | (name, v) :: rest, d, ms, h => by
    simp only [Tree.writtenMembers, Tree.toMembers, bind_eq_ok] at h
    obtain ⟨w, hw, ns, hns, h⟩ := h
    cases h
    rw [toValue_written v d w hw, toMembers_writtenMembers rest d ns hns, Value.rereadMembers,
      Value.sortedMembers]

end

/-- **What is read from the text of a value** is the value with its numbers reread and its members
in the order of their names. -/
theorem eq_of_ofText?_prettyText {v w : Value} (h : Value.ofText? v.prettyText = .ok w) :
    w = v.reread.sorted := by
  have hfollow : followValue ((v.prettyAt 0).length + 1) (v.prettyAt 0) =
      ⟨.written v, some []⟩ := by
    have h := followValue_prettyAt v 0 ((v.prettyAt 0 ++ []).length + 1) [] nofun
      (Nat.lt_succ_self _)
    rwa [List.append_nil] at h
  rw [Value.prettyText, Value.ofText?_ofList, hfollow, Document.read, bind_eq_ok] at h
  obtain ⟨u, hu, h⟩ := h
  cases h
  exact toValue_written v maxDepth w hu

end ReportSql.Json
