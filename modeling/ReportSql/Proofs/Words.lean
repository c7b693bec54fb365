import Mathlib.Data.List.Forall2
import Mathlib.Data.List.TakeWhile
import ReportSql.Text.Replace

/-!
# Words of texts

The words of a text are its longest stretches of word characters. A finder of whole words sees
nothing else: it finds the first of them that is one of its words, case disregarded. So texts with
the same words look alike to it, however they are spaced.
-/

namespace ReportSql.Text

variable {keys : List (List Char)} {word w s rest : List Char} {c : Char}

/-! ## Character classes -/

theorem isWord_of_isLower_toLower (h : c.toLower.isLower = true) : isWord c = true := by
  -- only ASCII has lower-case letters here, which leaves few characters to look at
  have hascii : c.toNat < 128 := by
    by_cases hupper : c.val ≥ 'A'.val ∧ c.val ≤ 'Z'.val
    · exact Nat.lt_of_le_of_lt (UInt32.le_iff_toNat_le.mp hupper.2) (by decide)
    · have hself : c.toLower = c := dif_neg hupper
      rw [hself] at h
      have hlast : c.val ≤ 'z'.val := of_decide_eq_true (Bool.and_eq_true_iff.mp h).2
      exact Nat.lt_of_le_of_lt (UInt32.le_iff_toNat_le.mp hlast) (by decide)
  have hall : ∀ n < 128, (Char.ofNat n).toLower.isLower = true → isWord (Char.ofNat n) = true := by
    decide +kernel
  have := hall c.toNat hascii
  rw [Char.ofNat_toNat] at this
  exact this h

/-- Whatever matches a lower-case letter is a word character. -/
theorem isWord_of_fold (h : (fold c).isLower = true) : isWord c = true := by
  rw [fold] at h
  split at h
  case isTrue hc =>
    rw [eq_of_beq hc]
    decide +kernel
  case isFalse =>
    split at h
    case isTrue hc =>
      rw [eq_of_beq hc]
      decide +kernel
    case isFalse => exact isWord_of_isLower_toLower h

/-- Classes without a common range have no common character. -/
theorem within_eq_false {ranges others : List CodeRange}
    (h : ∀ r ∈ ranges, ∀ r' ∈ others, r.2 < r'.1 ∨ r'.2 < r.1) (hc : within ranges c = true) :
    within others c = false := by
  rw [within, List.any_eq_true] at hc
  obtain ⟨r, hr, hc⟩ := hc
  rw [within, List.any_eq_false]
  intro r' hr'
  have := h r hr r' hr'
  simp only [Bool.and_eq_true, decide_eq_true_eq] at hc ⊢
  omega

theorem isWord_of_isBlank (hc : isBlank c = true) : isWord c = false := by
  by_cases hascii : c.toNat < 128
  · have hall : ∀ n < 128, isBlank (Char.ofNat n) = true → isWord (Char.ofNat n) = false := by
      decide +kernel
    have := hall c.toNat hascii
    rw [Char.ofNat_toNat] at this
    exact this hc
  · -- beyond ASCII both kinds of characters are ranges, and no two of them meet
    have hdisjoint : ∀ others ∈ [alphabetic, decimalDigits, marks, connectors, joiners],
        ∀ r ∈ blanks, ∀ r' ∈ others, r.2 < r'.1 ∨ r'.2 < r.1 := by decide +kernel
    have hout : ∀ others ∈ [alphabetic, decimalDigits, marks, connectors, joiners],
        within others c = false := fun others hmem => within_eq_false (hdisjoint others hmem) hc
    rw [isWord, if_neg hascii]
    simp only [List.forall_mem_cons] at hout
    simp [hout]

/-! ## Words -/

/-- The words of a text, in their order. -/
def words (s : List Char) : List (List Char) :=
  (s.splitOnP fun c => !isWord c).filter fun w => !w.isEmpty

@[simp] theorem words_nil : words [] = [] :=
  rfl

/-- Any character that no word holds parts the words before it from those behind it. -/
theorem words_append_cons (hc : isWord c = false) (s rest : List Char) :
    words (s ++ c :: rest) = words s ++ words rest := by
  rw [words, List.splitOnP_append_cons s rest (by rw [hc]; rfl), List.filter_append, words, words]

theorem words_cons (hc : isWord c = false) (s : List Char) : words (c :: s) = words s :=
  words_append_cons hc [] s

theorem words_of_forall (hs : ∀ c ∈ s, isWord c = true) (hne : s ≠ []) : words s = [s] := by
  rw [words, List.splitOnP_eq_singleton fun c hc => by rw [hs c hc]; rfl]
  exact List.filter_cons_of_pos (by simpa using hne)

/-- Characters behind a text that no word holds add no words. -/
theorem words_append_of_forall (hrest : ∀ c ∈ rest, isWord c = false) (s : List Char) :
    words (s ++ rest) = words s := by
  induction rest generalizing s with
  | nil => rw [List.append_nil]
  | cons c rest ih =>
    have htail : words rest = [] := ih (fun d hd => hrest d (.tail _ hd)) []
    rw [words_append_cons (hrest c (.head _)), htail, List.append_nil]

/-- Texts that have the same word characters in the same places have the same words. -/
theorem words_congr {t : List Char}
    (h : List.Forall₂ (fun c d => c = d ∨ isWord c = false ∧ isWord d = false) s t) :
    words s = words t := by
  -- The characters that both texts have passed are kept in front, since a word may go on there.
  suffices hfront : ∀ front, words (front ++ s) = words (front ++ t) from hfront []
  induction h with
  | nil => exact fun front => rfl
  | @cons c d s t hcd hst ih =>
    intro front
    rcases hcd with rfl | ⟨hc, hd⟩
    · simpa using ih (front ++ [c])
    · rw [words_append_cons hc, words_append_cons hd]
      exact congrArg (words front ++ ·) (ih [])

/-- A text that starts with a word character starts with its first word. -/
theorem words_cons_of_isWord (hc : isWord c = true) (s : List Char) :
    words (c :: s) = (c :: s).takeWhile isWord :: words ((c :: s).dropWhile isWord) := by
  have hall : ∀ d ∈ (c :: s).takeWhile isWord, isWord d = true := fun d =>
    List.mem_takeWhile_imp
  have hne : (c :: s).takeWhile isWord ≠ [] := by simp [hc]
  calc words (c :: s)
      = words ((c :: s).takeWhile isWord ++ (c :: s).dropWhile isWord) := by
        rw [List.takeWhile_append_dropWhile]
    _ = (c :: s).takeWhile isWord :: words ((c :: s).dropWhile isWord) := by
        cases h : (c :: s).dropWhile isWord with
        | nil => rw [List.append_nil, words_of_forall hall hne, words_nil]
        | cons d rest =>
          have hd : isWord d = false := by
            have := List.head?_dropWhile_not isWord (c :: s)
            rw [h] at this
            exact this
          rw [words_append_cons hd, words_of_forall hall hne, words_cons hd]
          rfl

/-- Texts with the same words that start with the same character start with the same word. -/
theorem takeWhile_eq_of_words {t : List Char} (hwords : words s = words t)
    (hhead : s.head? = t.head?) : s.takeWhile isWord = t.takeWhile isWord := by
  cases s with
  | nil =>
    obtain rfl := List.head?_eq_none_iff.mp hhead.symm
    rfl
  | cons c s =>
    obtain ⟨t, rfl⟩ := List.head?_eq_some_iff.mp hhead.symm
    by_cases hc : isWord c = true
    · rw [words_cons_of_isWord hc, words_cons_of_isWord hc] at hwords
      exact (List.cons.inj hwords).1
    · rw [List.takeWhile_cons_of_neg hc, List.takeWhile_cons_of_neg hc]

/-! ## Whole words -/

/-- Only word characters match the letters of the word when case is disregarded. -/
def IsKey (word : List Char) : Prop :=
  ∀ c, fold c ∈ word → isWord c = true

theorem stripWord_eq_some_iff :
    stripWord word s = some rest ↔ ∃ w, s = w ++ rest ∧ w.map fold = word := by
  induction word generalizing s with
  | nil =>
    rw [stripWord, Option.some.injEq]
    constructor
    · rintro rfl
      exact ⟨[], rfl, rfl⟩
    · rintro ⟨w, rfl, hw⟩
      rw [List.map_eq_nil_iff.mp hw, List.nil_append]
  | cons l word ih =>
    cases s with
    | nil =>
      rw [stripWord]
      refine ⟨nofun, ?_⟩
      rintro ⟨w, happ, hw⟩
      rw [(List.nil_eq_append_iff.mp happ).1] at hw
      cases hw
    | cons c s =>
      rw [stripWord]
      constructor
      · intro h
        split at h
        case isTrue hc =>
          obtain ⟨w, rfl, hw⟩ := ih.mp h
          exact ⟨c :: w, rfl, by rw [List.map_cons, hw, eq_of_beq hc]⟩
        case isFalse => cases h
      · rintro ⟨_ | ⟨d, w⟩, happ, hw⟩
        · cases hw
        · obtain ⟨rfl, rfl⟩ := List.cons.inj happ
          obtain ⟨hl, hw⟩ := List.cons.inj hw
          rw [if_pos (beq_iff_eq.mpr hl)]
          exact ih.mpr ⟨w, rfl, hw⟩

theorem endsWord_iff : endsWord s = true ↔ s.takeWhile isWord = [] := by
  cases s with
  | nil => simp [endsWord]
  | cons c s => cases h : isWord c <;> simp [endsWord, h]

/-- A word stands at the start of a text as a whole word if it is the stretch of word characters
that the text starts with. -/
theorem wholeWord?_cons (hkey : IsKey word) (keys : List (List Char)) (s : List Char) :
    wholeWord? (word :: keys) s
      = if (s.takeWhile isWord).map fold = word then some (s.takeWhile isWord)
        else wholeWord? keys s := by
  rw [wholeWord?, wholeWord?, List.findSome?_cons]
  cases h : stripWord word s with
  | none =>
    have hne : (s.takeWhile isWord).map fold ≠ word := fun heq => by
      have hsome : stripWord word s = some (s.dropWhile isWord) :=
        stripWord_eq_some_iff.mpr ⟨_, List.takeWhile_append_dropWhile.symm, heq⟩
      rw [h] at hsome
      cases hsome
    rw [if_neg hne]
  | some rest =>
    obtain ⟨w, rfl, rfl⟩ := stripWord_eq_some_iff.mp h
    have hw : ∀ c ∈ w, isWord c = true := fun c hc => hkey c (List.mem_map_of_mem hc)
    rw [List.takeWhile_append_of_pos hw]
    by_cases hend : endsWord rest = true
    · rw [endsWord_iff.mp hend, List.append_nil, if_pos rfl]
      simp [hend]
    · have hne : (w ++ rest.takeWhile isWord).map fold ≠ w.map fold := fun heq => by
        rw [List.map_append, List.append_right_eq_self, List.map_eq_nil_iff] at heq
        exact hend (endsWord_iff.mpr heq)
      rw [if_neg hne]
      simp [hend]

/-- The finder sees the stretch of word characters that the text starts with. -/
theorem wholeWord?_eq (hkeys : ∀ word ∈ keys, IsKey word) (s : List Char) :
    wholeWord? keys s
      = if (s.takeWhile isWord).map fold ∈ keys then some (s.takeWhile isWord) else none := by
  induction keys with
  | nil => rfl
  | cons word keys ih =>
    rw [wholeWord?_cons (hkeys word (.head _)), ih fun key hkey => hkeys key (.tail _ hkey)]
    by_cases h : (s.takeWhile isWord).map fold = word
    · rw [if_pos h, if_pos (h ▸ .head _)]
    · rw [if_neg h]
      simp only [List.mem_cons, h, false_or]

theorem wholeWord?_eq_some_iff (hkeys : ∀ word ∈ keys, IsKey word) :
    wholeWord? keys s = some w ↔
      w.map fold ∈ keys ∧ ∃ rest, s = w ++ rest ∧ endsWord rest = true := by
  rw [wholeWord?_eq hkeys]
  constructor
  · intro h
    obtain ⟨hmem, hw⟩ := Option.ite_none_right_eq_some.mp h
    obtain rfl := Option.some.inj hw
    refine ⟨hmem, s.dropWhile isWord, List.takeWhile_append_dropWhile.symm, ?_⟩
    have := List.head?_dropWhile_not isWord s
    cases hrest : s.dropWhile isWord with
    | nil => rfl
    | cons d rest =>
      rw [hrest] at this
      simpa [endsWord] using this
  · rintro ⟨hmem, rest, rfl, hend⟩
    have hw : ∀ c ∈ w, isWord c = true := fun c hc =>
      hkeys _ hmem c (List.mem_map_of_mem hc)
    rw [List.takeWhile_append_of_pos hw, endsWord_iff.mp hend, List.append_nil, if_pos hmem]

/-! ## The first whole word -/

/-- Where a word goes on, the finder passes the rest of it. Elsewhere it looks at the words that are
left, one by one. -/
theorem findWord?_eq_find?_words (hkeys : ∀ word ∈ keys, IsKey word) (hnil : [] ∉ keys)
    (before : Option Char) (s : List Char) :
    findWord? keys before s
      = (words (if startsWord before then s else s.dropWhile isWord)).find?
          fun w => decide (w.map fold ∈ keys) := by
  induction s generalizing before with
  | nil => cases startsWord before <;> rfl
  | cons c s ih =>
    have hafter : startsWord (some c) = !isWord c := rfl
    rw [findWord?, ih (some c), hafter]
    cases hc : isWord c with
    | true =>
      cases startsWord before with
      | true =>
        rw [if_pos rfl, if_pos rfl, wholeWord?_eq hkeys, words_cons_of_isWord hc, List.find?_cons,
          List.dropWhile_cons_of_pos hc]
        by_cases h : ((c :: s).takeWhile isWord).map fold ∈ keys
        · simp only [h, if_true, decide_true]
        · simp only [h, if_false, decide_false]
          rfl
      | false => simp [hc]
    | false =>
      have hnone : wholeWord? keys (c :: s) = none := by
        rw [wholeWord?_eq hkeys, List.takeWhile_cons_of_neg (by rw [hc]; decide)]
        exact if_neg hnil
      cases startsWord before <;> simp [hnone, hc, words_cons hc]

/-- **What the finder finds depends on the words of the text alone.** -/
theorem findWord?_congr (hkeys : ∀ word ∈ keys, IsKey word) (hnil : [] ∉ keys)
    {s t : List Char} (h : words s = words t) : findWord? keys none s = findWord? keys none t := by
  rw [findWord?_eq_find?_words hkeys hnil, findWord?_eq_find?_words hkeys hnil]
  exact congrArg _ h

end ReportSql.Text
