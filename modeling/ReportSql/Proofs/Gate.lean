import ReportSql.Gate.Verdict
import ReportSql.Proofs.Segments
import ReportSql.Proofs.Words

/-!
# Comments and the gate

The verdict on a written statement is a matter of what can be read of it: its characters outside of
comments. A comment neither hides a word from the gate nor makes one: it ends the words beside it,
as a blank does, and what it holds does not count.
-/

namespace ReportSql.Gate

open Text (words isWord fold)

/-! ## What can be read of a statement -/

/-- What can be read of a segment. -/
def Segment.visible : Segment → List (Option Char)
  | comment _ => [none]
  | segment => segment.text.map some

/-- The characters of a statement outside of comments, with `none` in the place of a comment. -/
def visible (s : List Char) : List (Option Char) :=
  (segments s).flatMap Segment.visible

/-- There is nothing but blanks and semicolons. -/
def IsIdle (t : List (Option Char)) : Prop :=
  ∀ c, some c ∈ t → c = ';' ∨ Text.isBlank c = true

/-- No word goes on with what stands there: an end of the text, a comment, or a character that words
do not consist of. -/
def EndsWord (beside : Option (Option Char)) : Prop :=
  ∀ c, beside = some (some c) → isWord c = false

/-- Behind `before` stands `w` as a whole word, which is one of the keys if case is disregarded. -/
def StandsBehind (keys : List (List Char)) (t before : List (Option Char)) (w : List Char) : Prop :=
  ∃ after, t = before ++ w.map some ++ after ∧ w.map fold ∈ keys
    ∧ EndsWord before.getLast? ∧ EndsWord after.head?

/-- Behind `before` stands the first of the keys that stand in the text as whole words. -/
def IsFirst (keys : List (List Char)) (t before : List (Option Char)) (w : List Char) : Prop :=
  StandsBehind keys t before w
    ∧ ∀ before' w', StandsBehind keys t before' w' → before.length ≤ before'.length

/-- Behind comments and blanks stands a word that reads. -/
def StartsReading (t : List (Option Char)) : Prop :=
  ∃ before w, StandsBehind readingWords t before w ∧ ∀ c, some c ∈ before → Text.isBlank c = true

/-! ## Finding words beside comments -/

/-- The text with a space in the place of each comment. -/
def blanked (t : List (Option Char)) : List Char :=
  t.map fun mark => mark.getD ' '

section

variable {keys : List (List Char)} {t pre rest before : List (Option Char)} {w : List Char}

theorem endsWord_iff (beside : Option (Option Char)) :
    EndsWord beside ↔ (beside.map fun mark => mark.getD ' ').any isWord = false := by
  rcases beside with _ | _ | c
  · simp [EndsWord]
  · simp [EndsWord, show isWord ' ' = false from rfl]
  · simp [EndsWord]

/-- Word characters are characters outside of comments. -/
theorem eq_map_some (h : ∀ c ∈ blanked t, isWord c = true) : t = (blanked t).map some := by
  induction t with
  | nil => rfl
  | cons mark t ih =>
    obtain ⟨hmark, ht⟩ := List.forall_mem_cons.mp h
    cases mark with
    | none => cases hmark
    | some c => exact congrArg (some c :: ·) (ih ht)

/-- The finder of whole words, put behind `before`, finds the key that stands there. -/
theorem standsBehind_iff (hkeys : ∀ word ∈ keys, Text.IsKey word) :
    StandsBehind keys (before ++ rest) before w ↔
      Text.startsWord (blanked before).getLast? = true
        ∧ Text.wholeWord? keys (blanked rest) = some w := by
  have hbefore : Text.startsWord (blanked before).getLast? = true ↔ EndsWord before.getLast? := by
    rw [endsWord_iff, blanked, List.getLast?_map, Text.startsWord, Bool.not_eq_true']
  have hafter : ∀ after, Text.endsWord (blanked after) = true ↔ EndsWord after.head? := by
    intro after
    rw [endsWord_iff, blanked, Text.endsWord, List.head?_map, Bool.not_eq_true']
  rw [hbefore, Text.wholeWord?_eq_some_iff hkeys]
  constructor
  · rintro ⟨after, happ, hmem, hstart, hend⟩
    rw [List.append_assoc, List.append_cancel_left_eq] at happ
    subst happ
    refine ⟨hstart, hmem, blanked after, ?_, (hafter after).mpr hend⟩
    simp [blanked, Function.comp_def]
  · rintro ⟨hstart, hmem, tail, happ, hend⟩
    obtain ⟨word, after, rfl, rfl, rfl⟩ := List.map_eq_append_iff.mp happ
    have hword : ∀ c ∈ blanked word, isWord c = true := by
      intro c hc
      exact hkeys _ hmem c (List.mem_map_of_mem hc)
    refine ⟨after, ?_, hmem, hstart, (hafter after).mp hend⟩
    rw [List.append_assoc]
    exact congrArg (fun word => before ++ (word ++ after)) (eq_map_some hword)

theorem StandsBehind.length_le (h : StandsBehind keys t before w) (hnil : [] ∉ keys) :
    before.length < t.length := by
  obtain ⟨after, rfl, hmem, -, -⟩ := h
  have hw : w ≠ [] := by
    rintro rfl
    exact hnil hmem
  have := List.length_pos_iff.mpr hw
  simp only [List.length_append, List.length_map]
  omega

theorem StandsBehind.eq_of_length (h : StandsBehind keys (pre ++ rest) before w)
    (hlength : before.length = pre.length) : before = pre := by
  obtain ⟨after, happ, -⟩ := h
  rw [List.append_assoc] at happ
  exact (List.append_inj_left happ hlength.symm).symm

/-- One step of the finder: it goes on where no key stands behind what it has passed. -/
theorem findWord?_blanked_cons (keys : List (List Char)) (pre rest : List (Option Char))
    (mark : Option Char) :
    Text.findWord? keys (blanked pre).getLast? (blanked (mark :: rest))
      = match (if Text.startsWord (blanked pre).getLast?
            then Text.wholeWord? keys (blanked (mark :: rest)) else none) with
        | some found => some found
        | none => Text.findWord? keys (blanked (pre ++ [mark])).getLast? (blanked rest) := by
  have hlast : (blanked (pre ++ [mark])).getLast? = some (mark.getD ' ') := by simp [blanked]
  rw [hlast]
  rfl

/-- If the finder finds nothing behind `pre`, no key stands there. -/
theorem length_lt_of_findWord? (hkeys : ∀ word ∈ keys, Text.IsKey word) (hnil : [] ∉ keys)
    (pre : List (Option Char))
    (hfind : Text.findWord? keys (blanked pre).getLast? (blanked rest) = none)
    (h : StandsBehind keys (pre ++ rest) before w) : before.length < pre.length := by
  induction rest generalizing pre with
  | nil => simpa using h.length_le hnil
  | cons mark rest ih =>
    rw [findWord?_blanked_cons] at hfind
    split at hfind
    case h_1 => cases hfind
    case h_2 hnone =>
      have hlt : before.length < pre.length + 1 := by
        simpa using ih (pre ++ [mark]) hfind (by simpa using h)
      by_contra hge
      obtain rfl := h.eq_of_length (by omega)
      obtain ⟨hstart, hword⟩ := (standsBehind_iff hkeys).mp h
      rw [if_pos hstart, hword] at hnone
      cases hnone

/-- What the finder finds behind `pre` is the first key there. -/
theorem exists_of_findWord? (hkeys : ∀ word ∈ keys, Text.IsKey word) (pre : List (Option Char))
    (hfind : Text.findWord? keys (blanked pre).getLast? (blanked rest) = some w) :
    ∃ before, StandsBehind keys (pre ++ rest) before w
      ∧ ∀ before' w', StandsBehind keys (pre ++ rest) before' w' →
          pre.length ≤ before'.length → before.length ≤ before'.length := by
  induction rest generalizing pre with
  | nil => cases hfind
  | cons mark rest ih =>
    rw [findWord?_blanked_cons] at hfind
    split at hfind
    case h_1 found hfound =>
      obtain rfl := Option.some.inj hfind
      obtain ⟨hstart, hword⟩ := Option.ite_none_right_eq_some.mp hfound
      exact ⟨pre, (standsBehind_iff hkeys).mpr ⟨hstart, hword⟩, fun _ _ _ hle => hle⟩
    case h_2 hnone =>
      obtain ⟨before, hstands, hfirst⟩ := ih (pre ++ [mark]) hfind
      rw [List.append_assoc] at hstands hfirst
      refine ⟨before, hstands, fun before' w' h' hle => hfirst before' w' h' ?_⟩
      -- a key before that one would stand right behind `pre`, where the finder has looked
      by_contra hlt
      rw [List.length_append, List.length_singleton] at hlt
      obtain rfl := h'.eq_of_length (by omega)
      obtain ⟨hstart, hword⟩ := (standsBehind_iff hkeys).mp h'
      rw [if_pos hstart, hword] at hnone
      cases hnone

/-- At one place of a text stands one whole word. -/
theorem StandsBehind.unique (hkeys : ∀ word ∈ keys, Text.IsKey word)
    {before' : List (Option Char)} {w' : List Char} (h : StandsBehind keys t before w)
    (h' : StandsBehind keys t before' w') (hlength : before'.length = before.length) : w' = w := by
  obtain ⟨rest, rfl⟩ : ∃ rest, t = before ++ rest := by
    obtain ⟨after, rfl, -⟩ := h
    exact ⟨_, List.append_assoc _ _ _⟩
  obtain rfl := h'.eq_of_length hlength
  obtain ⟨-, hw⟩ := (standsBehind_iff hkeys).mp h
  obtain ⟨-, hw'⟩ := (standsBehind_iff hkeys).mp h'
  exact Option.some.inj (hw'.symm.trans hw)

theorem exists_isFirst (hkeys : ∀ word ∈ keys, Text.IsKey word)
    (hfind : Text.findWord? keys none (blanked t) = some w) :
    ∃ before, IsFirst keys t before w := by
  obtain ⟨before, hstands, hle⟩ := exists_of_findWord? hkeys [] hfind
  exact ⟨before, hstands, fun before' w' h' => hle before' w' h' (Nat.zero_le _)⟩

theorem findWord?_eq_none_iff (hkeys : ∀ word ∈ keys, Text.IsKey word) (hnil : [] ∉ keys) :
    Text.findWord? keys none (blanked t) = none ↔ ∀ before w, ¬ StandsBehind keys t before w := by
  constructor
  · intro hnone before w h
    exact absurd (length_lt_of_findWord? hkeys hnil [] hnone h) (Nat.not_lt_zero _)
  · intro h
    cases hfind : Text.findWord? keys none (blanked t) with
    | none => rfl
    | some w =>
      obtain ⟨before, hstands, -⟩ := exists_isFirst hkeys hfind
      exact absurd hstands (h before w)

/-- **The finder finds the first key that stands in the text as a whole word.** -/
theorem findWord?_eq_some_iff (hkeys : ∀ word ∈ keys, Text.IsKey word) (hnil : [] ∉ keys) :
    Text.findWord? keys none (blanked t) = some w ↔ ∃ before, IsFirst keys t before w := by
  refine ⟨exists_isFirst hkeys, ?_⟩
  rintro ⟨before, hstands, hle⟩
  cases hfind : Text.findWord? keys none (blanked t) with
  | none => exact absurd hstands ((findWord?_eq_none_iff hkeys hnil).mp hfind before w)
  | some v =>
    obtain ⟨before', hstands', hle'⟩ := exists_isFirst hkeys hfind
    have hlength : before'.length = before.length :=
      le_antisymm (hle' _ _ hstands) (hle _ _ hstands')
    rw [hstands.unique hkeys hstands' hlength]

end

/-! ## The words of the normal form -/

section

variable {s : List Char}

/-- A piece as a character: a space for a gap. -/
def Piece.blanked : Piece → Char
  | char c => c
  | gap => ' '

theorem isWord_space : isWord ' ' = false :=
  rfl

theorem isWord_of_isTrailing {c : Char} (hc : isTrailing c = true) : isWord c = false := by
  rw [isTrailing, Bool.or_eq_true] at hc
  rcases hc with hc | hc
  · rw [eq_of_beq hc]
    rfl
  · exact Text.isWord_of_isBlank hc

/-- Behind a gap the words start anew. -/
theorem words_append_spaced_true (front : List Char) (ps : List Piece) :
    words (front ++ spaced true ps) = words front ++ words (spaced false ps) := by
  induction ps generalizing front with
  | nil => simp [spaced]
  | cons p ps ih =>
    cases p with
    | gap =>
      have hgap : words (spaced true ps) = words (spaced false ps) := ih []
      rw [spaced, spaced, ih, hgap]
    | char c => exact Text.words_append_cons isWord_space front _

/-- One space for a row of gaps leaves the words as they are. -/
theorem words_spaced (ps : List Piece) :
    words (spaced false ps) = words (ps.map Piece.blanked) := by
  -- the characters in front are kept, since the last word of them may go on in the pieces
  suffices hfront : ∀ front, words (front ++ spaced false ps)
      = words (front ++ ps.map Piece.blanked) from hfront []
  induction ps with
  | nil => exact fun front => rfl
  | cons p ps ih =>
    intro front
    cases p with
    | gap =>
      have hps : words (spaced false ps) = words (ps.map Piece.blanked) := ih []
      calc words (front ++ spaced true ps)
          = words front ++ words (spaced false ps) := words_append_spaced_true front ps
        _ = words front ++ words (ps.map Piece.blanked) := by rw [hps]
        _ = words (front ++ ' ' :: ps.map Piece.blanked) :=
          (Text.words_append_cons isWord_space front _).symm
    | char c => simpa [spaced, Piece.blanked] using ih (front ++ [c])

theorem words_dropWhile_gap (ps : List Piece) :
    words ((ps.dropWhile fun p => p == .gap).map Piece.blanked) = words (ps.map Piece.blanked) := by
  induction ps with
  | nil => rfl
  | cons p ps ih =>
    cases p with
    | gap => exact ih.trans (Text.words_cons isWord_space _).symm
    | char c => rfl

/-- What is dropped at the end of a statement. -/
theorem exists_trimTrailing_append (s : List Char) :
    ∃ tail, trimTrailing s ++ tail = s ∧ ∀ c ∈ tail, isTrailing c = true := by
  refine ⟨(s.reverse.takeWhile isTrailing).reverse, ?_, ?_⟩
  · rw [trimTrailing, ← List.reverse_append, List.takeWhile_append_dropWhile, List.reverse_reverse]
  · intro c hc
    exact List.mem_takeWhile_imp (List.mem_reverse.mp hc)

theorem words_trimTrailing (s : List Char) : words (trimTrailing s) = words s := by
  obtain ⟨tail, happ, htail⟩ := exists_trimTrailing_append s
  calc words (trimTrailing s)
      = words (trimTrailing s ++ tail) :=
        (Text.words_append_of_forall (fun c hc => isWord_of_isTrailing (htail c hc)) _).symm
    _ = words s := by rw [happ]

/-- The pieces of segments and what can be read of them have their word characters in the same
places. -/
theorem forall₂_pieces_visible {segs : List Segment} (h : ∀ segment ∈ segs, segment.Proper) :
    List.Forall₂ (fun c d => c = d ∨ isWord c = false ∧ isWord d = false)
      ((segs.flatMap Segment.pieces).map Piece.blanked)
      (blanked (segs.flatMap Segment.visible)) := by
  induction segs with
  | nil => exact .nil
  | cons segment segs ih =>
    obtain ⟨hproper, hrest⟩ := List.forall_mem_cons.mp h
    rw [List.flatMap_cons, List.flatMap_cons, List.map_append, blanked, List.map_append]
    refine List.rel_append ?_ (ih hrest)
    cases segment with
    | quoted quote rest =>
      change List.Forall₂ _ (((quote :: rest).map Piece.char).map Piece.blanked)
        (((quote :: rest).map some).map _)
      rw [List.map_map, List.map_map]
      exact List.forall₂_same.mpr fun c _ => .inl rfl
    | comment text => exact .cons (.inl rfl) .nil
    | blank c => exact .cons (.inr ⟨isWord_space, Text.isWord_of_isBlank hproper⟩) .nil
    | char c => exact .cons (.inl rfl) .nil

/-- **The normal form keeps the words.** Taking comments out neither glues two words together nor
parts one. -/
theorem words_normalize (s : List Char) : words (normalize s) = words (blanked (visible s)) := by
  rw [normalize, words_trimTrailing, words_spaced, words_dropWhile_gap, pieces_plain, visible]
  exact Text.words_congr (forall₂_pieces_visible (segments_proper s))

/-! ## Nothing to read -/

theorem trimTrailing_eq_nil_iff : trimTrailing s = [] ↔ ∀ c ∈ s, isTrailing c = true := by
  simp [trimTrailing]

theorem forall_mem_spaced (after : Bool) (ps : List Piece) :
    (∀ c ∈ spaced after ps, isTrailing c = true) ↔ ∀ c, .char c ∈ ps → isTrailing c = true := by
  induction ps generalizing after with
  | nil => simp [spaced]
  | cons p ps ih =>
    cases p with
    | gap => simpa [spaced] using ih true
    | char c =>
      have hspace : isTrailing ' ' = true := by decide
      cases after <;> simp [spaced, ih, hspace]

theorem char_mem_dropWhile_gap {c : Char} (ps : List Piece) :
    .char c ∈ ps.dropWhile (fun p => p == .gap) ↔ .char c ∈ ps := by
  induction ps with
  | nil => rfl
  | cons p ps ih =>
    cases p with
    | gap => simpa using ih
    | char d => rfl

/-- A segment is idle if what it adds to the pieces may be dropped. -/
theorem Segment.isIdle_visible_iff {segment : Segment} (h : segment.Proper) :
    IsIdle segment.visible ↔ ∀ c, .char c ∈ segment.pieces → isTrailing c = true := by
  cases segment with
  | quoted quote rest => simp [IsIdle, visible, text, pieces, isTrailing]
  | comment text => simp [IsIdle, visible, pieces]
  | blank c =>
    have hc : Text.isBlank c = true := h
    simp [IsIdle, visible, text, pieces, hc]
  | char c => simp [IsIdle, visible, text, pieces, isTrailing]

theorem isIdle_visible_iff (s : List Char) :
    IsIdle (visible s) ↔ ∀ c, .char c ∈ pieces .plain s → isTrailing c = true := by
  calc IsIdle (visible s)
      ↔ ∀ segment ∈ segments s, IsIdle segment.visible := by
        simp only [IsIdle, visible, List.mem_flatMap]
        exact ⟨fun h segment hmem c hc => h c ⟨segment, hmem, hc⟩,
          fun h c ⟨segment, hmem, hc⟩ => h segment hmem c hc⟩
    _ ↔ ∀ segment ∈ segments s, ∀ c, .char c ∈ segment.pieces → isTrailing c = true :=
        forall₂_congr fun segment hmem =>
          Segment.isIdle_visible_iff (segments_proper s segment hmem)
    _ ↔ ∀ c, .char c ∈ pieces .plain s → isTrailing c = true := by
        simp only [pieces_plain, List.mem_flatMap]
        exact ⟨fun h c ⟨segment, hmem, hc⟩ => h segment hmem c hc,
          fun h segment hmem c hc => h c ⟨segment, hmem, hc⟩⟩

/-- **The normal form is empty where nothing can be read but blanks and semicolons.** -/
theorem normalize_eq_nil_iff : normalize s = [] ↔ IsIdle (visible s) := by
  rw [normalize, trimTrailing_eq_nil_iff, forall_mem_spaced, isIdle_visible_iff]
  simp only [char_mem_dropWhile_gap]

/-! ## The first word -/

/-- A comment or a blank. -/
def isSpacing (mark : Option Char) : Bool :=
  mark.all Text.isBlank

theorem isWord_of_isSpacing {mark : Option Char} (h : isSpacing mark = true) :
    isWord (mark.getD ' ') = false := by
  cases mark with
  | none => exact isWord_space
  | some c => exact Text.isWord_of_isBlank h

theorem words_dropWhile_isSpacing (t : List (Option Char)) :
    words (blanked (t.dropWhile isSpacing)) = words (blanked t) := by
  induction t with
  | nil => rfl
  | cons mark t ih =>
    by_cases h : isSpacing mark = true
    · rw [List.dropWhile_cons_of_pos h, ih]
      exact (Text.words_cons (isWord_of_isSpacing h) _).symm
    · rw [List.dropWhile_cons_of_neg h]

/-- Behind blanks and comments the pieces of segments go on as what can be read of them does. -/
theorem head?_dropWhile_pieces {segs : List Segment} (h : ∀ segment ∈ segs, segment.Proper) :
    (((segs.flatMap Segment.pieces).dropWhile fun p => p == .gap).map Piece.blanked).head?
      = (blanked ((segs.flatMap Segment.visible).dropWhile isSpacing)).head? := by
  induction segs with
  | nil => rfl
  | cons segment segs ih =>
    obtain ⟨hproper, hrest⟩ := List.forall_mem_cons.mp h
    cases segment with
    | quoted quote rest =>
      have hquote : Text.isBlank quote = false := by
        rcases (Bool.or_eq_true _ _).mp hproper with h | h
        all_goals rw [eq_of_beq h]; rfl
      simp [Segment.pieces, Segment.visible, Segment.text, isSpacing, hquote, blanked,
        Piece.blanked]
    | comment text => exact ih hrest
    | blank c =>
      have hc : Text.isBlank c = true := hproper
      simpa [Segment.pieces, Segment.visible, Segment.text, isSpacing, hc] using ih hrest
    | char c =>
      have hc : Text.isBlank c = false := hproper.2
      simp [Segment.pieces, Segment.visible, Segment.text, isSpacing, hc, blanked, Piece.blanked]

theorem head?_spaced {ps : List Piece} (h : ps.head? ≠ some .gap) :
    (spaced false ps).head? = (ps.map Piece.blanked).head? := by
  cases ps with
  | nil => rfl
  | cons p ps =>
    cases p with
    | gap => exact absurd rfl h
    | char c => rfl

/-- The normal form starts with what can be read first, comments and blanks apart. -/
theorem head?_normalize (h : normalize s ≠ []) :
    (normalize s).head? = (blanked ((visible s).dropWhile isSpacing)).head? := by
  have hgap : ((pieces .plain s).dropWhile fun p => p == .gap).head? ≠ some .gap := by
    intro hhead
    have := List.head?_dropWhile_not (fun p => p == .gap) (pieces .plain s)
    rw [hhead] at this
    cases this
  obtain ⟨tail, happ, -⟩ := exists_trimTrailing_append
    (spaced false ((pieces .plain s).dropWhile fun p => p == .gap))
  calc (normalize s).head?
      = (normalize s ++ tail).head? := (List.head?_append_of_ne_nil _ h).symm
    _ = (spaced false ((pieces .plain s).dropWhile fun p => p == .gap)).head? :=
        congrArg List.head? happ
    _ = (((pieces .plain s).dropWhile fun p => p == .gap).map Piece.blanked).head? :=
        head?_spaced hgap
    _ = (blanked ((visible s).dropWhile isSpacing)).head? := by
        rw [pieces_plain]
        exact head?_dropWhile_pieces (segments_proper s)

theorem isKey_of_isLower {word : List Char} (h : word.all Char.isLower = true) :
    Text.IsKey word := by
  intro c hc
  exact Text.isWord_of_fold (List.all_eq_true.mp h _ hc)

theorem isKey_of_mem_readingWords : ∀ word ∈ readingWords, Text.IsKey word := by
  have hlower : ∀ word ∈ readingWords, word.all Char.isLower = true := by decide
  exact fun word hmem => isKey_of_isLower (hlower word hmem)

theorem isKey_of_mem_forbiddenWords : ∀ word ∈ forbiddenWords, Text.IsKey word := by
  have hlower : ∀ word ∈ forbiddenWords, word.all Char.isLower = true := by decide
  exact fun word hmem => isKey_of_isLower (hlower word hmem)

/-- The word that a reading text starts with stands where its comments and blanks end. -/
theorem startsReading_iff {t : List (Option Char)} :
    StartsReading t ↔
      (Text.wholeWord? readingWords (blanked (t.dropWhile isSpacing))).isSome = true := by
  constructor
  · rintro ⟨before, w, hstands, hbefore⟩
    have hspacing : ∀ mark ∈ before, isSpacing mark = true := by
      intro mark hmark
      cases mark with
      | none => rfl
      | some c => exact hbefore c hmark
    obtain ⟨after, rfl, hmem, -⟩ := id hstands
    have hdrop : (before ++ w.map some ++ after).dropWhile isSpacing = w.map some ++ after := by
      rw [List.append_assoc, List.dropWhile_append_of_pos hspacing]
      cases w with
      | nil => exact absurd hmem (by decide)
      | cons c w =>
        refine List.dropWhile_cons_of_neg fun hc => ?_
        -- a key starts with a word character, and spacing holds none
        have hword : isWord c = true := isKey_of_mem_readingWords _ hmem c (.head _)
        have hblank : isWord c = false := isWord_of_isSpacing hc
        rw [hword] at hblank
        cases hblank
    rw [List.append_assoc] at hstands
    obtain ⟨-, hw⟩ := (standsBehind_iff isKey_of_mem_readingWords).mp hstands
    rw [hdrop, hw]
    rfl
  · intro h
    obtain ⟨w, hw⟩ := Option.isSome_iff_exists.mp h
    have hspacing : ∀ mark ∈ t.takeWhile isSpacing, isSpacing mark = true := fun mark =>
      List.mem_takeWhile_imp
    refine ⟨t.takeWhile isSpacing, w, ?_, fun c hc => hspacing _ hc⟩
    have hstart : Text.startsWord (blanked (t.takeWhile isSpacing)).getLast? = true := by
      rw [Text.startsWord, Bool.not_eq_true', blanked, List.getLast?_map]
      cases hlast : (t.takeWhile isSpacing).getLast? with
      | none => rfl
      | some mark =>
        exact isWord_of_isSpacing (hspacing mark (List.mem_of_getLast? hlast))
    have hstands := (standsBehind_iff isKey_of_mem_readingWords).mpr ⟨hstart, hw⟩
    rwa [List.takeWhile_append_dropWhile] at hstands

/-- The gate looks for a reading word where it can be read first, comments and blanks apart. -/
theorem wholeWord?_normalize (h : normalize s ≠ []) :
    Text.wholeWord? readingWords (normalize s)
      = Text.wholeWord? readingWords (blanked ((visible s).dropWhile isSpacing)) := by
  have hwords : words (normalize s) = words (blanked ((visible s).dropWhile isSpacing)) := by
    rw [words_normalize, words_dropWhile_isSpacing]
  rw [Text.wholeWord?_eq isKey_of_mem_readingWords, Text.wholeWord?_eq isKey_of_mem_readingWords,
    Text.takeWhile_eq_of_words hwords (head?_normalize h)]

/-! ## The verdict -/

theorem check_of_isIdle (h : IsIdle (visible s)) : check s = .error .empty := by
  rw [check, normalize_eq_nil_iff.mpr h]
  rfl

theorem check_of_not_startsReading (h : ¬ IsIdle (visible s))
    (hreads : ¬ StartsReading (visible s)) : check s = .error .notReadOnly := by
  have hne : normalize s ≠ [] := fun hnil => h (normalize_eq_nil_iff.mp hnil)
  have hnone : (Text.wholeWord? readingWords (normalize s)).isNone = true := by
    rw [wholeWord?_normalize hne]
    simpa [startsReading_iff] using hreads
  rw [check, judge, if_neg (by simpa using hne), if_pos hnone]

theorem check_of_startsReading (h : ¬ IsIdle (visible s)) (hreads : StartsReading (visible s)) :
    check s = (Text.findWord? forbiddenWords none (blanked (visible s))).elim (.ok (normalize s))
      fun word => .error (.forbidden (.ofList (Text.upper word))) := by
  have hne : normalize s ≠ [] := fun hnil => h (normalize_eq_nil_iff.mp hnil)
  have hsome : ¬ (Text.wholeWord? readingWords (normalize s)).isNone = true := by
    rw [wholeWord?_normalize hne, Option.isNone_iff_eq_none, ← Option.not_isSome_iff_eq_none,
      not_not]
    exact startsReading_iff.mp hreads
  have hfind : Text.findWord? forbiddenWords none (normalize s)
      = Text.findWord? forbiddenWords none (blanked (visible s)) :=
    Text.findWord?_congr isKey_of_mem_forbiddenWords (by decide) (words_normalize s)
  rw [check, judge, if_neg (by simpa using hne), if_neg hsome, hfind]
  cases Text.findWord? forbiddenWords none (blanked (visible s)) <;> rfl

/-- **Comments neither hide nor forge anything.** A statement falls into segments, and the verdict
on it is a matter of what stands outside of comments. The statement is empty if there is nothing but
blanks and semicolons; it does not read if its first text is not the whole word of a statement that
reads; it is forbidden if a forbidden word stands anywhere as a whole word, and the first such word
is named in upper case; and otherwise it is let through. -/
theorem check_verdict (s : List Char) :
    (segments s).flatMap Segment.text = s
      ∧ (check s = .error .empty ↔ IsIdle (visible s))
      ∧ (check s = .error .notReadOnly ↔ ¬ IsIdle (visible s) ∧ ¬ StartsReading (visible s))
      ∧ (∀ k, check s = .error (.forbidden k) ↔
          ¬ IsIdle (visible s) ∧ StartsReading (visible s)
            ∧ ∃ before w, IsFirst forbiddenWords (visible s) before w
                ∧ k = .ofList (Text.upper w))
      ∧ (check s = .ok (normalize s) ↔
          ¬ IsIdle (visible s) ∧ StartsReading (visible s)
            ∧ ∀ before w, ¬ StandsBehind forbiddenWords (visible s) before w) := by
  refine ⟨segments_text s, ?_⟩
  by_cases hidle : IsIdle (visible s)
  · simp [check_of_isIdle hidle, hidle]
  by_cases hreads : StartsReading (visible s)
  case neg => simp [check_of_not_startsReading hidle hreads, hidle, hreads]
  rw [check_of_startsReading hidle hreads]
  have hkeys := isKey_of_mem_forbiddenWords
  have hnil : [] ∉ forbiddenWords := by decide
  cases hfind : Text.findWord? forbiddenWords none (blanked (visible s)) with
  | none =>
    have hnone := (findWord?_eq_none_iff hkeys hnil).mp hfind
    have hfirst : ∀ before w, ¬ IsFirst forbiddenWords (visible s) before w :=
      fun before w h => hnone before w h.1
    simp [hidle, hreads, hnone, hfirst]
  | some w =>
    rw [Option.elim_some]
    obtain ⟨before, hfirst⟩ := (findWord?_eq_some_iff hkeys hnil).mp hfind
    have hunique : ∀ before' w', IsFirst forbiddenWords (visible s) before' w' → w' = w := by
      intro before' w' h'
      have hfind' := (findWord?_eq_some_iff hkeys hnil).mpr ⟨before', h'⟩
      exact Option.some.inj (hfind'.symm.trans hfind)
    refine ⟨by simp [hidle], by simp [hreads], fun k => ?_, ?_⟩
    · constructor
      · intro h
        cases h
        exact ⟨hidle, hreads, before, w, hfirst, rfl⟩
      · rintro ⟨-, -, before', w', hfirst', rfl⟩
        rw [hunique before' w' hfirst']
    · constructor
      · exact nofun
      · rintro ⟨-, -, hnone⟩
        exact absurd hfirst.1 (hnone before w)

example :
    check "/* SELECT */ with '--' as x -- DROP\nDELETE/**/FROM y".toList
      = .error (.forbidden "DELETE") := by
  decide +kernel

end

end ReportSql.Gate
