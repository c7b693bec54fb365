import Mathlib.Data.List.Chain
import Mathlib.Data.List.DropRight
import ReportSql.Proofs.Segments

/-!
# What the normal form keeps

The fragments of a written statement are its quoted texts and the characters outside of quotes,
comments and blanks. The normal form holds the fragments in their order, with one space where a
comment or a blank stood between two of them, and drops nothing but semicolons and spaces at its
end. Read again, it falls into the same fragments: where the gaps were closed up, no comment opens
and no quoted text goes on.
-/

namespace ReportSql.Gate

/-! ## Fragments and gaps -/

namespace Segment

/-- A comment or a blank. All else is a fragment of the statement. -/
def isGap : Segment → Bool
  | comment _ | blank _ => true
  | quoted _ _ | char _ => false

/-- A quoted text is closed. -/
def Closed : Segment → Prop
  | quoted quote rest => quote ∈ rest
  | _ => True

instance : DecidablePred Closed
  | quoted quote rest => inferInstanceAs (Decidable (quote ∈ rest))
  | comment _ | blank _ | char _ => isTrue trivial

/-- A semicolon or a blank: what is dropped at the end of a statement. -/
def isDroppable : Segment → Bool
  | char c => c == ';'
  | blank _ => true
  | _ => false

end Segment

/-- The rows of fragments with no gap between them. -/
def runs (segs : List Segment) : List (List Segment) :=
  (segs.splitOnP Segment.isGap).filter fun run => !run.isEmpty

/-- The fragments with a space before each one that stands behind a gap; `after` tells whether a gap
has been passed. -/
def squeeze : Bool → List Segment → List Segment
  | _, [] => []
  | after, x :: segs =>
    if x.isGap then squeeze true segs
    else if after then .blank ' ' :: x :: squeeze false segs
    else x :: squeeze false segs

/-- The segments of the normal form with all that is dropped at its end. -/
def content (s : List Char) : List Segment :=
  squeeze false ((segments s).dropWhile Segment.isGap)

section

variable {x : Segment} {segs : List Segment} {after : Bool}

theorem squeeze_gap (hx : x.isGap = true) : squeeze after (x :: segs) = squeeze true segs := by
  rw [squeeze, if_pos hx]

theorem squeeze_false_fragment (hx : x.isGap = false) :
    squeeze false (x :: segs) = x :: squeeze false segs := by
  simp [squeeze, hx]

theorem squeeze_true_fragment (hx : x.isGap = false) :
    squeeze true (x :: segs) = .blank ' ' :: x :: squeeze false segs := by
  simp [squeeze, hx]

/-- The only gaps left are single spaces. -/
theorem eq_blank_or_fragment_of_mem_squeeze {y : Segment} (h : y ∈ squeeze after segs) :
    y = .blank ' ' ∨ y ∈ segs ∧ y.isGap = false := by
  fun_induction squeeze after segs with
  | case1 => cases h
  | case2 after x segs hgap ih => exact (ih h).imp_right fun hy => ⟨.tail _ hy.1, hy.2⟩
  | case3 x segs hgap ih =>
    rcases List.mem_cons.mp h with rfl | h
    · exact .inl rfl
    · rcases List.mem_cons.mp h with rfl | h
      · exact .inr ⟨.head _, eq_false_of_ne_true hgap⟩
      · exact (ih h).imp_right fun hy => ⟨.tail _ hy.1, hy.2⟩
  | case4 after x segs hgap hafter ih =>
    rcases List.mem_cons.mp h with rfl | h
    · exact .inr ⟨.head _, eq_false_of_ne_true hgap⟩
    · exact (ih h).imp_right fun hy => ⟨.tail _ hy.1, hy.2⟩

/-! ## Rows of fragments -/

theorem intercalate_cons (between : Segment) (run : List Segment) (rest : List (List Segment)) :
    [between].intercalate (run :: rest) = run ++ rest.flatMap (between :: ·) := by
  induction rest generalizing run with
  | nil => simp [List.intercalate]
  | cons next rest ih => simpa [List.intercalate] using ih next

/-- The first row goes on with the fragments that are passed, and a space stands before each other
row. -/
theorem squeeze_eq_flatMap {run : List Segment} {rest : List (List Segment)}
    (h : segs.splitOnP Segment.isGap = run :: rest) :
    squeeze false segs = run ++ (rest.filter fun r => !r.isEmpty).flatMap (.blank ' ' :: ·) ∧
      squeeze true segs =
        ((run :: rest).filter fun r => !r.isEmpty).flatMap (.blank ' ' :: ·) := by
  induction segs generalizing run rest with
  | nil =>
    cases h
    exact ⟨rfl, rfl⟩
  | cons x segs ih =>
    obtain ⟨next, more, hnext⟩ :=
      List.exists_cons_of_ne_nil (List.splitOnP_ne_nil Segment.isGap segs)
    obtain ⟨hfalse, htrue⟩ := ih hnext
    rw [List.splitOnP_cons_eq_if_modifyHead, hnext] at h
    cases hx : x.isGap with
    | true =>
      rw [hx, if_pos rfl] at h
      obtain ⟨rfl, rfl⟩ := List.cons.inj h
      rw [squeeze_gap hx, squeeze_gap hx, htrue]
      exact ⟨rfl, rfl⟩
    | false =>
      rw [hx, if_neg Bool.false_ne_true] at h
      obtain ⟨rfl, rfl⟩ := List.cons.inj h
      rw [squeeze_false_fragment hx, squeeze_true_fragment hx, hfalse]
      exact ⟨rfl, rfl⟩

theorem runs_gap (hx : x.isGap = true) : runs (x :: segs) = runs segs := by
  simp [runs, List.splitOnP_cons_eq_if_modifyHead, hx]

/-- The content of a statement is its rows of fragments with a space between two of them. -/
theorem squeeze_dropWhile_eq_intercalate (segs : List Segment) :
    squeeze false (segs.dropWhile Segment.isGap) = [.blank ' '].intercalate (runs segs) := by
  induction segs with
  | nil => rfl
  | cons x segs ih =>
    cases hx : x.isGap with
    | true => rw [List.dropWhile_cons_of_pos hx, ih, runs_gap hx]
    | false =>
      obtain ⟨run, rest, hrun⟩ :=
        List.exists_cons_of_ne_nil (List.splitOnP_ne_nil Segment.isGap segs)
      have hsplit : (x :: segs).splitOnP Segment.isGap = (x :: run) :: rest := by
        simp [List.splitOnP_cons_eq_if_modifyHead, hx, hrun]
      rw [List.dropWhile_cons_of_neg (by simp [hx]), (squeeze_eq_flatMap hsplit).1, runs, hsplit,
        List.filter_cons_of_pos rfl, intercalate_cons]

/-! ## The text of the content -/

theorem spaced_false_append_chars (s : List Char) (ps : List Piece) :
    spaced false (s.map .char ++ ps) = s ++ spaced false ps := by
  induction s with
  | nil => rfl
  | cons c s ih => simp [spaced, ih]

/-- The pieces of a fragment are its characters. -/
theorem Segment.exists_text_of_fragment (hx : x.isGap = false) :
    ∃ c s, x.text = c :: s ∧ x.pieces = (c :: s).map .char := by
  cases x with
  | quoted quote rest => exact ⟨quote, rest, rfl, rfl⟩
  | char c => exact ⟨c, [], rfl, rfl⟩
  | comment _ | blank _ => cases hx

theorem Segment.pieces_gap (hx : x.isGap = true) : x.pieces = [.gap] := by
  cases x with
  | comment _ | blank _ => rfl
  | quoted _ _ | char _ => cases hx

theorem spaced_flatMap_pieces (after : Bool) (segs : List Segment) :
    spaced after (segs.flatMap Segment.pieces) = (squeeze after segs).flatMap Segment.text := by
  induction segs generalizing after with
  | nil => cases after <;> rfl
  | cons x segs ih =>
    rw [List.flatMap_cons]
    cases hx : x.isGap with
    | true =>
      rw [Segment.pieces_gap hx, squeeze_gap hx, ← ih]
      rfl
    | false =>
      obtain ⟨c, s, htext, hpieces⟩ := Segment.exists_text_of_fragment hx
      have hchars := spaced_false_append_chars s (segs.flatMap Segment.pieces)
      rw [ih] at hchars
      rw [hpieces, List.map_cons, List.cons_append]
      cases after with
      | false => rw [squeeze_false_fragment hx, List.flatMap_cons, htext, spaced, hchars]; rfl
      | true =>
        rw [squeeze_true_fragment hx, List.flatMap_cons, List.flatMap_cons, htext, spaced, hchars]
        rfl

theorem dropWhile_gap_flatMap_pieces (segs : List Segment) :
    (segs.flatMap Segment.pieces).dropWhile (fun p => p == .gap) =
      (segs.dropWhile Segment.isGap).flatMap Segment.pieces := by
  induction segs with
  | nil => rfl
  | cons x segs ih =>
    cases hx : x.isGap with
    | true =>
      rw [List.dropWhile_cons_of_pos hx, List.flatMap_cons, Segment.pieces_gap hx, ← ih]
      rfl
    | false =>
      obtain ⟨c, s, -, hpieces⟩ := Segment.exists_text_of_fragment hx
      rw [List.dropWhile_cons_of_neg (by simp [hx]), List.flatMap_cons, hpieces]
      rfl

end

/-- **The normal form is the text of the content without what is dropped at its end.** -/
theorem normalize_eq (s : List Char) :
    normalize s = trimTrailing ((content s).flatMap Segment.text) := by
  rw [normalize, pieces_plain, dropWhile_gap_flatMap_pieces, spaced_flatMap_pieces, content]

/-! ## Reading segments again -/

/-- A segment as it is read where no comments are: a closed quoted text ends with its quote. -/
def Segment.Readable : Segment → Prop
  | quoted quote rest => isQuote quote = true ∧ through (· == quote) rest = rest
  | comment _ => False
  | blank c => Text.isBlank c = true
  | char c => isQuote c = false ∧ Text.isBlank c = false

/-- Read from one text, the second segment is not taken for a part of the first, and the two do not
open a comment. -/
structure Adjoin (x y : Segment) : Prop where
  closed : x.Closed
  dashes : x = .char '-' → y ≠ .char '-'
  slashStar : x = .char '/' → y ≠ .char '*'

section

variable {x y : Segment} {segs : List Segment} {p : Char → Bool} {c : Char} {s t : List Char}

theorem adjoin_of_not_char (hx : x.Closed) (hchar : ∀ c, x ≠ .char c) : Adjoin x y :=
  ⟨hx, fun h => absurd h (hchar _), fun h => absurd h (hchar _)⟩

theorem adjoin_blank (hx : x.Closed) (c : Char) : Adjoin x (.blank c) :=
  ⟨hx, fun _ => nofun, fun _ => nofun⟩

theorem through_append (h : ∃ c ∈ s, p c = true) (t : List Char) :
    through p (s ++ t) = through p s ∧ behind p (s ++ t) = behind p s ++ t := by
  induction s with
  | nil => simp at h
  | cons c s ih =>
    cases hc : p c with
    | true => simp [through, behind, hc]
    | false =>
      have hs : ∃ c ∈ s, p c = true := by simpa [hc] using h
      simpa [through, behind, hc] using ih hs

theorem through_through (p : Char → Bool) (s : List Char) :
    through p (through p s) = through p s := by
  induction s with
  | nil => rfl
  | cons c s ih =>
    cases hc : p c with
    | true => simp [through, hc]
    | false => simpa [through, hc] using ih

theorem behind_eq_nil (h : through p s = s) : behind p s = [] := by
  have happ := through_append_behind p s
  rwa [h, List.append_right_eq_self] at happ

theorem exists_through_eq (h : c ∈ s) : ∃ front, through (· == c) s = front ++ [c] := by
  induction s with
  | nil => cases h
  | cons d s ih =>
    by_cases hd : d = c
    · exact ⟨[], by simp [through, hd]⟩
    · obtain ⟨front, hfront⟩ := ih ((List.mem_cons.mp h).resolve_left (Ne.symm hd))
      refine ⟨d :: front, ?_⟩
      rw [List.cons_append, ← hfront]
      simp [through, hd]

/-- Something stands behind a character of the kind only if there is one. -/
theorem mem_through_of_behind_ne_nil (h : behind (· == c) s ≠ []) : c ∈ through (· == c) s := by
  induction s with
  | nil => exact absurd rfl h
  | cons d s ih =>
    by_cases hd : d = c
    · simp [through, hd]
    · have hbehind : behind (· == c) (d :: s) = behind (· == c) s := by simp [behind, hd]
      have hthrough : through (· == c) (d :: s) = d :: through (· == c) s := by simp [through, hd]
      rw [hbehind] at h
      rw [hthrough]
      exact .tail _ (ih h)

theorem segments_readable (s : List Char) :
    ∀ x ∈ segments s, x.isGap = false → x.Readable := by
  fun_induction segments s with
  | case1 => simp
  | case2 s ih => exact List.forall_mem_cons.mpr ⟨by simp [Segment.isGap], ih⟩
  | case3 s ih => exact List.forall_mem_cons.mpr ⟨by simp [Segment.isGap], ih⟩
  | case4 c s hline hblock hquote ih =>
    exact List.forall_mem_cons.mpr ⟨fun _ => ⟨hquote, through_through _ s⟩, ih⟩
  | case5 c s hline hblock hquote hblank ih =>
    exact List.forall_mem_cons.mpr ⟨by simp [Segment.isGap], ih⟩
  | case6 c s hline hblock hquote hblank ih =>
    refine List.forall_mem_cons.mpr ⟨fun _ => ?_, ih⟩
    exact ⟨eq_false_of_ne_true hquote, eq_false_of_ne_true hblank⟩

theorem eq_cons_of_mem_head? (h : .char c ∈ (segments s).head?) : ∃ rest, s = c :: rest := by
  obtain ⟨segs, hsegs⟩ := List.head?_eq_some_iff.mp h
  refine ⟨segs.flatMap Segment.text, ?_⟩
  rw [← segments_text s, hsegs]
  rfl

/-- In a statement the segments adjoin. -/
theorem isChain_segments (s : List Char) : (segments s).IsChain Adjoin := by
  fun_induction segments s with
  | case1 => exact .nil
  | case2 s ih => exact List.isChain_cons.mpr ⟨fun _ _ => adjoin_of_not_char trivial (by simp), ih⟩
  | case3 s ih => exact List.isChain_cons.mpr ⟨fun _ _ => adjoin_of_not_char trivial (by simp), ih⟩
  | case4 c s hline hblock hquote ih =>
    refine List.isChain_cons.mpr ⟨fun y hy => adjoin_of_not_char ?_ (by simp), ih⟩
    refine mem_through_of_behind_ne_nil fun hnil => ?_
    rw [hnil, segments] at hy
    cases hy
  | case5 c s hline hblock hquote hblank ih =>
    exact List.isChain_cons.mpr ⟨fun _ _ => adjoin_of_not_char trivial (by simp), ih⟩
  | case6 c s hline hblock hquote hblank ih =>
    refine List.isChain_cons.mpr ⟨fun y hy => ⟨trivial, ?_, ?_⟩, ih⟩
    · rintro hc rfl
      obtain ⟨rest, rfl⟩ := eq_cons_of_mem_head? hy
      exact hline rest (Segment.char.inj hc) rfl
    · rintro hc rfl
      obtain ⟨rest, rfl⟩ := eq_cons_of_mem_head? hy
      exact hblock rest (Segment.char.inj hc) rfl

/-- Closing up gaps leaves no two segments beside each other that do not adjoin. -/
theorem isChain_squeeze :
    ((x :: segs).IsChain Adjoin → (x :: squeeze false segs).IsChain Adjoin) ∧
      (x.Closed → segs.IsChain Adjoin → (x :: squeeze true segs).IsChain Adjoin) := by
  induction segs generalizing x with
  | nil => exact ⟨id, fun _ _ => .singleton _⟩
  | cons y segs ih =>
    cases hy : y.isGap with
    | true =>
      rw [squeeze_gap hy, squeeze_gap hy]
      constructor
      · intro h
        obtain ⟨hxy, h⟩ := List.isChain_cons_cons.mp h
        exact ih.2 hxy.closed h.tail
      · intro hx h
        exact ih.2 hx h.tail
    | false =>
      rw [squeeze_false_fragment hy, squeeze_true_fragment hy]
      constructor
      · intro h
        obtain ⟨hxy, h⟩ := List.isChain_cons_cons.mp h
        exact List.isChain_cons_cons.mpr ⟨hxy, ih.1 h⟩
      · intro hx h
        have hspace : Adjoin (.blank ' ') y := adjoin_of_not_char trivial nofun
        exact List.isChain_cons_cons.mpr
          ⟨adjoin_blank hx ' ', List.isChain_cons_cons.mpr ⟨hspace, ih.1 h⟩⟩

/-- A text that starts with a plain character starts with it as a segment. -/
theorem eq_char_of_text_append (hx : x.Readable) (hquote : isQuote c = false)
    (hblank : Text.isBlank c = false) (h : x.text ++ s = c :: t) : x = .char c := by
  cases x with
  | quoted quote rest =>
    obtain ⟨rfl, -⟩ := List.cons.inj h
    rw [hx.1] at hquote
    cases hquote
  | comment _ => exact hx.elim
  | blank d =>
    obtain ⟨rfl, -⟩ := List.cons.inj h
    have hd : Text.isBlank d = true := hx
    rw [hd] at hblank
    cases hblank
  | char d =>
    obtain ⟨rfl, -⟩ := List.cons.inj h
    rfl

/-- **Segments that adjoin are read again from their text.** -/
theorem segments_flatMap_text (hread : ∀ x ∈ segs, x.Readable) (hchain : segs.IsChain Adjoin) :
    segments (segs.flatMap Segment.text) = segs := by
  induction segs with
  | nil => rw [List.flatMap_nil, segments]
  | cons x segs ih =>
    obtain ⟨hx, hrest⟩ := List.forall_mem_cons.mp hread
    obtain ⟨hadjoin, hchain⟩ := List.isChain_cons.mp hchain
    have htail := ih hrest hchain
    -- a plain character that starts the rest starts it as a segment
    have hstart : ∀ {c t}, isQuote c = false → Text.isBlank c = false →
        segs.flatMap Segment.text = c :: t → .char c ∈ segs.head? := by
      intro c t hquote hblank h
      cases segs with
      | nil => cases h
      | cons y segs =>
        exact congrArg some
          (eq_char_of_text_append (hrest y (.head _)) hquote hblank h)
    rw [List.flatMap_cons]
    cases x with
    | comment _ => exact hx.elim
    | blank c =>
      have hc : Text.isBlank c = true := hx
      have hquote : ¬ isQuote c = true := fun h => by
        rcases (Bool.or_eq_true _ _).mp h with h | h
        all_goals
          rw [eq_of_beq h] at hc
          cases hc
      rw [Segment.text, List.singleton_append, segments, if_neg hquote, if_pos hc, htail]
      · rintro t rfl -
        cases hc
      · rintro t rfl -
        cases hc
    | char c =>
      obtain ⟨hquote, hblank⟩ := hx
      rw [Segment.text, List.singleton_append, segments, if_neg (by simp [hquote]),
        if_neg (by simp [hblank]), htail]
      · rintro t rfl ht
        exact (hadjoin _ (hstart rfl rfl ht)).dashes rfl rfl
      · rintro t rfl ht
        exact (hadjoin _ (hstart rfl rfl ht)).slashStar rfl rfl
    | quoted quote rest =>
      obtain ⟨hquote, hthrough⟩ := hx
      have hsplit : through (· == quote) (rest ++ segs.flatMap Segment.text) = rest ∧
          behind (· == quote) (rest ++ segs.flatMap Segment.text) =
            segs.flatMap Segment.text := by
        have hbehind := behind_eq_nil hthrough
        cases segs with
        | nil => simp [hthrough, hbehind]
        | cons y segs =>
          have hclosed : quote ∈ rest := (hadjoin y rfl).closed
          obtain ⟨hfront, hback⟩ := through_append (p := (· == quote))
            ⟨quote, hclosed, beq_self_eq_true quote⟩ ((y :: segs).flatMap Segment.text)
          rw [hfront, hback, hthrough, hbehind]
          exact ⟨rfl, rfl⟩
      rw [Segment.text, List.cons_append, segments, if_pos hquote, hsplit.1, hsplit.2, htail]
      · rintro t rfl -
        cases hquote
      · rintro t rfl -
        cases hquote

end

/-! ## Reading the content again -/

theorem isChain_content (s : List Char) : (content s).IsChain Adjoin := by
  have hchain : ((segments s).dropWhile Segment.isGap).IsChain Adjoin :=
    (isChain_segments s).suffix (List.dropWhile_suffix _)
  rw [content]
  cases hsegs : (segments s).dropWhile Segment.isGap with
  | nil => exact .nil
  | cons x segs =>
    have hx : x.isGap = false := by
      have := List.head?_dropWhile_not Segment.isGap (segments s)
      rw [hsegs] at this
      exact this
    rw [hsegs] at hchain
    rw [squeeze_false_fragment hx]
    exact isChain_squeeze.1 hchain

theorem eq_blank_or_fragment_of_mem_content {s : List Char} {x : Segment} (hx : x ∈ content s) :
    x = .blank ' ' ∨ x ∈ segments s ∧ x.isGap = false :=
  (eq_blank_or_fragment_of_mem_squeeze hx).imp_right
    fun h => ⟨(List.dropWhile_suffix _).mem h.1, h.2⟩

theorem content_readable (s : List Char) : ∀ x ∈ content s, x.Readable := by
  intro x hx
  rcases eq_blank_or_fragment_of_mem_content hx with rfl | ⟨hmem, hgap⟩
  · exact (by decide : Text.isBlank ' ' = true)
  · exact segments_readable s x hmem hgap

/-- **The content of a statement is read from its text again.** -/
theorem segments_content (s : List Char) :
    segments ((content s).flatMap Segment.text) = content s :=
  segments_flatMap_text (content_readable s) (isChain_content s)

/-! ## The end of the content -/

section

variable {x : Segment} {segs : List Segment}

theorem Segment.exists_text_of_droppable (hx : x.Readable) (hdrop : x.isDroppable = true) :
    ∃ c, x.text = [c] ∧ isTrailing c = true := by
  cases x with
  | char c => exact ⟨c, rfl, (Bool.or_eq_true _ _).mpr (.inl hdrop)⟩
  | blank c => exact ⟨c, rfl, (Bool.or_eq_true _ _).mpr (.inr hx)⟩
  | quoted _ _ | comment _ => cases hdrop

/-- What is kept ends with a character that is not dropped: a quoted text ends with its quote. -/
theorem Segment.exists_text_of_kept (hx : x.Readable) (hclosed : x.Closed)
    (hdrop : x.isDroppable = false) : ∃ s c, x.text = s ++ [c] ∧ isTrailing c = false := by
  cases x with
  | char c =>
    refine ⟨[], c, rfl, ?_⟩
    exact (Bool.or_eq_false_iff).mpr ⟨hdrop, hx.2⟩
  | quoted quote rest =>
    obtain ⟨hquote, hthrough⟩ := hx
    obtain ⟨s, hs⟩ := exists_through_eq hclosed
    refine ⟨quote :: s, quote, ?_, ?_⟩
    · rw [text, ← hthrough, hs, List.cons_append]
    · rcases (Bool.or_eq_true _ _).mp hquote with h | h
      all_goals
        rw [eq_of_beq h]
        decide
  | blank c => cases hdrop
  | comment _ => exact hx.elim

theorem trimTrailing_flatMap_text (hread : ∀ x ∈ segs, x.Readable)
    (hclosed : ∀ x ∈ segs, x.Closed) :
    trimTrailing (segs.flatMap Segment.text) =
      (segs.rdropWhile Segment.isDroppable).flatMap Segment.text := by
  induction segs using List.reverseRecOn with
  | nil => rfl
  | append_singleton segs x ih =>
    simp only [List.forall_mem_append, List.forall_mem_singleton] at hread hclosed
    rw [List.flatMap_append, List.flatMap_singleton]
    cases hdrop : x.isDroppable with
    | true =>
      obtain ⟨c, htext, hc⟩ := Segment.exists_text_of_droppable hread.2 hdrop
      rw [List.rdropWhile_concat_pos _ _ _ hdrop, htext, ← ih hread.1 hclosed.1]
      exact List.rdropWhile_concat_pos _ _ _ hc
    | false =>
      obtain ⟨s, c, htext, hc⟩ := Segment.exists_text_of_kept hread.2 hclosed.2 hdrop
      rw [List.rdropWhile_concat_neg _ _ _ (by simp [hdrop]), List.flatMap_append,
        List.flatMap_singleton, htext, ← List.append_assoc]
      exact List.rdropWhile_concat_neg _ _ _ (by simp [hc])

end

/-- **The normal form keeps the fragments.** If all quoted texts of a statement are closed, its
normal form consists of its rows of fragments, with a space between two rows, up to the semicolons
and spaces at the end, which are dropped. Read again, the normal form falls into just these
segments: no two fragments have become one, and none has been split. -/
theorem normalize_keeps_fragments (s : List Char) (h : ∀ x ∈ segments s, x.Closed) :
    ∃ kept dropped, [.blank ' '].intercalate (runs (segments s)) = kept ++ dropped ∧
      normalize s = kept.flatMap Segment.text ∧ segments (normalize s) = kept ∧
      (∀ x ∈ dropped, x = .char ';' ∨ x = .blank ' ') ∧
      ∀ x ∈ kept.getLast?, x ≠ .char ';' ∧ x ≠ .blank ' ' := by
  have hread := content_readable s
  have hclosed : ∀ x ∈ content s, x.Closed := by
    intro x hx
    rcases eq_blank_or_fragment_of_mem_content hx with rfl | ⟨hmem, -⟩
    · trivial
    · exact h x hmem
  have hnormal : normalize s =
      ((content s).rdropWhile Segment.isDroppable).flatMap Segment.text := by
    rw [normalize_eq, trimTrailing_flatMap_text hread hclosed]
  have happ : (content s).rdropWhile Segment.isDroppable
      ++ (content s).rtakeWhile Segment.isDroppable = content s :=
    List.rdropWhile_append_rtakeWhile
  refine ⟨(content s).rdropWhile Segment.isDroppable, (content s).rtakeWhile Segment.isDroppable,
    ?_, hnormal, ?_, ?_, ?_⟩
  · rw [happ, content, squeeze_dropWhile_eq_intercalate]
  · have hchain := isChain_content s
    rw [← happ] at hread hchain
    rw [hnormal]
    exact segments_flatMap_text (fun x hx => hread x (List.mem_append_left _ hx))
      (List.isChain_append.mp hchain).1
  · intro x hx
    have hdrop := List.mem_rtakeWhile_imp hx
    have hmem : x ∈ content s := (List.rtakeWhile_suffix _ _).mem hx
    rcases eq_blank_or_fragment_of_mem_content hmem with rfl | ⟨-, hgap⟩
    · exact .inr rfl
    · cases x with
      | char c => exact .inl (congrArg _ (eq_of_beq hdrop))
      | blank _ | comment _ => cases hgap
      | quoted _ _ => cases hdrop
  · intro x hx
    obtain ⟨hne, hlast⟩ := List.mem_getLast?_eq_getLast hx
    have hkept := List.rdropWhile_last_not Segment.isDroppable (content s) hne
    rw [← hlast] at hkept
    constructor
    · rintro rfl
      exact hkept rfl
    · rintro rfl
      exact hkept rfl

/-- Two dashes are quoted, and a comment stands between two others. -/
def quotedDashes : List Char :=
  "/* */ 'it''s --'/**/-\t/**/-1 ;-- ;\n;".toList

theorem quotedDashes_keeps_fragments :
    normalize quotedDashes = "'it''s --' - -1".toList ∧
      ∃ kept dropped,
        [.blank ' '].intercalate (runs (segments quotedDashes)) = kept ++ dropped ∧
        normalize quotedDashes = kept.flatMap Segment.text ∧
        segments (normalize quotedDashes) = kept ∧
        (∀ x ∈ dropped, x = .char ';' ∨ x = .blank ' ') ∧
        ∀ x ∈ kept.getLast?, x ≠ .char ';' ∧ x ≠ .blank ' ' :=
  ⟨by decide +kernel, normalize_keeps_fragments quotedDashes (by decide +kernel)⟩

end ReportSql.Gate
