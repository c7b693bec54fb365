import Mathlib.Data.List.TakeWhile
import ReportSql.Gate.Normal

/-!
# Segments of written statements

A written statement falls, from left to right, into quoted texts, comments, blanks and single
characters. The pieces that its normal form is made of can be read off its segments: quoted texts
are kept as they are, and a comment or a blank leaves a gap.
-/

namespace ReportSql.Gate

/-- A stretch of a written statement. -/
inductive Segment where
  /-- A quote and what follows it, up to and with the next such quote. -/
  | quoted (quote : Char) (rest : List Char)
  | comment (text : List Char)
  | blank (c : Char)
  | char (c : Char)
  deriving DecidableEq

namespace Segment

/-- The characters of the stretch. -/
def text : Segment → List Char
  | quoted quote rest => quote :: rest
  | comment text => text
  | blank c | char c => [c]

end Segment

/-! ## Splitting a statement -/

/-- The text up to and with the first character of the given kind. -/
def through (p : Char → Bool) (s : List Char) : List Char :=
  s.takeWhile (fun c => !p c) ++ (s.dropWhile fun c => !p c).take 1

/-- The text behind the first character of the given kind. -/
def behind (p : Char → Bool) (s : List Char) : List Char :=
  (s.dropWhile fun c => !p c).drop 1

/-- The text up to and with the first mark that closes a comment. -/
def throughClose : List Char → List Char
  | [] => []
  | '*' :: '/' :: _ => ['*', '/']
  | c :: s => c :: throughClose s

/-- The text behind the first mark that closes a comment. -/
def behindClose : List Char → List Char
  | [] => []
  | '*' :: '/' :: s => s
  | _ :: s => behindClose s

theorem through_append_behind (p : Char → Bool) (s : List Char) :
    through p s ++ behind p s = s := by
  rw [through, behind, List.append_assoc, List.take_append_drop, List.takeWhile_append_dropWhile]

theorem throughClose_append_behindClose (s : List Char) :
    throughClose s ++ behindClose s = s := by
  induction s using throughClose.induct with
  | case1 => rfl
  | case2 s => rfl
  | case3 c s hclose ih => simp [throughClose, behindClose, ih]

theorem length_behind_le (p : Char → Bool) (s : List Char) : (behind p s).length ≤ s.length := by
  have := congrArg List.length (through_append_behind p s)
  rw [List.length_append] at this
  omega

theorem length_behindClose_le (s : List Char) : (behindClose s).length ≤ s.length := by
  have := congrArg List.length (throughClose_append_behindClose s)
  rw [List.length_append] at this
  omega

/-- The segments of a statement. A comment that two dashes open ends before the next line. A quoted
text or a comment that is not closed goes on to the end. -/
def segments : List Char → List Segment
  | [] => []
  | '-' :: '-' :: s =>
    .comment ('-' :: '-' :: s.takeWhile (· != '\n')) :: segments (s.dropWhile (· != '\n'))
  | '/' :: '*' :: s => .comment ('/' :: '*' :: throughClose s) :: segments (behindClose s)
  | c :: s =>
    if isQuote c then .quoted c (through (· == c) s) :: segments (behind (· == c) s)
    else if Text.isBlank c then .blank c :: segments s
    else .char c :: segments s
termination_by s => s.length
decreasing_by
  · have := (List.dropWhile_suffix (l := s) fun c => c != '\n').length_le
    simp only [List.length_cons]
    omega
  · have := length_behindClose_le s
    simp only [List.length_cons]
    omega
  · have := length_behind_le (· == c) s
    simp only [List.length_cons]
    omega
  all_goals simp only [List.length_cons]; omega

/-- The segments make up the statement. -/
theorem segments_text (s : List Char) : (segments s).flatMap Segment.text = s := by
  fun_induction segments s with
  | case1 => rfl
  | case2 s ih => simp [Segment.text, ih, List.takeWhile_append_dropWhile]
  | case3 s ih => simp [Segment.text, ih, throughClose_append_behindClose]
  | case4 c s hline hblock hquote ih => simp [Segment.text, ih, through_append_behind]
  | case5 c s hline hblock hquote hblank ih => simp [Segment.text, ih]
  | case6 c s hline hblock hquote hblank ih => simp [Segment.text, ih]

/-- Quoted texts start with a quote, and what stands alone is neither blank nor a quote. -/
def Segment.Proper : Segment → Prop
  | quoted quote _ => isQuote quote = true
  | comment _ => True
  | blank c => Text.isBlank c = true
  | char c => isQuote c = false ∧ Text.isBlank c = false

theorem segments_proper (s : List Char) : ∀ segment ∈ segments s, segment.Proper := by
  fun_induction segments s with
  | case1 => exact nofun
  | case2 s ih => exact List.forall_mem_cons.mpr ⟨trivial, ih⟩
  | case3 s ih => exact List.forall_mem_cons.mpr ⟨trivial, ih⟩
  | case4 c s hline hblock hquote ih => exact List.forall_mem_cons.mpr ⟨hquote, ih⟩
  | case5 c s hline hblock hquote hblank ih => exact List.forall_mem_cons.mpr ⟨hblank, ih⟩
  | case6 c s hline hblock hquote hblank ih =>
    exact List.forall_mem_cons.mpr ⟨⟨eq_false_of_ne_true hquote, eq_false_of_ne_true hblank⟩, ih⟩

/-! ## The pieces of a segment -/

/-- What a segment adds to the pieces of a statement. -/
def Segment.pieces : Segment → List Piece
  | quoted quote rest => (quote :: rest).map .char
  | comment _ | blank _ => [.gap]
  | char c => [.char c]

theorem pieces_quoted (quote : Char) (s : List Char) :
    pieces (.quoted quote) s
      = (through (· == quote) s).map .char ++ pieces .plain (behind (· == quote) s) := by
  induction s with
  | nil => rfl
  | cons c s ih =>
    rw [pieces, through, behind]
    by_cases hc : c = quote
    · simp [hc]
    · rw [if_neg hc, ih, through, behind]
      simp [hc]

theorem pieces_lineComment (s : List Char) :
    pieces .lineComment s = pieces .plain (s.dropWhile (· != '\n')) := by
  induction s with
  | nil => rfl
  | cons c s ih =>
    rw [pieces]
    by_cases hc : c = '\n'
    · subst hc
      rfl
    · rw [if_neg hc, ih, List.dropWhile_cons_of_pos (by simpa using hc)]

theorem pieces_blockComment (s : List Char) :
    pieces .blockComment s = pieces .plain (behindClose s) := by
  induction s using behindClose.induct with
  | case1 => rfl
  | case2 s => rfl
  | case3 c s hclose ih => rw [pieces, behindClose, ih] <;> exact hclose

/-- **The scanner sees a statement as its segments.** -/
theorem pieces_plain (s : List Char) :
    pieces .plain s = (segments s).flatMap Segment.pieces := by
  fun_induction segments s with
  | case1 => rfl
  | case2 s ih =>
    rw [pieces, pieces_lineComment, ih]
    rfl
  | case3 s ih =>
    rw [pieces, pieces_blockComment, ih]
    rfl
  | case4 c s hline hblock hquote ih =>
    rw [pieces, if_pos hquote, pieces_quoted, ih]
    · rfl
    · exact hline
    · exact hblock
  | case5 c s hline hblock hquote hblank ih =>
    rw [pieces, if_neg hquote, if_pos hblank, ih]
    · rfl
    · exact hline
    · exact hblock
  | case6 c s hline hblock hquote hblank ih =>
    rw [pieces, if_neg hquote, if_neg hblank, ih]
    · rfl
    · exact hline
    · exact hblock

end ReportSql.Gate
