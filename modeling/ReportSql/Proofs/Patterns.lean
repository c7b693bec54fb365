import Mathlib.Data.List.Infix
import ReportSql.Proofs.Binding

/-!
# What patterns match

A pattern is read mark by mark: `%` matches any text, `_` any character, the character behind the
escape mark matches itself, and so does every other character. The pattern of a filter matches a
text exactly if the text has the operand of the filter at its start, at its end or anywhere in it,
whatever marks the operand holds.
-/

namespace ReportSql.Statement

open ReportSql.Json (Value)
open ReportSql.Report (Filter Operator)
open ReportSql.Sql (Expr)

/-! ## Reading patterns -/

/-- What a pattern asks of the text at one place. -/
inductive Mark where
  /-- Any text, also none. -/
  | anyText
  | anyChar
  | char (c : Char)
  deriving DecidableEq

/-- What a character asks for that is not escaped. -/
def Mark.ofChar (c : Char) : Mark :=
  if c = '%' then .anyText else if c = '_' then .anyChar else .char c

/-- The marks of a pattern. An escape mark with nothing behind it escapes nothing. -/
def marks (escape : Char) : List Char → List Mark
  | [] => []
  | [c] => [.ofChar c]
  | c :: d :: p =>
    if c = escape then .char d :: marks escape p else .ofChar c :: marks escape (d :: p)

/-- The last character of the pattern opens an escape. -/
def EndsInEscape (escape : Char) : List Char → Prop
  | [] => False
  | [c] => c = escape
  | c :: d :: p => if c = escape then EndsInEscape escape p else EndsInEscape escape (d :: p)

/-- Do the marks match the whole text? For a mark that matches any text, all its lengths are
tried. -/
def matchesMarks : List Mark → List Char → Bool
  | [], t => t.isEmpty
  | .anyText :: ms, t => t.tails.any (matchesMarks ms)
  | .anyChar :: ms, _ :: t => matchesMarks ms t
  | .char c :: ms, d :: t => c == d && matchesMarks ms t
  | .anyChar :: _, [] | .char _ :: _, [] => false

/-- Does the pattern match the whole text? -/
def matchesPattern (escape : Char) (p t : List Char) : Bool :=
  matchesMarks (marks escape p) t

example : matchesPattern '!' "5_!%%".toList "50% off".toList = true := by decide

section

variable {escape c : Char} {p t v : List Char} {ms : List Mark}

/-! ## Escaped texts -/

theorem marks_cons (h : c ≠ escape) : marks escape (c :: p) = .ofChar c :: marks escape p := by
  cases p with
  | nil => rfl
  | cons d p => rw [marks, if_neg h]

theorem endsInEscape_cons (h : c ≠ escape) :
    EndsInEscape escape (c :: p) ↔ EndsInEscape escape p := by
  cases p with
  | nil => exact iff_of_false h id
  | cons d p => rw [EndsInEscape, if_neg h]

theorem plain_of_isPatternMark (h : isPatternMark c = false) :
    c ≠ escapeMark ∧ Mark.ofChar c = .char c := by
  simp only [isPatternMark, Bool.or_eq_false_iff, beq_eq_false_iff_ne] at h
  obtain ⟨⟨hescape, hany⟩, hone⟩ := h
  exact ⟨hescape, by rw [Mark.ofChar, if_neg hany, if_neg hone]⟩

/-- Every character of an escaped text stands for itself. -/
theorem marks_escapePattern_append (v p : List Char) :
    marks escapeMark (escapePattern v ++ p) = v.map .char ++ marks escapeMark p := by
  induction v with
  | nil => rfl
  | cons c v ih =>
    cases h : isPatternMark c with
    | true =>
      rw [escapePattern_cons_of_mark h, List.cons_append, List.cons_append, marks, if_pos rfl, ih]
      rfl
    | false =>
      obtain ⟨hescape, hchar⟩ := plain_of_isPatternMark h
      rw [escapePattern_cons_of_plain h, List.cons_append, marks_cons hescape, hchar, ih]
      rfl

/-- An escaped text opens no escape that it does not close. -/
theorem endsInEscape_escapePattern_append (v p : List Char) :
    EndsInEscape escapeMark (escapePattern v ++ p) ↔ EndsInEscape escapeMark p := by
  induction v with
  | nil => rfl
  | cons c v ih =>
    cases h : isPatternMark c with
    | true =>
      rw [escapePattern_cons_of_mark h, List.cons_append, List.cons_append, EndsInEscape,
        if_pos rfl, ih]
    | false =>
      rw [escapePattern_cons_of_plain h, List.cons_append,
        endsInEscape_cons (plain_of_isPatternMark h).1, ih]

/-! ## What marks match -/

theorem matchesMarks_anyText :
    matchesMarks (.anyText :: ms) t = true ↔ ∃ u, u <:+ t ∧ matchesMarks ms u = true := by
  rw [matchesMarks, List.any_eq_true]
  simp only [List.mem_tails]

/-- Characters that stand for themselves match the start of the text, and what is behind them the
rest. -/
theorem matchesMarks_chars_append :
    matchesMarks (v.map .char ++ ms) t = true ↔
      ∃ u, t = v ++ u ∧ matchesMarks ms u = true := by
  induction v generalizing t with
  | nil => simp
  | cons c v ih =>
    cases t with
    | nil => simp [matchesMarks]
    | cons d t =>
      rw [List.map_cons, List.cons_append, matchesMarks, Bool.and_eq_true, beq_iff_eq, ih]
      constructor
      · rintro ⟨rfl, u, rfl, hu⟩
        exact ⟨u, rfl, hu⟩
      · rintro ⟨u, happ, hu⟩
        obtain ⟨rfl, rfl⟩ := List.cons.inj happ
        exact ⟨rfl, u, rfl, hu⟩

theorem matchesMarks_chars : matchesMarks (v.map .char) t = true ↔ t = v := by
  rw [← List.append_nil (v.map Mark.char), matchesMarks_chars_append]
  simp [matchesMarks]

theorem matchesMarks_chars_anyText :
    matchesMarks (v.map .char ++ [.anyText]) t = true ↔ v <+: t := by
  have hall : ∀ u, matchesMarks [.anyText] u = true := fun u =>
    matchesMarks_anyText.mpr ⟨[], List.nil_suffix, rfl⟩
  rw [matchesMarks_chars_append, List.prefix_iff_exists_append_eq]
  simp only [hall, and_true, eq_comm]

/-! ## Patterns of filters -/

/-- The text stands where the operator looks for it: at the start, at the end, or anywhere. -/
def StandsIn : Operator → List Char → List Char → Prop
  | .startsWith, v, t => v <+: t
  | .endsWith, v, t => v <:+ t
  | _, v, t => v <:+: t

theorem marks_anyText_cons (p : List Char) :
    marks escapeMark ('%' :: p) = .anyText :: marks escapeMark p :=
  marks_cons (by decide)

theorem marks_anyText : marks escapeMark ['%'] = [.anyText] :=
  rfl

theorem matchesPattern_atStart :
    matchesPattern escapeMark (escapePattern v ++ ['%']) t = true ↔ v <+: t := by
  rw [matchesPattern, marks_escapePattern_append, marks_anyText]
  exact matchesMarks_chars_anyText

theorem matchesPattern_atEnd :
    matchesPattern escapeMark ('%' :: escapePattern v) t = true ↔ v <:+ t := by
  rw [matchesPattern, marks_anyText_cons, ← List.append_nil (escapePattern v),
    marks_escapePattern_append, marks, List.append_nil, matchesMarks_anyText]
  simp only [matchesMarks_chars, exists_eq_right]

theorem matchesPattern_anywhere :
    matchesPattern escapeMark ('%' :: escapePattern v ++ ['%']) t = true ↔ v <:+: t := by
  rw [matchesPattern, List.cons_append, marks_anyText_cons, marks_escapePattern_append,
    marks_anyText, matchesMarks_anyText, List.infix_iff_prefix_suffix]
  simp only [matchesMarks_chars_anyText, and_comm]

/-- A pattern matches exactly the texts in which the sought text stands. -/
theorem matchesPattern_pattern (op : Operator) :
    matchesPattern escapeMark (pattern op v) t = true ↔ StandsIn op v t := by
  cases op
  case startsWith => exact matchesPattern_atStart
  case endsWith => exact matchesPattern_atEnd
  all_goals exact matchesPattern_anywhere

theorem not_endsInEscape_pattern (op : Operator) : ¬ EndsInEscape escapeMark (pattern op v) := by
  have hany : ¬ EndsInEscape escapeMark ['%'] := by
    rw [endsInEscape_cons (by decide)]
    exact id
  have hnone : ¬ EndsInEscape escapeMark (escapePattern v) := by
    rw [← List.append_nil (escapePattern v), endsInEscape_escapePattern_append]
    exact id
  have hanywhere : ¬ EndsInEscape escapeMark ('%' :: escapePattern v ++ ['%']) := by
    rwa [List.cons_append, endsInEscape_cons (by decide), endsInEscape_escapePattern_append]
  cases op
  case startsWith => rwa [pattern, endsInEscape_escapePattern_append]
  case endsWith => rwa [pattern, endsInEscape_cons (by decide)]
  all_goals exact hanywhere

end

end ReportSql.Statement
