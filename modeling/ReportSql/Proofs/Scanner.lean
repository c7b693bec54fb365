import Mathlib.Data.List.Chain
import ReportSql.Proofs.Numerals
import ReportSql.Proofs.Placeholders

/-!
# Reading statements

`scan` reads the text of a statement from left to right, as a reader of the dialect does. A quote
opens a name or a text, a doubled quote inside stands for one, and a single one closes it. Outside
of quotes there are numerals, placeholders, marks, the words of a read-only statement and the names
of its functions; anything else stops the reader.

Pieces are read back if each stands apart from the next one, so that the text of the next one does
not continue its own.
-/

namespace ReportSql.Sql

open ReportSql.Decimal

/-! ## The reader -/

/-- The functions of a statement. -/
def functionNames : List String :=
  ["COUNT", "SUM", "AVG", "MIN", "MAX"]

namespace Keyword

def all : List Keyword :=
  [select, fromTable, whereRows, and, not, asAlias, onCondition, join, inner, left, right, groupBy,
    orderBy, asc, desc, limit, isIn, between, like, caselessLike, escape, isNull, isNotNull,
    distinct, trueValue, falseValue]

theorem mem_all (k : Keyword) : k ∈ all := by
  cases k <;> decide

/-- The keyword that a keyword is written as: the plain match stands for the one that disregards
case where there is none. -/
def written (d : Dialect) : Keyword → Keyword
  | caselessLike => if d.hasCaselessMatch then caselessLike else like
  | k => k

end Keyword

/-- The words outside of quotes, with what they mean. -/
def phrases (d : Dialect) : List (List Char × Token) :=
  Keyword.all.map (fun k => ((k.text d).toList, .keyword (k.written d)))
    ++ functionNames.map fun f => (f.toList, .function f)

/-- May the character continue a word? -/
def continuesWord (c : Char) : Bool :=
  c.isAlphanum || c == '_'

/-- What a phrase means and what is behind it, if a text starts with it and it ends there. -/
def readWords (s : List Char) (phrase : List Char × Token) : Option (Token × List Char) :=
  let behind := s.drop phrase.1.length
  if phrase.1.isPrefixOf s && behind.head?.all (!continuesWord ·) then some (phrase.2, behind)
  else none

/-- The phrase that a text starts with, and what is behind it. -/
def readPhrase (d : Dialect) (s : List Char) : Option (Token × List Char) :=
  (phrases d).findSome? (readWords s)

/-- What stands before the closing quote, and what is behind it. -/
def readQuoted (quote : Char) : List Char → Option (List Char × List Char)
  | [] => none
  | c :: s =>
    if c = quote then
      match s with
      | [] => some ([], [])
      | next :: rest =>
        if next = quote then (readQuoted quote rest).map fun r => (quote :: r.1, r.2)
        else some ([], next :: rest)
    else (readQuoted quote s).map fun r => (c :: r.1, r.2)

/-- The mark that a text starts with, and what is behind it. -/
def readMark : List Char → Option (Token × List Char)
  | ',' :: s => some (.comma, s)
  | '.' :: s => some (.dot, s)
  | '(' :: s => some (.leftParen, s)
  | ')' :: s => some (.rightParen, s)
  | '=' :: s => some (.sign .eq, s)
  | '/' :: s => some (.sign .div, s)
  | '<' :: '>' :: s => some (.sign .ne, s)
  | '<' :: '=' :: s => some (.sign .le, s)
  | '<' :: s => some (.sign .lt, s)
  | '>' :: '=' :: s => some (.sign .ge, s)
  | '>' :: s => some (.sign .gt, s)
  | _ => none

def Dialect.placeholderMark : Dialect → Char
  | postgres | duckdb => '$'
  | mysql => '?'

/-- The position behind the mark of a placeholder. Where placeholders are not numbered, it follows
from how many there were. -/
def readPosition (d : Dialect) (before : Nat) (s : List Char) : Nat × List Char :=
  match d with
  | .postgres | .duckdb => (digitsValue (readDigits s).1, (readDigits s).2)
  | .mysql => (before + 1, s)

/-- The piece that a text starts with, and what is behind it. -/
def readToken (d : Dialect) (before : Nat) : List Char → Option (Token × List Char)
  | [] => none
  | c :: s =>
    if c = d.identifierQuote then
      (readQuoted c s).map fun r => (.identifier (.ofList r.1), r.2)
    else if c = '\x27' then
      (readQuoted c s).map fun r => (.string (.ofList r.1), r.2)
    else if c.isDigit || c == '-' then
      let (n, rest) := readNumeral (c :: s)
      some (if n.isInteger then .integer n.toInt else .real n.toDouble, rest)
    else if c = d.placeholderMark then
      let (index, rest) := readPosition d before s
      some (.placeholder index, rest)
    else if c.isUpper then readPhrase d (c :: s)
    else readMark (c :: s)

/-- The pieces of a text behind `before` placeholders, without the blanks between them. -/
def scan (d : Dialect) (before : Nat) (s : List Char) : Option (List Token) :=
  match s with
  | [] => some []
  | c :: rest =>
    if c = ' ' ∨ c = '\n' then scan d before rest
    else
      match readToken d before (c :: rest) with
      | none => none
      | some (t, behind) =>
        if behind.length < (c :: rest).length then
          (scan d (before + (placeholders [t]).length) behind).map (t :: ·)
        else none
termination_by s.length
decreasing_by
  · exact Nat.lt_succ_self rest.length
  · assumption

/-! ## What is read back -/

/-- What a reader finds of a piece: no blanks, and the parts of a table in its schema one by one. -/
def Token.read (d : Dialect) : Token → List Token
  | .space | .newline | .indent _ => []
  | .keyword k => [.keyword (k.written d)]
  | .qualified (some schema) name => [.identifier schema, .dot, .identifier name]
  | .qualified none name => [.identifier name]
  | t => [t]

/-- The pieces that statements consist of: no word but keywords and functions, and no number
without a text. -/
@[simp] def Token.Plain : Token → Prop
  | .real x => ∃ y, x = .finite y
  | .boolean _ => False
  | .null => False
  | .function name => name ∈ functionNames
  | _ => True

/-- Would the character continue the text of the piece? -/
def Token.continuedBy (d : Dialect) : Token → Char → Bool
  | .keyword _, c | .function _, c => continuesWord c
  | .sign _, c => c == '=' || c == '>'
  | .identifier _, c | .qualified _ _, c => c == d.identifierQuote
  | .string _, c => c == '\x27'
  | .integer _, c | .real _, c => continuesNumeral c
  | .placeholder _, c => c.isDigit
  | _, _ => false

/-! ## Quotes -/

theorem readQuoted_double {quote : Char} (name : List Char) {s : List Char}
    (hs : StartsWithout (· == quote) s) :
    readQuoted quote
        (name.flatMap (fun c => if c = quote then [quote, quote] else [c]) ++ quote :: s) =
      some (name, s) := by
  induction name with
  | nil =>
    cases s with
    | nil => simp [readQuoted]
    | cons c rest =>
      have hc : c ≠ quote := by simpa using hs c rfl
      simp [readQuoted, hc]
  | cons c rest ih =>
    rw [List.flatMap_cons, List.append_assoc]
    by_cases hc : c = quote
    · simp [readQuoted, hc, ih]
    · rw [readQuoted.eq_def]
      simp [hc, ih]

/-! ## Words -/

/-- No phrase begins another one with whole words. -/
theorem phrases_distinct (d : Dialect) : ∀ p ∈ phrases d, ∀ q ∈ phrases d,
    p.1.isPrefixOf q.1 = true →
      p = q ∨ (q.1.drop p.1.length).head?.any continuesWord = true := by
  cases d <;> decide +kernel

/-- A phrase at the start of a text that ends there is the one that is read. -/
theorem phrase_unique {d : Dialect} {p q : List Char × Token} (hp : p ∈ phrases d)
    (hq : q ∈ phrases d) {s : List Char} (hs : StartsWithout continuesWord s)
    (hstarts : q.1 <+: p.1 ++ s)
    (hend : StartsWithout continuesWord ((p.1 ++ s).drop q.1.length)) : q = p := by
  rcases List.prefix_or_prefix_of_prefix hstarts (List.prefix_append p.1 s) with h | h
  · obtain ⟨more, hmore⟩ := h
    rcases phrases_distinct d q hq p hp (List.isPrefixOf_iff_prefix.mpr ⟨more, hmore⟩) with
      heq | hword
    · exact heq
    · rw [← hmore, List.drop_left] at hword
      rw [← hmore, List.append_assoc, List.drop_left] at hend
      cases more with
      | nil => cases hword
      | cons c more => exact absurd hword (by simpa using hend c rfl)
  · obtain ⟨more, hmore⟩ := h
    rcases phrases_distinct d p hp q hq (List.isPrefixOf_iff_prefix.mpr ⟨more, hmore⟩) with
      heq | hword
    · exact heq.symm
    · rw [← hmore, List.drop_left] at hword
      rw [← hmore, List.prefix_append_right_inj] at hstarts
      cases more with
      | nil => cases hword
      | cons c more =>
        obtain ⟨rest, rfl⟩ := hstarts
        exact absurd hword (by simpa using hs c rfl)

theorem readWords_eq_some_iff {s : List Char} {p : List Char × Token} {r : Token × List Char} :
    readWords s p = some r ↔
      p.1 <+: s ∧ StartsWithout continuesWord (s.drop p.1.length) ∧
        r = (p.2, s.drop p.1.length) := by
  have hend : (s.drop p.1.length).head?.all (!continuesWord ·) = true ↔
      StartsWithout continuesWord (s.drop p.1.length) := by
    cases s.drop p.1.length <;> simp [StartsWithout]
  simp only [readWords]
  split
  · rename_i h
    rw [Bool.and_eq_true, List.isPrefixOf_iff_prefix, hend] at h
    simp [h, eq_comm]
  · rename_i h
    rw [Bool.and_eq_true, List.isPrefixOf_iff_prefix, hend] at h
    simp only [reduceCtorEq, false_iff]
    rintro ⟨hstarts, hends, -⟩
    exact h ⟨hstarts, hends⟩

theorem readPhrase_append {d : Dialect} {p : List Char × Token} (hp : p ∈ phrases d)
    {s : List Char} (hs : StartsWithout continuesWord s) :
    readPhrase d (p.1 ++ s) = some (p.2, s) := by
  have hself : readWords (p.1 ++ s) p = some (p.2, s) := by
    rw [readWords_eq_some_iff, List.drop_left]
    exact ⟨List.prefix_append _ _, hs, rfl⟩
  rw [readPhrase]
  cases hread : (phrases d).findSome? (readWords (p.1 ++ s)) with
  | none =>
    rw [List.findSome?_eq_none_iff.mp hread p hp] at hself
    cases hself
  | some r =>
    obtain ⟨q, hq, hr⟩ := List.exists_of_findSome?_eq_some hread
    obtain ⟨hstarts, hend, -⟩ := readWords_eq_some_iff.mp hr
    rw [← hr, phrase_unique hp hq hs hstarts hend, hself]

/-! ## Marks -/

theorem readMark_sign (sign : Sign) {s : List Char}
    (hs : StartsWithout (fun c => c == '=' || c == '>') s) :
    readMark (sign.text.toList ++ s) = some (.sign sign, s) := by
  cases s with
  | nil => cases sign <;> rfl
  | cons c rest =>
    obtain ⟨heq, hgt⟩ : c ≠ '=' ∧ c ≠ '>' := by simpa using hs c rfl
    cases sign <;> simp [Sign.text, readMark, heq, hgt]

/-! ## Pieces -/

section

variable {d : Dialect} {before : Nat} {s : List Char}

theorem readToken_identifier (name : String)
    (hs : StartsWithout (· == d.identifierQuote) s) :
    readToken d before (d.quoteIdentifier name ++ s) = some (.identifier name, s) := by
  rw [Dialect.quoteIdentifier, quoted, List.append_assoc, List.cons_append, readToken, if_pos rfl,
    List.singleton_append, readQuoted_double name.toList hs, Option.map_some, String.ofList_toList]

theorem readToken_string (text : String) (hs : StartsWithout (· == '\x27') s) :
    readToken d before (d.quoteString text ++ s) = some (.string text, s) := by
  have hquote : '\x27' ≠ d.identifierQuote := by cases d <;> decide
  rw [Dialect.quoteString, quoted, List.append_assoc, List.cons_append, readToken, if_neg hquote,
    if_pos rfl, List.singleton_append, readQuoted_double text.toList hs, Option.map_some,
    String.ofList_toList]

theorem readToken_numeral {n : Numeral} (hn : n.Proper) (hs : StartsWithout continuesNumeral s) :
    readToken d before (n.text ++ s) =
      some (if n.isInteger then .integer n.toInt else .real n.toDouble, s) := by
  obtain ⟨c, rest, htext, hc⟩ := Numeral.exists_cons_text hn
  have hread := Numeral.readNumeral_text hn hs
  have hquote : c ≠ d.identifierQuote := by
    rintro rfl
    cases d <;> exact absurd hc (by decide)
  have hquote' : c ≠ '\x27' := by
    rintro rfl
    exact absurd hc (by decide)
  rw [htext, List.cons_append] at hread ⊢
  rw [readToken, if_neg hquote, if_neg hquote', if_pos hc]
  simp only [hread]

theorem readToken_placeholder {index : Nat} (hindex : index = before + 1)
    (hs : StartsWithout Char.isDigit s) :
    readToken d before (d.placeholder index ++ s) = some (.placeholder index, s) := by
  have hnumbered : readDigits (natText index ++ s) = (natText index, s) :=
    readDigits_append isDigit_natText hs
  cases d
  case postgres | duckdb =>
    show some (Token.placeholder (digitsValue (readDigits (natText index ++ s)).1),
      (readDigits (natText index ++ s)).2) = _
    rw [hnumbered, digitsValue_natText]
  case mysql =>
    rw [hindex]
    rfl

/-- Phrases start with a letter in upper case. -/
theorem phrases_start (d : Dialect) : ∀ p ∈ phrases d, p.1.head?.any (fun c =>
    c.isUpper && !(c.isDigit || c == '-') && c != d.identifierQuote && c != '\x27'
      && c != d.placeholderMark) = true := by
  cases d <;> decide +kernel

theorem readToken_phrase {p : List Char × Token} (hp : p ∈ phrases d)
    (hs : StartsWithout continuesWord s) :
    readToken d before (p.1 ++ s) = some (p.2, s) := by
  have hread := readPhrase_append hp hs
  have hstart := phrases_start d p hp
  cases hw : p.1 with
  | nil =>
    rw [hw] at hstart
    cases hstart
  | cons c w =>
    rw [hw] at hread hstart
    obtain ⟨⟨⟨⟨hupper, hnumeral⟩, hquote⟩, hquote'⟩, hmark⟩ :
        (((c.isUpper = true ∧ (c.isDigit || c == '-') = false) ∧ c ≠ d.identifierQuote) ∧
          c ≠ '\x27') ∧ c ≠ d.placeholderMark := by
      simpa using hstart
    rw [List.cons_append] at hread ⊢
    rw [readToken, if_neg hquote, if_neg hquote', if_neg (by simp [hnumeral]), if_neg hmark,
      if_pos hupper, hread]

theorem readToken_sign (sign : Sign) (hs : StartsWithout (fun c => c == '=' || c == '>') s) :
    readToken d before (sign.text.toList ++ s) = some (.sign sign, s) := by
  rw [← readMark_sign sign hs]
  cases d <;> cases sign <;> rfl

/-! ## Texts of pieces -/

theorem scan_blank {c : Char} (hc : c = ' ' ∨ c = '\n') :
    scan d before (c :: s) = scan d before s := by
  rw [scan, if_pos hc]

theorem scan_spaces (n : Nat) :
    scan d before (List.replicate n ' ' ++ s) = scan d before s := by
  induction n with
  | zero => rfl
  | succ n ih => rw [List.replicate_succ, List.cons_append, scan_blank (.inl rfl), ih]

/-- What is read first of a text comes first in the scan. -/
theorem scan_of_readToken {text : List Char} {t : Token} (hne : text ≠ [])
    (h : readToken d before (text ++ s) = some (t, s)) :
    scan d before (text ++ s) =
      (scan d (before + (placeholders [t]).length) s).map ([t] ++ ·) := by
  obtain ⟨c, rest, rfl⟩ := List.exists_cons_of_ne_nil hne
  have hblank : ¬(c = ' ' ∨ c = '\n') := by
    rintro (rfl | rfl)
    · cases d <;> cases h
    · cases d <;> cases h
  have hlength : s.length < (c :: (rest ++ s)).length := by
    simp only [List.length_cons, List.length_append]
    omega
  rw [List.cons_append] at h ⊢
  rw [scan, if_neg hblank, h]
  simp only [if_pos hlength, List.singleton_append]

theorem scan_identifier (name : String) (hs : StartsWithout (· == d.identifierQuote) s) :
    scan d before (d.quoteIdentifier name ++ s) = (scan d before s).map ([.identifier name] ++ ·) :=
  scan_of_readToken (by simp [Dialect.quoteIdentifier, quoted]) (readToken_identifier name hs)

theorem scan_phrase {p : List Char × Token} (hp : p ∈ phrases d)
    (hs : StartsWithout continuesWord s) :
    scan d before (p.1 ++ s) =
      (scan d (before + (placeholders [p.2]).length) s).map ([p.2] ++ ·) := by
  refine scan_of_readToken ?_ (readToken_phrase hp hs)
  intro hnil
  have hstart := phrases_start d p hp
  rw [hnil] at hstart
  cases hstart

/-- **A piece is read back** if what is behind it does not continue it. -/
theorem scan_append {t : Token} (ht : t.Plain) (hposition : ∀ i ∈ t.position?, i = before + 1)
    (hs : StartsWithout (t.continuedBy d) s) :
    scan d before (tokenText d t ++ s) =
      (scan d (before + (placeholders [t]).length) s).map (t.read d ++ ·) := by
  have hskip : ∀ r : Option (List Token), r = r.map ([] ++ ·) := by
    intro r
    cases r <;> rfl
  cases t with
  | keyword k =>
    have hphrase : ((k.text d).toList, Token.keyword (k.written d)) ∈ phrases d :=
      List.mem_append_left _ (List.mem_map_of_mem k.mem_all)
    exact scan_phrase hphrase hs
  | sign sign =>
    have hne : sign.text.toList ≠ [] := by cases sign <;> decide
    exact scan_of_readToken hne (readToken_sign sign hs)
  | comma | dot | leftParen | rightParen =>
    refine scan_of_readToken (List.cons_ne_nil _ _) ?_
    cases d <;> rfl
  | space => exact (scan_blank (.inl rfl)).trans (hskip _)
  | newline => exact (scan_blank (.inr rfl)).trans (hskip _)
  | indent levels => exact (scan_spaces (2 * levels)).trans (hskip _)
  | identifier name => exact scan_identifier name hs
  | qualified schema name =>
    cases schema with
    | none => exact scan_identifier name hs
    | some schema =>
      have hdot : StartsWithout (· == d.identifierQuote)
          ('.' :: (d.quoteIdentifier name ++ s)) := by
        rintro c ⟨⟩
        cases d <;> decide
      have hread : readToken d before (['.'] ++ (d.quoteIdentifier name ++ s)) =
          some (.dot, d.quoteIdentifier name ++ s) := by
        cases d <;> rfl
      have hscan : scan d before ('.' :: (d.quoteIdentifier name ++ s)) =
          (scan d before (d.quoteIdentifier name ++ s)).map ([.dot] ++ ·) :=
        scan_of_readToken (List.cons_ne_nil _ _) hread
      rw [tokenText, List.append_assoc, List.cons_append, scan_identifier schema hdot, hscan,
        scan_identifier name hs, Option.map_map, Option.map_map]
      rfl
  | integer n =>
    obtain ⟨m, htext, hproper, hinteger, hvalue⟩ := exists_numeral_intText n
    rw [tokenText, htext]
    refine scan_of_readToken hproper.text_ne_nil ?_
    rw [readToken_numeral hproper hs, if_pos hinteger, hvalue]
  | real x =>
    obtain ⟨y, rfl⟩ := ht
    obtain ⟨m, htext, hproper, hinteger, hvalue⟩ := exists_numeral_write y
    rw [tokenText, htext]
    refine scan_of_readToken hproper.text_ne_nil ?_
    rw [readToken_numeral hproper hs, hinteger, hvalue]
    rfl
  | string text =>
    exact scan_of_readToken (by simp [tokenText, Dialect.quoteString, quoted])
      (readToken_string text hs)
  | boolean b => exact ht.elim
  | null => exact ht.elim
  | placeholder index =>
    have hne : d.placeholder index ≠ [] := by cases d <;> exact List.cons_ne_nil _ _
    exact scan_of_readToken hne (readToken_placeholder (hposition index rfl) hs)
  | function name =>
    have hupper : ∀ f ∈ functionNames, Text.upper f.toList = f.toList := by decide +kernel
    have hphrase : (name.toList, Token.function name) ∈ phrases d :=
      List.mem_append_right _ (List.mem_map_of_mem ht)
    rw [tokenText, hupper name ht]
    exact scan_phrase hphrase hs

end

/-! ## Pieces apart -/

/-- The piece separates what stands on its two sides. -/
def Token.isBreak : Token → Bool
  | .comma | .leftParen | .rightParen | .space | .newline => true
  | .indent levels => levels ≠ 0
  | _ => false

/-- The pieces can stand next to each other: one of them is a break, or a dot stands on one side. -/
def Apart (t u : Token) : Prop :=
  t.isBreak = true ∨ u.isBreak = true ∨ t = .dot ∨ (u = .dot ∧ ∃ name, t = .identifier name)

/-- Neither a break nor a dot is continued by anything. -/
theorem Token.continuedBy_break {d : Dialect} {t : Token} (ht : t.isBreak = true ∨ t = .dot)
    (c : Char) : t.continuedBy d c = false := by
  rcases ht with ht | rfl
  · cases t with
    | comma | leftParen | rightParen | space | newline | indent => rfl
    | _ => cases ht
  · rfl

/-- A break continues no piece. -/
theorem Token.startsWithout_break {d : Dialect} {u : Token} (hu : u.isBreak = true) (t : Token)
    (s : List Char) : StartsWithout (t.continuedBy d) (tokenText d u ++ s) := by
  have hmark : ∀ c ∈ [',', '(', ')', ' ', '\n'], t.continuedBy d c = false := by
    intro c hc
    simp only [List.mem_cons, List.not_mem_nil, or_false] at hc
    rcases hc with rfl | rfl | rfl | rfl | rfl <;> cases t <;> cases d <;> rfl
  intro c hc
  cases u with
  | comma | leftParen | rightParen | space | newline =>
    cases hc
    exact hmark _ (by decide)
  | indent levels =>
    obtain ⟨n, rfl⟩ : ∃ n, levels = n + 1 :=
      Nat.exists_eq_succ_of_ne_zero (of_decide_eq_true hu)
    cases hc
    exact hmark _ (by decide)
  | _ => cases hu

theorem startsWithout_of_apart {d : Dialect} {t : Token} {ts : List Token}
    (h : (t :: ts).IsChain Apart) :
    StartsWithout (t.continuedBy d) (ts.flatMap (tokenText d)) := by
  cases ts with
  | nil =>
    intro c hc
    cases hc
  | cons u rest =>
    rw [List.flatMap_cons]
    rcases (List.isChain_cons_cons.mp h).1 with ht | hu | rfl | ⟨rfl, name, rfl⟩
    · exact fun c _ => Token.continuedBy_break (.inl ht) c
    · exact Token.startsWithout_break hu t _
    · exact fun c _ => Token.continuedBy_break (.inr rfl) c
    · rintro c ⟨⟩
      cases d <;> rfl

/-- Behind the first piece the numbering goes on. -/
theorem numbered_cons {t : Token} {rest : List Token} {before n : Nat}
    (h : placeholders (t :: rest) = List.range' (before + 1) n) :
    (∀ i ∈ t.position?, i = before + 1) ∧
      placeholders rest =
        List.range' (before + (placeholders [t]).length + 1) (n - (placeholders [t]).length) := by
  rw [placeholders_cons] at h
  rw [placeholders_cons, placeholders_nil, List.append_nil]
  cases hposition : t.position? with
  | none =>
    rw [hposition] at h
    exact ⟨by simp, h⟩
  | some i =>
    rw [hposition] at h
    cases n with
    | zero => cases h
    | succ n =>
      obtain ⟨rfl, hrest⟩ := List.cons.inj h
      exact ⟨by simp, hrest⟩

/-- **Pieces apart are read back**, if their placeholders are numbered in the order of reading. -/
theorem scan_tokens {d : Dialect} {ts : List Token} (hplain : ∀ t ∈ ts, t.Plain)
    (hapart : ts.IsChain Apart) {before n : Nat}
    (hnumbered : placeholders ts = List.range' (before + 1) n) :
    scan d before (ts.flatMap (tokenText d)) = some (ts.flatMap (Token.read d)) := by
  induction ts generalizing before n with
  | nil => simp [scan]
  | cons t rest ih =>
    obtain ⟨ht, hrest⟩ := List.forall_mem_cons.mp hplain
    obtain ⟨hposition, hbehind⟩ := numbered_cons hnumbered
    rw [List.flatMap_cons, List.flatMap_cons,
      scan_append ht hposition (startsWithout_of_apart hapart), ih hrest hapart.tail hbehind,
      Option.map_some]

end ReportSql.Sql
