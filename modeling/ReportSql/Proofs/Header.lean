import ReportSql.CommandLine.Run
import ReportSql.Proofs.Compilation
import ReportSql.Proofs.NumberTexts
import ReportSql.Proofs.Stability

/-!
# The header of a printed statement

A statement can be printed under a header that describes it in comments. What is written into the
header is a document on one line, or a text of the report, its path or its catalog, as it is. Each
line of the header is a comment exactly if no line break in such a text is followed by anything but
a comment; then the header says nothing, and all that is printed is the statement.
-/

namespace ReportSql.Gate

/-- The mark that starts a comment up to the end of its line. -/
def commentMark : List Char :=
  ['-', '-']

/-- Whatever stands behind a line break of the text starts a comment. -/
def BreaksIntoComments (s : List Char) : Prop :=
  ∀ before behind, s = before ++ '\n' :: behind → commentMark <+: behind

section

variable {c : Char} {line p s t : List Char}

/-! ## Lines -/

theorem newline_not_mem_of_mem_splitOn (h : line ∈ s.splitOn '\n') : '\n' ∉ line := by
  induction s generalizing line with
  | nil =>
    obtain rfl := List.mem_singleton.mp h
    exact List.not_mem_nil
  | cons c s ih =>
    rw [List.splitOn_cons_eq_if_modifyHead] at h
    split at h
    · rcases List.mem_cons.mp h with rfl | h
      · exact List.not_mem_nil
      · exact ih h
    · rename_i hc
      obtain ⟨first, rest, hlines⟩ := List.exists_cons_of_ne_nil (List.splitOn_ne_nil '\n' s)
      rw [hlines, List.modifyHead_cons] at h
      rw [hlines] at ih
      rcases List.mem_cons.mp h with rfl | h
      · have hfirst := ih (List.mem_cons_self ..)
        intro hmem
        rcases List.mem_cons.mp hmem with rfl | hmem
        · exact hc (beq_self_eq_true _)
        · exact hfirst hmem
      · exact ih (List.mem_cons_of_mem _ h)

/-- A text is its lines again, if each is ended by a line break. -/
theorem flatMap_splitOn (s : List Char) :
    (s.splitOn '\n').flatMap (· ++ ['\n']) = s ++ ['\n'] := by
  induction s with
  | nil => rfl
  | cons c s ih =>
    rw [List.splitOn_cons_eq_if_modifyHead]
    split
    · rename_i hc
      rw [List.flatMap_cons, ih, beq_iff_eq.mp hc]
      rfl
    · obtain ⟨first, rest, hlines⟩ := List.exists_cons_of_ne_nil (List.splitOn_ne_nil '\n' s)
      rw [hlines, List.flatMap_cons] at ih
      rw [hlines, List.modifyHead_cons, List.flatMap_cons, List.cons_append, List.cons_append, ih,
        List.cons_append]

/-! ## Line breaks before comments -/

theorem commentMark_prefix_append (hc : c ≠ '-') :
    commentMark <+: s ++ c :: t ↔ commentMark <+: s := by
  match s with
  | [] => simp [commentMark, hc.symm]
  | [d] => simp [commentMark, hc.symm]
  | d :: e :: s => simp [commentMark]

theorem breaksIntoComments_of_not_mem (h : '\n' ∉ s) : BreaksIntoComments s := by
  intro before behind hs
  exact absurd (hs ▸ List.mem_append_right _ (List.mem_cons_self ..)) h

theorem breaksIntoComments_newline :
    BreaksIntoComments ('\n' :: s) ↔ commentMark <+: s ∧ BreaksIntoComments s := by
  constructor
  · intro h
    refine ⟨h [] s rfl, fun before behind hs => h ('\n' :: before) behind ?_⟩
    rw [hs, List.cons_append]
  · rintro ⟨hs, hbreaks⟩ before behind h
    cases before with
    | nil => exact (List.cons.inj h).2 ▸ hs
    | cons d before => exact hbreaks before behind (List.cons.inj h).2

theorem breaksIntoComments_cons (hc : c ≠ '\n') :
    BreaksIntoComments (c :: s) ↔ BreaksIntoComments s := by
  constructor
  · intro h before behind hs
    exact h (c :: before) behind (by rw [hs, List.cons_append])
  · intro h before behind hs
    cases before with
    | nil => exact absurd (List.cons.inj hs).1 hc
    | cons d before => exact h before behind (List.cons.inj hs).2

/-- What stands on the first line of a text has no part in it. -/
theorem breaksIntoComments_append (hp : '\n' ∉ p) :
    BreaksIntoComments (p ++ s) ↔ BreaksIntoComments s := by
  induction p with
  | nil => exact Iff.rfl
  | cons c p ih =>
    have hc : c ≠ '\n' := (List.ne_of_not_mem_cons hp).symm
    rw [List.cons_append, breaksIntoComments_cons hc, ih (List.not_mem_of_not_mem_cons hp)]

/-- Neither has what is written on behind the last line, unless it can complete a mark. -/
theorem breaksIntoComments_append_cons (hc : c ≠ '-') (ht : '\n' ∉ c :: t) :
    BreaksIntoComments (s ++ c :: t) ↔ BreaksIntoComments s := by
  induction s with
  | nil =>
    exact ⟨fun _ => breaksIntoComments_of_not_mem List.not_mem_nil,
      fun _ => breaksIntoComments_of_not_mem ht⟩
  | cons d s ih =>
    by_cases hd : d = '\n'
    · rw [hd, List.cons_append, breaksIntoComments_newline, breaksIntoComments_newline,
        commentMark_prefix_append hc, ih]
    · rw [List.cons_append, breaksIntoComments_cons hd, breaksIntoComments_cons hd, ih]

/-- Each line of a text is a comment if it starts as one and goes on as one behind each line
break. -/
theorem forall_splitOn_iff :
    (∀ line ∈ s.splitOn '\n', commentMark <+: line) ↔
      commentMark <+: s ∧ BreaksIntoComments s := by
  induction hn : s.length using Nat.strongRecOn generalizing s with
  | ind n ih =>
    by_cases hbreak : '\n' ∈ s
    · obtain ⟨first, rest, rfl, hfirst⟩ := List.eq_append_cons_of_mem hbreak
      have hlength : rest.length < n := by
        rw [← hn, List.length_append, List.length_cons]
        omega
      rw [List.splitOn_append_cons_self_of_not_mem hfirst, List.forall_mem_cons,
        ih rest.length hlength rfl, commentMark_prefix_append (by decide),
        breaksIntoComments_append hfirst, breaksIntoComments_newline]
    · rw [List.splitOn_eq_singleton hbreak, List.forall_mem_singleton]
      exact (and_iff_left (breaksIntoComments_of_not_mem hbreak)).symm

/-! ## Comments before a statement -/

theorem normalize_newline (s : List Char) : normalize ('\n' :: s) = normalize s :=
  rfl

theorem normalize_comment (hmark : commentMark <+: line) (h : '\n' ∉ line) (s : List Char) :
    normalize (line ++ '\n' :: s) = normalize s := by
  obtain ⟨text, rfl⟩ := hmark
  have htext : ∀ c ∈ text, (c != '\n') = true := by
    intro c hc
    have hne : c ≠ '\n' := fun hnewline => h (List.mem_append_right _ (hnewline ▸ hc))
    simpa using hne
  have hbehind : (text ++ '\n' :: s).dropWhile (· != '\n') = '\n' :: s :=
    List.dropWhile_append_of_pos htext
  have hpieces : pieces .plain (commentMark ++ (text ++ '\n' :: s)) =
      .gap :: .gap :: pieces .plain s := by
    show Piece.gap :: pieces .lineComment (text ++ '\n' :: s) = _
    rw [pieces_lineComment, hbehind]
    rfl
  rw [List.append_assoc, normalize, hpieces]
  rfl

/-- Comments before a statement are no part of it. -/
theorem normalize_comments {lines : List (List Char)} (hmark : ∀ line ∈ lines, commentMark <+: line)
    (h : ∀ line ∈ lines, '\n' ∉ line) (s : List Char) :
    normalize (lines.flatMap (· ++ ['\n']) ++ s) = normalize s := by
  induction lines with
  | nil => rfl
  | cons line lines ih =>
    obtain ⟨hline, hlines⟩ := List.forall_mem_cons.mp hmark
    obtain ⟨hbreak, hbreaks⟩ := List.forall_mem_cons.mp h
    rw [List.flatMap_cons, List.append_assoc, List.append_assoc, List.singleton_append,
      normalize_comment hline hbreak, ih hlines hbreaks]

end

end ReportSql.Gate

namespace ReportSql.Json

/-! ## Documents on one line -/

theorem AreDigits.newline_not_mem {ds : List Char} (h : AreDigits ds) : '\n' ∉ ds :=
  fun hmem => ne_of_isDigit (d := '\n') (h.isDigit _ hmem) rfl rfl

theorem IsUnsigned.newline_not_mem {text : List Char} (h : IsUnsigned text) : '\n' ∉ text := by
  obtain @⟨whole, fraction, exponent, hwhole, hfraction, hexponent⟩ := h
  have hbehind : '\n' ∉ fraction := by
    cases hfraction with
    | none => exact List.not_mem_nil
    | some hdigits => simpa using hdigits.newline_not_mem
  have hmark : '\n' ∉ exponent := by
    cases hexponent with
    | none => exact List.not_mem_nil
    | plain hdigits | minus hdigits | plus hdigits => simpa using hdigits.newline_not_mem
  simp only [List.mem_append, not_or]
  exact ⟨hwhole.newline_not_mem, hbehind, hmark⟩

theorem IsNumber.newline_not_mem {text : List Char} (h : IsNumber text) : '\n' ∉ text := by
  cases h with
  | unsigned h => exact h.newline_not_mem
  | negative h => simpa using h.newline_not_mem

theorem hexDigit_ne_newline : ∀ n < 16, hexDigit n ≠ '\n' := by
  decide

/-- A line break is escaped, and no escape holds one. -/
theorem newline_not_mem_escapeChar (c : Char) : '\n' ∉ escapeChar c := by
  unfold escapeChar
  repeat' split
  all_goals try decide
  · rename_i hcontrol
    have hhigh := hexDigit_ne_newline (c.toNat / 16) (by omega)
    have hlow := hexDigit_ne_newline (c.toNat % 16) (Nat.mod_lt _ (by decide))
    simp [hhigh.symm, hlow.symm]
  · rename_i hnewline _ _ _
    simpa using fun h => hnewline (beq_iff_eq.mpr h.symm)

theorem newline_not_mem_quote (s : String) : '\n' ∉ quote s := by
  have hescaped : '\n' ∉ s.toList.flatMap escapeChar := by
    intro hmem
    obtain ⟨c, -, hc⟩ := List.mem_flatMap.mp hmem
    exact newline_not_mem_escapeChar c hc
  simpa [quote] using hescaped

mutual

theorem newline_not_mem_compact (v : Value) : '\n' ∉ v.compact := by
  cases v with
  | null => decide
  | bool b => cases b <;> decide
  | number n => exact (isNumber_text n).newline_not_mem
  | string s => exact newline_not_mem_quote s
  | array items => simpa [Value.compact] using newline_not_mem_compactItems true items
  | object members => simpa [Value.compact] using newline_not_mem_compactMembers true members

theorem newline_not_mem_compactItems (first : Bool) (vs : List Value) :
    '\n' ∉ Value.compactItems first vs := by
  cases vs with
  | nil => exact List.not_mem_nil
  | cons v rest =>
    have hv := newline_not_mem_compact v
    have hrest := newline_not_mem_compactItems false rest
    cases first <;> simp [Value.compactItems, hv, hrest]

theorem newline_not_mem_compactMembers (first : Bool) (members : List (String × Value)) :
    '\n' ∉ Value.compactMembers first members := by
  match members with
  | [] => exact List.not_mem_nil
  | (name, v) :: rest =>
    have hname := newline_not_mem_quote name
    have hv := newline_not_mem_compact v
    have hrest := newline_not_mem_compactMembers false rest
    cases first <;> simp [Value.compactMembers, hname, hv, hrest]

end

end ReportSql.Json

namespace ReportSql.CommandLine

open ReportSql.Gate
open ReportSql.Report (Config)
open ReportSql.Statement (Compiled compile newYearOptions)

/-! ## Lines of the header -/

/-- The lines of the texts, which are printed one after the other. -/
def physicalLines (texts : List String) : List (List Char) :=
  texts.flatMap fun text => text.toList.splitOn '\n'

/-- Each line of the text is a comment. -/
def Commented (text : String) : Prop :=
  ∀ line ∈ text.toList.splitOn '\n', commentMark <+: line

theorem forall_physicalLines_iff {texts : List String} :
    (∀ line ∈ physicalLines texts, commentMark <+: line) ↔ ∀ text ∈ texts, Commented text := by
  constructor
  · intro h text htext line hline
    exact h line (List.mem_flatMap.mpr ⟨text, htext, hline⟩)
  · intro h line hline
    obtain ⟨text, htext, hline⟩ := List.mem_flatMap.mp hline
    exact h text htext line hline

theorem newline_not_mem_physicalLines {texts : List String} :
    ∀ line ∈ physicalLines texts, '\n' ∉ line := by
  intro line hline
  obtain ⟨text, -, hline⟩ := List.mem_flatMap.mp hline
  exact newline_not_mem_of_mem_splitOn hline

theorem flatMap_physicalLines (texts : List String) :
    (physicalLines texts).flatMap (· ++ ['\n']) =
      texts.flatMap fun text => text.toList ++ ['\n'] := by
  rw [physicalLines, List.flatMap_assoc]
  exact congrArg texts.flatMap (funext fun text => flatMap_splitOn text.toList)

section

variable {p s : String}

/-- A comment that ends with a text is a comment on each line exactly if the text breaks into
comments. -/
theorem commented_append_iff (hp : '\n' ∉ p.toList) (hmark : commentMark <+: p.toList) :
    Commented (p ++ s) ↔ BreaksIntoComments s.toList := by
  rw [Commented, forall_splitOn_iff, String.toList_append, breaksIntoComments_append hp]
  exact and_iff_right (hmark.trans (List.prefix_append _ _))

theorem commented_of_not_mem (hp : '\n' ∉ p.toList) (hmark : commentMark <+: p.toList) :
    Commented p :=
  forall_splitOn_iff.mpr ⟨hmark, breaksIntoComments_of_not_mem hp⟩

end

theorem newline_not_mem_natText (n : Nat) : '\n' ∉ Decimal.natText n :=
  (Json.areDigits_natText n).newline_not_mem

theorem newline_not_mem_intText (n : Int) : '\n' ∉ Decimal.intText n :=
  (Json.isNumber_intText n).newline_not_mem

/-- The values that are bound are written on one line each. -/
theorem commented_parameterLines (position : Nat) (vs : List Json.Value) :
    ∀ text ∈ parameterLines position vs, Commented text := by
  induction vs generalizing position with
  | nil => exact fun _ h => absurd h List.not_mem_nil
  | cons v rest ih =>
    refine List.forall_mem_cons.mpr ⟨commented_of_not_mem ?_ ?_, ih (position + 1)⟩
    · simp [newline_not_mem_natText, Json.newline_not_mem_compact, Json.Value.compactText]
    · simp [commentMark]

theorem commented_dialect (d : Sql.Dialect) : Commented ("-- Dialect: " ++ d.name) := by
  cases d <;> exact commented_of_not_mem (by decide) (by decide)

theorem commented_clamp (requested : Int) (applied : Nat) :
    Commented ("-- limit " ++ .ofList (Decimal.intText requested) ++ " clamped to " ++
      .ofList (Decimal.natText applied)) := by
  refine commented_of_not_mem ?_ ?_
  · simp [newline_not_mem_natText, newline_not_mem_intText]
  · simp [commentMark]

theorem newline_not_mem_typeName (t : Catalog.FieldType) : '\n' ∉ t.name.toList := by
  cases t <;> decide

theorem commented_column_iff (name : String) (t : Catalog.FieldType) :
    Commented ("-- column " ++ name ++ " (" ++ t.name ++ ")") ↔
      BreaksIntoComments name.toList := by
  have htype : '\n' ∉ ' ' :: '(' :: (t.name.toList ++ [')']) := by
    simp [newline_not_mem_typeName]
  have htext : "-- column " ++ name ++ " (" ++ t.name ++ ")" =
      "-- column " ++ (name ++ .ofList (' ' :: '(' :: (t.name.toList ++ [')']))) := by
    apply String.toList_inj.mp
    simp
  rw [htext, commented_append_iff (by decide) (by decide), String.toList_append,
    String.toList_ofList, breaksIntoComments_append_cons (by decide) htype]

/-- The name, the path, the joins and the names of the columns are written into the header as they
are, and everything else on one line. -/
theorem commented_headerLines_iff (name path : String) (k : Compiled) :
    (∀ text ∈ headerLines name path k, Commented text) ↔
      BreaksIntoComments name.toList ∧ BreaksIntoComments path.toList ∧
        BreaksIntoComments k.plan.text.toList ∧
        ∀ column ∈ k.columns, BreaksIntoComments column.name.toList := by
  have hparams := commented_parameterLines 1 k.parameters
  have hclamp : ∀ clamp ∈ k.clamp.toList, Commented ("-- limit " ++
      .ofList (Decimal.intText clamp.requested.toInt) ++ " clamped to " ++
      .ofList (Decimal.natText clamp.applied.toNat)) := fun _ _ => commented_clamp _ _
  rw [headerLines, List.forall_mem_append, List.forall_mem_append, List.forall_mem_append,
    List.forall_mem_map, List.forall_mem_map]
  simp only [List.forall_mem_cons,
    commented_append_iff (p := "-- Report: ") (by decide) (by decide),
    commented_append_iff (p := "-- Source: ") (by decide) (by decide),
    commented_append_iff (p := "-- Joins: ") (by decide) (by decide), commented_column_iff]
  constructor
  · rintro ⟨⟨⟨⟨hname, hpath, -, hjoins, -⟩, -⟩, hcolumns⟩, -⟩
    exact ⟨hname, hpath, hjoins, hcolumns⟩
  · rintro ⟨hname, hpath, hjoins, hcolumns⟩
    have hnone : ∀ text ∈ ([] : List String), Commented text := fun _ h => absurd h List.not_mem_nil
    exact ⟨⟨⟨⟨hname, hpath, commented_dialect _, hjoins, hnone⟩, hparams⟩, hcolumns⟩, hclamp⟩

/-! ## The printed statement -/

theorem toList_stdout_ok (texts : List String) :
    (Outcome.ok texts).stdout.toList = (physicalLines texts).flatMap (· ++ ['\n']) := by
  rw [flatMap_physicalLines]
  simp [Outcome.ok, String.toList_join, List.flatMap_map]

/-- All that is printed of a report with its header. -/
def verboseText (path : String) (c : Config) (k : Compiled) : List Char :=
  (Outcome.ok (compiledLines .verbose path c k)).stdout.toList

/-- The lines of the header. -/
def verboseHeader (path : String) (c : Config) (k : Compiled) : List (List Char) :=
  physicalLines (headerLines (c.name.getD "(unnamed)") path k)

theorem verboseText_eq (path : String) (c : Config) (k : Compiled) :
    verboseText path c k =
      (verboseHeader path c k).flatMap (· ++ ['\n']) ++ '\n' :: (k.sql.toList ++ ['\n']) := by
  rw [verboseText, toList_stdout_ok, compiledLines, verboseHeader, flatMap_physicalLines,
    List.flatMap_append, flatMap_physicalLines]
  simp

/-- **When the header of a printed statement is only comments.** What is printed are the lines of
the header, an empty line and the statement. Each line of the header is a comment exactly if
whatever stands behind a line break in the name of the report, in its path, in the joins and in the
names of the columns starts a comment: the bound values and all else is written without line breaks.
Then all that is printed has the normal form of the compiled statement. -/
theorem verbose_commented_iff (path : String) (c : Config) (k : Compiled) :
    verboseText path c k =
        (verboseHeader path c k).flatMap (· ++ ['\n']) ++ '\n' :: (k.sql.toList ++ ['\n']) ∧
      (∀ line ∈ verboseHeader path c k, '\n' ∉ line) ∧
      ((∀ line ∈ verboseHeader path c k, commentMark <+: line) ↔
        BreaksIntoComments (c.name.getD "(unnamed)").toList ∧ BreaksIntoComments path.toList ∧
          BreaksIntoComments k.plan.text.toList ∧
          ∀ column ∈ k.columns, BreaksIntoComments column.name.toList) ∧
      ((∀ line ∈ verboseHeader path c k, commentMark <+: line) →
        normalize (verboseText path c k) = normalize k.sql.toList) := by
  refine ⟨verboseText_eq path c k, newline_not_mem_physicalLines,
    forall_physicalLines_iff.trans (commented_headerLines_iff _ path k), fun hmark => ?_⟩
  have htail : ∀ c ∈ ['\n'], isTrailing c = true := List.forall_mem_singleton.mpr (by decide)
  rw [verboseText_eq, normalize_comments hmark newline_not_mem_physicalLines, normalize_newline,
    normalize_append htail]

/-- The names of all objects, in a report with the given name. -/
def namedObjects (name : String) : Config :=
  { Config.new "objects" with
    name := some name
    selected := [⟨"objects", "object_label", none, none⟩] }

theorem namedObjects_trucks_commented :
    ∃ k, compile .telematics (namedObjects "Trucks\n-- and vans") newYearOptions = .ok k ∧
      (∀ line ∈ verboseHeader "r.json" (namedObjects "Trucks\n-- and vans") k,
        commentMark <+: line) ∧
      normalize (verboseText "r.json" (namedObjects "Trucks\n-- and vans") k) =
        normalize k.sql.toList := by
  have hcompiled :
      (compile .telematics (namedObjects "Trucks\n-- and vans") newYearOptions).toOption.map
        (fun k => (k.plan.text, k.columns.map fun column => column.name)) =
        some ("(same entity)", ["objects_object_label"]) := by
    decide +kernel
  obtain ⟨k, hk, htexts⟩ := exists_ok_of_map hcompiled
  obtain ⟨hplan, hcolumns⟩ := Prod.mk.inj htexts
  obtain ⟨-, -, hiff, hnormal⟩ :=
    verbose_commented_iff "r.json" (namedObjects "Trucks\n-- and vans") k
  have hname : BreaksIntoComments "Trucks\n-- and vans".toList :=
    (breaksIntoComments_append (p := "Trucks".toList) (by decide)).mpr
      (breaksIntoComments_newline.mpr
        ⟨by decide, breaksIntoComments_of_not_mem (by decide)⟩)
  have hcolumn : ∀ column ∈ k.columns, BreaksIntoComments column.name.toList := by
    intro column hmem
    have hlabel : column.name ∈ ["objects_object_label"] := hcolumns ▸ List.mem_map_of_mem hmem
    obtain hlabel := List.mem_singleton.mp hlabel
    exact hlabel ▸ breaksIntoComments_of_not_mem (by decide)
  have hmark := hiff.mpr ⟨hname, breaksIntoComments_of_not_mem (by decide),
    hplan ▸ breaksIntoComments_of_not_mem (by decide), hcolumn⟩
  exact ⟨k, hk, hmark, hnormal hmark⟩

/-- What follows a line break in the name of a report is printed before the statement, as it is. -/
theorem namedObjects_delete_uncommented :
    ∃ k, compile .telematics (namedObjects "Trucks\nDELETE FROM t;") newYearOptions = .ok k ∧
      "DELETE FROM t;".toList ∈ verboseHeader "r.json" (namedObjects "Trucks\nDELETE FROM t;") k ∧
      ¬ commentMark <+: "DELETE FROM t;".toList ∧
      (normalize (verboseText "r.json" (namedObjects "Trucks\nDELETE FROM t;") k)).head? =
        some 'D' ∧
      (normalize k.sql.toList).head? = some 'S' := by
  have hcompiled :
      (compile .telematics (namedObjects "Trucks\nDELETE FROM t;") newYearOptions).toOption.map
        (fun k => ((normalize ((verboseHeader "r.json"
            (namedObjects "Trucks\nDELETE FROM t;") k).flatMap (· ++ ['\n']) ++
              '\n' :: (k.sql.toList ++ ['\n']))).head?, (normalize k.sql.toList).head?)) =
        some (some 'D', some 'S') := by
    decide +kernel
  obtain ⟨k, hk, hheads⟩ := exists_ok_of_map hcompiled
  obtain ⟨hprinted, hsql⟩ := Prod.mk.inj hheads
  rw [← verboseText_eq] at hprinted
  have hline : "DELETE FROM t;".toList ∈
      verboseHeader "r.json" (namedObjects "Trucks\nDELETE FROM t;") k :=
    List.mem_flatMap.mpr ⟨_, List.mem_cons_self .., by decide⟩
  exact ⟨k, hk, hline, by decide, hprinted, hsql⟩

end ReportSql.CommandLine
