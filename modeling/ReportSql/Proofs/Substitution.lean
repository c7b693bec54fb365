import ReportSql.Proofs.Numerals
import ReportSql.Settings.Variables

/-!
# Substitution of variables

A text is made of runs of characters, references with and without braces, and dollar signs that
stand for themselves. `Splits` says how, part by part from the left, and no text is made of parts in
two ways. Expanding a text puts values into the places of the references, all of them at once: what
a value holds is not looked at, so that a dollar sign in it is a character like any other. If a
variable is not set, the first reference to such a one is what expanding fails with.
-/

namespace ReportSql.Settings

open ReportSql.Decimal (StartsWithout startsWithout_cons startsWithout_dropWhile startsWithout_nil
  startsWithout_of_takeWhile)

/-! ## The parts of a text -/

/-- A part of a text as it is written. -/
inductive Part where
  /-- Characters that are no dollar signs. -/
  | literal (run : List Char)
  /-- A reference in braces. -/
  | braced (name : List Char)
  /-- A reference behind a brace that nothing closes. -/
  | unclosed (name : List Char)
  /-- A reference without braces. -/
  | bare (name : List Char)
  /-- A dollar sign that starts no reference. -/
  | dollar

namespace Part

/-- The part as it is written. -/
def text : Part → List Char
  | literal run => run
  | braced name => '$' :: '\x7b' :: (name ++ ['\x7d'])
  | unclosed name => '$' :: '\x7b' :: name
  | bare name => '$' :: name
  | dollar => ['$']

/-- The part is well-formed and reaches as far as it can before the rest of a text. -/
def Fits (rest : List Char) : Part → Prop
  | literal run => run ≠ [] ∧ '$' ∉ run ∧ StartsWithout (· != '$') rest
  | braced name => '\x7d' ∉ name
  | unclosed name => '\x7d' ∉ name ∧ rest = []
  | bare name => name ≠ [] ∧ (∀ c ∈ name, isNameChar c = true) ∧ StartsWithout isNameChar rest
  | dollar => StartsWithout (fun c => c == '\x7b' || isNameChar c) rest

/-- The name of the variable that the part refers to. -/
def variableName? : Part → Option String
  | braced name | unclosed name | bare name => some (.ofList name)
  | literal _ | dollar => none

/-- What the part stands for; a variable that is not set counts as empty. -/
def value (env : Environment) : Part → List Char
  | literal run => run
  | braced name | unclosed name | bare name => ((env (.ofList name)).getD "").toList
  | dollar => ['$']

end Part

/-- The text is made of the parts, from left to right. -/
inductive Splits : List Char → List Part → Prop where
  | nil : Splits [] []
  | cons {p : Part} {rest : List Char} {parts : List Part} : p.Fits rest → Splits rest parts →
      Splits (p.text ++ rest) (p :: parts)

/-! ## Every text is made of parts in one way -/

/-- The part that a text starts with, and what is behind it. -/
def front : List Char → Part × List Char
  | '$' :: '\x7b' :: s =>
    if '\x7d' ∈ s then (.braced (bracedName s), afterBrace s) else (.unclosed s, [])
  | '$' :: s =>
    if s.takeWhile isNameChar = [] then (.dollar, s)
    else (.bare (s.takeWhile isNameChar), s.dropWhile isNameChar)
  | s => (.literal (s.takeWhile (· != '$')), s.dropWhile (· != '$'))

theorem notMem_iff_all_ne {c : Char} {s : List Char} : c ∉ s ↔ ∀ d ∈ s, (d != c) = true := by
  constructor
  · intro h d hd
    rw [bne_iff_ne]
    rintro rfl
    exact h hd
  · intro h hc
    exact bne_iff_ne.mp (h c hc) rfl

theorem notMem_takeWhile_ne (c : Char) (s : List Char) : c ∉ s.takeWhile (· != c) :=
  notMem_iff_all_ne.mpr fun _ hd => List.mem_takeWhile_imp (p := (· != c)) hd

/-- A name in braces ends where the text goes on with a closing brace, or ends. -/
theorem bracedName_append {name s : List Char} (hname : '\x7d' ∉ name)
    (hs : StartsWithout (· != '\x7d') s) :
    bracedName (name ++ s) = name ∧ afterBrace (name ++ s) = s.drop 1 := by
  rw [notMem_iff_all_ne] at hname
  rw [bracedName, afterBrace, hs.takeWhile_append hname, hs.dropWhile_append hname]
  exact ⟨rfl, rfl⟩

theorem bracedName_closed {name : List Char} (h : '\x7d' ∉ name) (rest : List Char) :
    bracedName (name ++ '\x7d' :: rest) = name ∧ afterBrace (name ++ '\x7d' :: rest) = rest :=
  bracedName_append h (startsWithout_cons rfl rest)

theorem bracedName_unclosed {name : List Char} (h : '\x7d' ∉ name) :
    bracedName name = name ∧ afterBrace name = [] := by
  simpa using bracedName_append h (startsWithout_nil _)

/-- A brace is no part of a name, so that no text goes on in two ways behind a dollar sign. -/
theorem ne_brace_of_isNameChar {c : Char} (h : isNameChar c = true) : c ≠ '\x7b' := by
  rintro rfl
  exact absurd h (by decide)

theorem front_dollar {s : List Char} (hbrace : ∀ t, s = '\x7b' :: t → False) :
    front ('$' :: s) =
      if s.takeWhile isNameChar = [] then (.dollar, s)
      else (.bare (s.takeWhile isNameChar), s.dropWhile isNameChar) := by
  rw [front]
  exact hbrace

theorem front_char {c : Char} (hc : c ≠ '$') (s : List Char) :
    front (c :: s) = (.literal ((c :: s).takeWhile (· != '$')), (c :: s).dropWhile (· != '$')) := by
  rw [front]
  all_goals simp [hc]

/-- **A text starts with one part only**, and that is found by its front. -/
theorem front_append {p : Part} {rest : List Char} (h : p.Fits rest) :
    front (p.text ++ rest) = (p, rest) := by
  cases p with
  | literal run =>
    obtain ⟨hne, hrun, hrest⟩ := h
    obtain ⟨c, run, rfl⟩ := List.exists_cons_of_ne_nil hne
    have hc : c ≠ '$' := fun heq => hrun (heq ▸ List.mem_cons_self ..)
    have hall := notMem_iff_all_ne.mp hrun
    rw [Part.text, List.cons_append, front_char hc, ← List.cons_append,
      hrest.takeWhile_append hall, hrest.dropWhile_append hall]
  | braced name =>
    obtain ⟨hname, hafter⟩ := bracedName_closed h rest
    have htext : Part.text (.braced name) ++ rest = '$' :: '\x7b' :: (name ++ '\x7d' :: rest) := by
      simp [Part.text]
    rw [htext, front, if_pos (by simp), hname, hafter]
  | unclosed name =>
    obtain ⟨hclosed, rfl⟩ := h
    rw [List.append_nil, Part.text, front, if_neg hclosed]
  | bare name =>
    obtain ⟨hne, hname, hrest⟩ := h
    have htake := hrest.takeWhile_append hname
    have hbrace : ∀ t, name ++ rest = '\x7b' :: t → False := by
      obtain ⟨c, name, rfl⟩ := List.exists_cons_of_ne_nil hne
      intro t ht
      exact ne_brace_of_isNameChar (hname c (List.mem_cons_self ..)) (List.cons.inj ht).1
    rw [Part.text, List.cons_append, front_dollar hbrace, htake, if_neg hne,
      hrest.dropWhile_append hname]
  | dollar =>
    have hrest : StartsWithout isNameChar rest := fun c hc => (Bool.or_eq_false_iff.mp (h c hc)).2
    have hbrace : ∀ t, rest = '\x7b' :: t → False := by
      rintro t rfl
      exact absurd (h '\x7b' rfl) (by decide)
    rw [Part.text, List.singleton_append, front_dollar hbrace, if_pos hrest.takeWhile_eq]

/-- The front of a text fits there, and nothing is lost. -/
theorem front_fits {s : List Char} (hs : s ≠ []) :
    (front s).1.Fits (front s).2 ∧ (front s).1.text ++ (front s).2 = s := by
  fun_cases front s with
  | case1 s hclosed =>
    obtain ⟨name, rest, rfl, hopen⟩ := List.eq_append_cons_of_mem hclosed
    obtain ⟨hname, hafter⟩ := bracedName_closed hopen rest
    rw [hname, hafter]
    exact ⟨hopen, by simp [Part.text]⟩
  | case2 s hopen => exact ⟨⟨hopen, rfl⟩, List.append_nil _⟩
  | case3 s hbrace hname =>
    refine ⟨fun c hc => Bool.or_eq_false_iff.mpr ⟨?_, ?_⟩, rfl⟩
    · obtain ⟨t, rfl⟩ := List.head?_eq_some_iff.mp hc
      exact beq_eq_false_iff_ne.mpr fun heq => hbrace t (by rw [heq])
    · exact startsWithout_of_takeWhile hname c hc
  | case4 s hbrace hname =>
    refine ⟨⟨hname, fun c hc => List.mem_takeWhile_imp hc, ?_⟩, ?_⟩
    · exact startsWithout_dropWhile isNameChar s
    · exact congrArg _ List.takeWhile_append_dropWhile
  | case5 _ _ hdollar =>
    obtain ⟨c, t, rfl⟩ := List.exists_cons_of_ne_nil hs
    have hc : c ≠ '$' := fun heq => hdollar t (heq ▸ rfl)
    have hne : (c :: t).takeWhile (· != '$') ≠ [] := by simp [hc]
    refine ⟨⟨hne, notMem_takeWhile_ne _ _, ?_⟩, List.takeWhile_append_dropWhile⟩
    exact startsWithout_dropWhile _ _

theorem Part.text_ne_nil {p : Part} {rest : List Char} (h : p.Fits rest) : p.text ≠ [] := by
  cases p with
  | literal run => exact h.1
  | _ => exact List.cons_ne_nil _ _

theorem exists_splits (s : List Char) : ∃ parts, Splits s parts := by
  induction hlength : s.length using Nat.strong_induction_on generalizing s with
  | _ n ih =>
    by_cases hs : s = []
    · exact ⟨[], hs ▸ .nil⟩
    · obtain ⟨hfits, htext⟩ := front_fits hs
      have hpos := List.length_pos_iff.mpr (Part.text_ne_nil hfits)
      have hshorter : (front s).2.length < n := by
        rw [← hlength, ← congrArg List.length htext, List.length_append]
        omega
      obtain ⟨parts, hparts⟩ := ih _ hshorter (front s).2 rfl
      refine ⟨(front s).1 :: parts, ?_⟩
      have hsplits := Splits.cons hfits hparts
      rwa [htext] at hsplits

theorem Splits.unique {s : List Char} {parts others : List Part} (h : Splits s parts)
    (hothers : Splits s others) : others = parts := by
  induction h generalizing others with
  | nil =>
    generalize hs : ([] : List Char) = s at hothers
    cases hothers with
    | nil => rfl
    | cons hp _ => exact absurd (List.append_eq_nil_iff.mp hs.symm).1 (Part.text_ne_nil hp)
  | @cons p rest parts hp _ ih =>
    generalize hs : p.text ++ rest = s at hothers
    cases hothers with
    | nil => exact absurd (List.append_eq_nil_iff.mp hs).1 (Part.text_ne_nil hp)
    | @cons q rest' others hq hrest =>
      have hfront : (p, rest) = (q, rest') := by rw [← front_append hp, hs, front_append hq]
      obtain ⟨rfl, rfl⟩ := Prod.mk.inj hfront
      rw [ih hrest]

/-! ## The pieces of the parts -/

/-- The pieces that the part is taken apart into. -/
def Part.pieces : Part → List Piece
  | literal run => run.map .char
  | braced name | unclosed name | bare name => [.reference name]
  | dollar => [.char '$']

theorem pieces_char {c : Char} (hc : c ≠ '$') (s : List Char) :
    pieces (c :: s) = .char c :: pieces s := by
  rw [pieces]
  all_goals simp [hc]

theorem pieces_brace (s : List Char) :
    pieces ('$' :: '\x7b' :: s) = .reference (bracedName s) :: pieces (afterBrace s) := by
  rw [pieces]

theorem pieces_dollar {s : List Char} (hbrace : ∀ t, s = '\x7b' :: t → False) :
    pieces ('$' :: s) =
      if s.takeWhile isNameChar = [] then .char '$' :: pieces s
      else .reference (s.takeWhile isNameChar) :: pieces (s.dropWhile isNameChar) := by
  rw [pieces]
  · simp only [List.isEmpty_iff]
  · exact hbrace

theorem pieces_literal {run : List Char} (hrun : '$' ∉ run) (s : List Char) :
    pieces (run ++ s) = run.map .char ++ pieces s := by
  induction run with
  | nil => rfl
  | cons c run ih =>
    rw [List.mem_cons, not_or] at hrun
    rw [List.cons_append, pieces_char (Ne.symm hrun.1), ih hrun.2, List.map_cons, List.cons_append]

/-- The pieces of a text start with those of its front. -/
theorem pieces_front {s : List Char} (hs : s ≠ []) :
    pieces s = (front s).1.pieces ++ pieces (front s).2 := by
  fun_cases front s with
  | case1 s hclosed => exact pieces_brace s
  | case2 s hopen =>
    obtain ⟨hname, hafter⟩ := bracedName_unclosed hopen
    rw [pieces_brace, hname, hafter]
    rfl
  | case3 s hbrace hname => rw [pieces_dollar hbrace, if_pos hname]; rfl
  | case4 s hbrace hname => rw [pieces_dollar hbrace, if_neg hname]; rfl
  | case5 _ hdollar =>
    have hpieces := pieces_literal (notMem_takeWhile_ne '$' s) (s.dropWhile (· != '$'))
    rwa [List.takeWhile_append_dropWhile] at hpieces

theorem Splits.pieces_eq {s : List Char} {parts : List Part} (h : Splits s parts) :
    pieces s = parts.flatMap Part.pieces := by
  induction h with
  | nil => rw [pieces, List.flatMap_nil]
  | cons hp _ ih =>
    have hne := List.append_ne_nil_of_left_ne_nil (Part.text_ne_nil hp)
    rw [pieces_front (hne _), front_append hp, ih, List.flatMap_cons]

/-! ## Expanding -/

section

variable {env : Environment} {p : Part}

theorem expandPieces_chars (env : Environment) (run : List Char) (ps : List Piece) :
    expandPieces env (run.map .char ++ ps) = (expandPieces env ps).map (run ++ ·) := by
  induction run with
  | nil => cases h : expandPieces env ps <;> simp [h, Except.map]
  | cons c run ih =>
    rw [List.map_cons, List.cons_append, expandPieces, ih]
    cases expandPieces env ps <;> rfl

/-- A part whose variable is set, if it refers to one, is replaced by what it stands for. -/
theorem expandPieces_set (h : ∀ name, p.variableName? = some name → env name ≠ none)
    (ps : List Piece) :
    expandPieces env (p.pieces ++ ps) = (expandPieces env ps).map (p.value env ++ ·) := by
  cases p with
  | literal run => exact expandPieces_chars env run ps
  | dollar => exact expandPieces_chars env ['$'] ps
  | braced name | unclosed name | bare name =>
    obtain ⟨value, hvalue⟩ := Option.ne_none_iff_exists'.mp (h _ rfl)
    rw [Part.pieces, List.singleton_append, expandPieces, hvalue, Part.value, hvalue]
    cases expandPieces env ps <;> rfl

theorem expandPieces_unset {name : String} (hname : p.variableName? = some name)
    (hunset : env name = none) (ps : List Piece) :
    expandPieces env (p.pieces ++ ps) = .error ⟨name⟩ := by
  cases p with
  | literal _ | dollar => cases hname
  | braced _ | unclosed _ | bare _ =>
    cases hname
    rw [Part.pieces, List.singleton_append, expandPieces, hunset]

end

/-- The first of the variables that is not set. -/
def firstUnset? (env : Environment) (names : List String) : Option String :=
  names.find? fun name => (env name).isNone

section

variable {env : Environment} {name : String}

theorem firstUnset?_cons_unset (h : env name = none) (names : List String) :
    firstUnset? env (name :: names) = some name :=
  List.find?_cons_of_pos (by simp [h])

theorem firstUnset?_cons_set {value : String} (h : env name = some value) (names : List String) :
    firstUnset? env (name :: names) = firstUnset? env names :=
  List.find?_cons_of_neg (by simp [h])

end

theorem expandPieces_parts (env : Environment) (parts : List Part) :
    expandPieces env (parts.flatMap Part.pieces) =
      match firstUnset? env (parts.filterMap Part.variableName?) with
      | some name => .error ⟨name⟩
      | none => .ok (parts.flatMap (Part.value env)) := by
  induction parts with
  | nil => rfl
  | cons p parts ih =>
    rw [List.flatMap_cons, List.flatMap_cons]
    cases hname : p.variableName? with
    | none =>
      rw [expandPieces_set (by simp [hname]), ih, List.filterMap_cons_none hname]
      split <;> rfl
    | some name =>
      rw [List.filterMap_cons_some hname]
      cases hvalue : env name with
      | none =>
        rw [expandPieces_unset hname hvalue, firstUnset?_cons_unset hvalue]
      | some value =>
        rw [expandPieces_set (by simp [hname, hvalue]), ih, firstUnset?_cons_set hvalue]
        split <;> rfl

/-- **Expanding is one substitution from left to right.** Every text is made of parts in exactly one
way. If all variables that it refers to are set, what the parts stand for makes up the expanded
text; otherwise expanding fails with the first of those that are not set. -/
theorem expand_substitutes (s : String) :
    ∃ parts, (∀ others, Splits s.toList others ↔ others = parts) ∧
      ∀ env, expand env s =
        match firstUnset? env (parts.filterMap Part.variableName?) with
        | some name => .error ⟨name⟩
        | none => .ok (.ofList (parts.flatMap (Part.value env))) := by
  obtain ⟨parts, hparts⟩ := exists_splits s.toList
  refine ⟨parts, fun others => ⟨hparts.unique, fun h => h ▸ hparts⟩, ?_⟩
  intro env
  rw [expand, hparts.pieces_eq, expandPieces_parts]
  split <;> rfl

/-- The first dollar sign starts no reference, and neither do those that are put in. -/
example : expand (fun name => if name = "A" then some "$B" else none) "$$A/$\x7bA" =
    .ok "$$B/$B" := by
  cbv

end ReportSql.Settings
