import ReportSql.Proofs.Fragments
import ReportSql.Proofs.Gate

/-!
# The normal form is stable

Bringing a statement to its normal form twice is the same as doing it once, and so the gate judges a
statement and its normal form alike. The content of a statement is its own content; and nothing that
is dropped at the end of a text, be it a part of an open quote or comment, changes what the normal
form of the text is.
-/

namespace ReportSql.Gate

section

variable {c : Char} {m : Mode} {s t tail : List Char} {ps qs : List Piece}

/-! ## The content of the content -/

theorem squeeze_squeeze (after : Bool) (segs : List Segment) :
    squeeze false (squeeze after segs) = squeeze after segs := by
  fun_induction squeeze after segs with
  | case1 => rfl
  | case2 after x segs hgap ih => exact ih
  | case3 x segs hgap ih =>
    have hx : x.isGap = false := eq_false_of_ne_true hgap
    rw [squeeze_gap rfl, squeeze_true_fragment hx, ih]
  | case4 after x segs hgap hafter ih =>
    rw [squeeze_false_fragment (eq_false_of_ne_true hgap), ih]

/-- The content starts with a fragment. -/
theorem dropWhile_content (s : List Char) : (content s).dropWhile Segment.isGap = content s := by
  rw [content]
  cases hsegs : (segments s).dropWhile Segment.isGap with
  | nil => rfl
  | cons x segs =>
    have hx : x.isGap = false := by
      have := List.head?_dropWhile_not Segment.isGap (segments s)
      rw [hsegs] at this
      exact this
    rw [squeeze_false_fragment hx, List.dropWhile_cons_of_neg (by simp [hx])]

theorem content_content (s : List Char) :
    content ((content s).flatMap Segment.text) = content s := by
  rw [content, segments_content, dropWhile_content, content, squeeze_squeeze]

/-! ## Text that is dropped at the end -/

/-- The second pieces are the first ones and some more, whose characters are all dropped at the end
of a statement. -/
def ContinueIdly (ps qs : List Piece) : Prop :=
  ∃ more, qs = ps ++ more ∧ ∀ c, .char c ∈ more → isTrailing c = true

theorem ContinueIdly.cons (h : ContinueIdly ps qs) (p : Piece) :
    ContinueIdly (p :: ps) (p :: qs) := by
  obtain ⟨more, rfl, hmore⟩ := h
  exact ⟨more, rfl, hmore⟩

theorem mem_of_char_mem_pieces (h : .char c ∈ pieces m s) : c ∈ s := by
  fun_induction pieces m s with
  | case1 => cases h
  | case2 s ih | case3 s ih =>
    exact .tail _ (.tail _ (ih ((List.mem_cons.mp h).resolve_left nofun)))
  | case4 d s hline hblock hquote ih | case6 d s hline hblock hquote hblank ih
  | case7 quote d s ih =>
    rcases List.mem_cons.mp h with h | h
    · exact Piece.char.inj h ▸ .head _
    · exact .tail _ (ih h)
  | case5 d s hline hblock hquote hblank ih | case8 s ih =>
    exact .tail _ (ih ((List.mem_cons.mp h).resolve_left nofun))
  | case9 d s hline ih | case11 d s hclose ih => exact .tail _ (ih h)
  | case10 s ih => exact .tail _ (.tail _ (ih h))

theorem exists_cons_of_append (htail : ∀ c ∈ tail, isTrailing c = true)
    (hc : isTrailing c = false) (h : s ++ tail = c :: t) : ∃ rest, s = c :: rest := by
  cases s with
  | nil =>
    have hmem : c ∈ tail := List.mem_of_mem_head? (congrArg List.head? h)
    have htrailing := htail c hmem
    rw [hc] at htrailing
    cases htrailing
  | cons d s =>
    obtain ⟨rfl, -⟩ := List.cons.inj h
    exact ⟨s, rfl⟩

/-- A text that is dropped at the end of another one neither opens a comment with it nor closes one,
and so adds to the pieces none but its own. -/
theorem continueIdly_pieces (htail : ∀ c ∈ tail, isTrailing c = true) (m : Mode) (s : List Char) :
    ContinueIdly (pieces m s) (pieces m (s ++ tail)) := by
  fun_induction pieces m s with
  | case1 m => exact ⟨pieces m tail, rfl, fun c hc => htail c (mem_of_char_mem_pieces hc)⟩
  | case2 s ih | case3 s ih => exact ih.cons .gap
  | case4 d s hline hblock hquote ih =>
    rw [List.cons_append, pieces, if_pos hquote]
    · exact ih.cons (.char d)
    · rintro t rfl -
      cases hquote
    · rintro t rfl -
      cases hquote
  | case5 d s hline hblock hquote hblank ih =>
    rw [List.cons_append, pieces, if_neg hquote, if_pos hblank]
    · exact ih.cons .gap
    · rintro t rfl -
      cases hblank
    · rintro t rfl -
      cases hblank
  | case6 d s hline hblock hquote hblank ih =>
    rw [List.cons_append, pieces, if_neg hquote, if_neg hblank]
    · exact ih.cons (.char d)
    · rintro t rfl ht
      obtain ⟨rest, rfl⟩ := exists_cons_of_append htail rfl ht
      exact hline rest rfl rfl
    · rintro t rfl ht
      obtain ⟨rest, rfl⟩ := exists_cons_of_append htail rfl ht
      exact hblock rest rfl rfl
  | case7 quote d s ih =>
    rw [List.cons_append, pieces]
    exact ih.cons (.char d)
  | case8 s ih => exact ih.cons .gap
  | case9 d s hline ih =>
    rw [List.cons_append, pieces, if_neg hline]
    exact ih
  | case10 s ih => exact ih
  | case11 d s hclose ih =>
    rw [List.cons_append, pieces]
    · exact ih
    · rintro t rfl ht
      obtain ⟨rest, rfl⟩ := exists_cons_of_append htail rfl ht
      exact hclose rest rfl rfl

theorem trimTrailing_append (htail : ∀ c ∈ tail, isTrailing c = true) (s : List Char) :
    trimTrailing (s ++ tail) = trimTrailing s := by
  rw [trimTrailing, List.reverse_append,
    List.dropWhile_append_of_pos fun c hc => htail c (List.mem_reverse.mp hc), trimTrailing]

theorem ContinueIdly.exists_spaced_append (h : ContinueIdly ps qs) (after : Bool) :
    ∃ tail, spaced after qs = spaced after ps ++ tail ∧ ∀ c ∈ tail, isTrailing c = true := by
  obtain ⟨more, rfl, hmore⟩ := h
  induction ps generalizing after with
  | nil => exact ⟨spaced after more, by simp [spaced], (forall_mem_spaced after more).mpr hmore⟩
  | cons p ps ih =>
    cases p with
    | gap => simpa [spaced] using ih true
    | char c => cases after <;> simpa [spaced] using ih false

theorem ContinueIdly.dropWhile (h : ContinueIdly ps qs) :
    ContinueIdly (ps.dropWhile fun p => p == .gap) (qs.dropWhile fun p => p == .gap) := by
  obtain ⟨more, rfl, hmore⟩ := h
  rw [List.dropWhile_append]
  split
  · rename_i hnil
    refine ⟨more.dropWhile fun p => p == .gap, ?_, fun c hc => hmore c ?_⟩
    · rw [List.isEmpty_iff.mp hnil, List.nil_append]
    · exact (List.dropWhile_suffix _).mem hc
  · exact ⟨more, rfl, hmore⟩

/-- What is dropped at the end of the normal form may be dropped before. -/
theorem normalize_append (htail : ∀ c ∈ tail, isTrailing c = true) (s : List Char) :
    normalize (s ++ tail) = normalize s := by
  have hpieces := (continueIdly_pieces htail .plain s).dropWhile
  obtain ⟨more, happ, hmore⟩ := hpieces.exists_spaced_append false
  rw [normalize, happ, trimTrailing_append hmore, normalize]

theorem normalize_trimTrailing (s : List Char) : normalize (trimTrailing s) = normalize s := by
  obtain ⟨tail, happ, htail⟩ := exists_trimTrailing_append s
  rw [← normalize_append htail, happ]

/-! ## Stability -/

theorem normalize_normalize (s : List Char) : normalize (normalize s) = normalize s := by
  calc normalize (normalize s)
      = normalize (trimTrailing ((content s).flatMap Segment.text)) := by rw [normalize_eq s]
    _ = normalize ((content s).flatMap Segment.text) := normalize_trimTrailing _
    _ = trimTrailing ((content s).flatMap Segment.text) := by rw [normalize_eq, content_content]
    _ = normalize s := (normalize_eq s).symm

/-- A statement is let through in its normal form. -/
theorem eq_normalize_of_check {n : List Char} (h : check s = .ok n) : n = normalize s := by
  rw [check, judge] at h
  split at h
  · cases h
  · split at h
    · cases h
    · split at h
      · cases h
      · exact (Except.ok.inj h).symm

/-- **The gate is stable on its own output.** The normal form of a normal form is the same text,
whether or not its quoted texts and comments are closed. So a statement and its normal form get the
same verdict, and what is let through is let through again as it is. -/
theorem gate_stable (s : List Char) :
    normalize (normalize s) = normalize s ∧ check (normalize s) = check s ∧
      ∀ n, check s = .ok n → check n = .ok n := by
  have hcheck : check (normalize s) = check s := by rw [check, normalize_normalize, check]
  refine ⟨normalize_normalize s, hcheck, fun n hn => ?_⟩
  obtain rfl := eq_normalize_of_check hn
  exact hcheck.trans hn

theorem openQuote_let_through_again :
    check "select 'a --; ".toList = .ok "select 'a --".toList ∧
      check "select 'a --".toList = .ok "select 'a --".toList := by
  have h : check "select 'a --; ".toList = .ok "select 'a --".toList := by decide +kernel
  exact ⟨h, (gate_stable _).2.2 _ h⟩

end

end ReportSql.Gate
