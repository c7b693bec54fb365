import ReportSql.Text.Replace

/-!
# Passes over texts that differ in one part

A pass replaces whatever a finder finds in a text. Two texts may differ in one part, which stands
between two spaces. A finder that never tells the parts apart from outside of them keeps both passes
in step: either what it finds before the parts goes on to their ends, and the difference is gone, or
both parts are passed by themselves, and the texts still differ in what has become of them only.
-/

namespace ReportSql.Text

/-- The texts are the same but for one part between spaces, which is `x` in the first text and `y`
in the second. -/
inductive DifferIn (x y : List Char) : List Char → List Char → Prop where
  | nowhere (s : List Char) : DifferIn x y s s
  | part (p s : List Char) :
      DifferIn x y (p ++ ' ' :: (x ++ ' ' :: s)) (p ++ ' ' :: (y ++ ' ' :: s))

/-- What is found at the start of two texts that go on alike for `n` characters and a space, and
then with parts of `l` and `m` characters: nothing in both, the same before the parts, or everything
up to the ends of the parts. -/
inductive InStep (n l m : Nat) : Option Found → Option Found → Prop where
  | nothing : InStep n l m none none
  | before {f : Found} : f.length ≤ n → InStep n l m (some f) (some f)
  | through (r : List Char) : InStep n l m (some ⟨n + 1 + l, r⟩) (some ⟨n + 1 + m, r⟩)

/-- The finder never starts at a space, and does not tell the parts `x` and `y` apart from anywhere
before them. -/
structure BlindTo (find : Finder) (x y : List Char) : Prop where
  space : ∀ before s, find before (' ' :: s) = none
  inStep : ∀ before w s, InStep w.length x.length y.length
    (find before (w ++ ' ' :: (x ++ ' ' :: s))) (find before (w ++ ' ' :: (y ++ ' ' :: s)))

/-- The part `x` becomes `x'` when a pass reaches it between spaces, whatever follows. -/
def Turns (find : Finder) (x x' : List Char) : Prop :=
  ∀ s, replaceFrom find 0 (some ' ') (x ++ ' ' :: s) = x' ++ ' ' :: replaceFrom find 0 (some ' ') s

/-- What the finder finds never reaches beyond a space, and does not depend on what is there. -/
structure Confined (find : Finder) : Prop where
  nothing : ∀ before, find before [] = none
  append : ∀ before w s, find before (w ++ ' ' :: s) = find before w
  length_le : ∀ {before w f}, find before w = some f → f.length ≤ w.length

variable {find : Finder} {x y x' y' s t : List Char}

/-! ## Texts that differ in a part -/

theorem DifferIn.eq (h : DifferIn x x s t) : s = t := by
  cases h <;> rfl

theorem DifferIn.append_left (h : DifferIn x y s t) (r : List Char) :
    DifferIn x y (r ++ s) (r ++ t) := by
  cases h with
  | nowhere s => exact .nowhere (r ++ s)
  | part p s =>
    rw [← List.append_assoc, ← List.append_assoc]
    exact .part (r ++ p) s

/-! ## One pass -/

theorem replaceFrom_space (hspace : ∀ before s, find before (' ' :: s) = none)
    (before : Option Char) (s : List Char) :
    replaceFrom find 0 before (' ' :: s) = ' ' :: replaceFrom find 0 (some ' ') s := by
  rw [replaceFrom, hspace]

/-- What has been found is passed, and the pass goes on at the space behind it. -/
theorem replaceFrom_passed (hspace : ∀ before s, find before (' ' :: s) = none)
    (u : List Char) (before : Option Char) (s : List Char) :
    replaceFrom find u.length before (u ++ ' ' :: s) = ' ' :: replaceFrom find 0 (some ' ') s := by
  induction u generalizing before with
  | nil => exact replaceFrom_space hspace before s
  | cons c u ih => exact ih (some c)

/-- **A step in both texts.** While a pass has not reached the parts, it does the same in both
texts, or it passes both parts at once. -/
theorem differIn_replaceFrom (hblind : BlindTo find x y) (hx : Turns find x x')
    (hy : Turns find y y') (p s : List Char) {skip : Nat} (hskip : skip ≤ p.length)
    (before : Option Char) :
    DifferIn x' y' (replaceFrom find skip before (p ++ ' ' :: (x ++ ' ' :: s)))
      (replaceFrom find skip before (p ++ ' ' :: (y ++ ' ' :: s))) := by
  induction p generalizing skip before with
  | nil =>
    obtain rfl : skip = 0 := Nat.le_zero.mp hskip
    rw [List.nil_append, List.nil_append, replaceFrom_space hblind.space,
      replaceFrom_space hblind.space, hx s, hy s]
    exact .part [] _
  | cons c p ih =>
    cases skip with
    | succ skip => exact ih (Nat.le_of_succ_le_succ hskip) (some c)
    | zero =>
      have hstep := hblind.inStep before (c :: p) s
      simp only [List.cons_append, replaceFrom] at hstep ⊢
      generalize find before (c :: (p ++ ' ' :: (x ++ ' ' :: s))) = found at hstep ⊢
      generalize find before (c :: (p ++ ' ' :: (y ++ ' ' :: s))) = found' at hstep ⊢
      cases hstep with
      | nothing => exact (ih (Nat.zero_le _) (some c)).append_left [c]
      | @before f hlength =>
        refine (ih ?_ (some c)).append_left f.replacement
        rw [List.length_cons] at hlength
        omega
      | through r =>
        -- both texts go on behind their parts, and there they are the same
        have hpassed : ∀ z : List Char,
            replaceFrom find ((c :: p).length + 1 + z.length - 1) (some c)
              (p ++ ' ' :: (z ++ ' ' :: s)) = ' ' :: replaceFrom find 0 (some ' ') s := by
          intro z
          have hlength : (c :: p).length + 1 + z.length - 1 = (p ++ ' ' :: z).length := by
            simp only [List.length_cons, List.length_append]
            omega
          have htext : p ++ ' ' :: (z ++ ' ' :: s) = (p ++ ' ' :: z) ++ ' ' :: s := by
            rw [List.append_assoc, List.cons_append]
          rw [hlength, htext, replaceFrom_passed hblind.space]
        simp only [hpassed]
        exact .nowhere _

/-- A pass keeps two texts the same but for what becomes of their parts. -/
theorem DifferIn.replaceAll (h : DifferIn x y s t) (hblind : BlindTo find x y)
    (hx : Turns find x x') (hy : Turns find y y') :
    DifferIn x' y' (replaceAll find s) (replaceAll find t) := by
  cases h with
  | nowhere s => exact .nowhere _
  | part p s => exact differIn_replaceFrom hblind hx hy p s (Nat.zero_le _) none

/-! ## What becomes of a part -/

/-- A pass writes no characters but those of the text and of what stands for what is found. -/
theorem forall_mem_replaceFrom {P : Char → Prop}
    (hfound : ∀ before s f, find before s = some f → ∀ c ∈ f.replacement, P c)
    (hs : ∀ c ∈ s, P c) (skip : Nat) (before : Option Char) :
    ∀ c ∈ replaceFrom find skip before s, P c := by
  induction s generalizing skip before with
  | nil =>
    rw [replaceFrom]
    exact hs
  | cons d s ih =>
    obtain ⟨hd, hs⟩ := List.forall_mem_cons.mp hs
    cases skip with
    | succ skip => exact ih hs skip (some d)
    | zero =>
      rw [replaceFrom]
      split
      · rename_i f hf
        exact List.forall_mem_append.mpr ⟨hfound _ _ f hf, ih hs _ (some d)⟩
      · exact List.forall_mem_cons.mpr ⟨hd, ih hs 0 (some d)⟩

theorem replaceFrom_ne_nil (hfound : ∀ before s f, find before s = some f → f.replacement ≠ [])
    (hne : s ≠ []) (before : Option Char) : replaceFrom find 0 before s ≠ [] := by
  obtain ⟨c, s, rfl⟩ := List.exists_cons_of_ne_nil hne
  rw [replaceFrom]
  split
  · rename_i f hf
    exact List.append_ne_nil_of_left_ne_nil (hfound _ _ f hf) _
  · exact List.cons_ne_nil _ _

/-- A part that is found as a whole is replaced. -/
theorem turns_of_found (hspace : ∀ before s, find before (' ' :: s) = none) (hne : x ≠ [])
    (h : ∀ s, find (some ' ') (x ++ ' ' :: s) = some ⟨x.length, x'⟩) : Turns find x x' := by
  obtain ⟨c, u, rfl⟩ := List.exists_cons_of_ne_nil hne
  intro s
  rw [List.cons_append, replaceFrom, ← List.cons_append, h s]
  exact congrArg (x' ++ ·) (replaceFrom_passed hspace u (some c) s)

/-- A part in which nothing is found stays as it is. -/
theorem turns_self (hspace : ∀ before s, find before (' ' :: s) = none)
    (h : ∀ c ∈ x, ∀ before s, find before (c :: s) = none) : Turns find x x := by
  suffices hany : ∀ before s, replaceFrom find 0 before (x ++ ' ' :: s) =
      x ++ ' ' :: replaceFrom find 0 (some ' ') s from hany (some ' ')
  induction x with
  | nil => exact replaceFrom_space hspace
  | cons c x ih =>
    intro before s
    have hrest := ih (fun d hd => h d (List.mem_cons_of_mem _ hd)) (some c) s
    rw [List.cons_append, replaceFrom, h c (List.mem_cons_self ..)]
    exact congrArg (c :: ·) hrest

namespace Confined

theorem space (h : Confined find) (before : Option Char) (s : List Char) :
    find before (' ' :: s) = none :=
  (h.append before [] s).trans (h.nothing before)

theorem blindTo (h : Confined find) (x y : List Char) : BlindTo find x y where
  space := h.space
  inStep before w s := by
    rw [h.append, h.append]
    cases hfound : find before w with
    | none => exact .nothing
    | some f => exact .before (h.length_le hfound)

/-- The pass deals with what stands between spaces by itself. -/
theorem replaceFrom_append (h : Confined find) (w s : List Char) {skip : Nat}
    (hskip : skip ≤ w.length) (before : Option Char) :
    replaceFrom find skip before (w ++ ' ' :: s) =
      replaceFrom find skip before w ++ ' ' :: replaceFrom find 0 (some ' ') s := by
  induction w generalizing skip before with
  | nil =>
    obtain rfl : skip = 0 := Nat.le_zero.mp hskip
    exact replaceFrom_space h.space before s
  | cons c w ih =>
    cases skip with
    | succ skip => exact ih (Nat.le_of_succ_le_succ hskip) (some c)
    | zero =>
      rw [List.cons_append, replaceFrom, replaceFrom, ← List.cons_append, h.append]
      cases hfound : find before (c :: w) with
      | none => exact congrArg (c :: ·) (ih (Nat.zero_le _) (some c))
      | some f =>
        have hlength := h.length_le hfound
        rw [List.length_cons] at hlength
        simp only
        rw [ih (by omega), List.append_assoc]

theorem turns (h : Confined find) (x : List Char) :
    Turns find x (replaceFrom find 0 (some ' ') x) :=
  fun s => h.replaceFrom_append x s (Nat.zero_le _) (some ' ')

theorem turns_of_found (h : Confined find) (hx : find (some ' ') x = some ⟨x.length, x'⟩) :
    Turns find x x' := by
  have hne : x ≠ [] := by
    rintro rfl
    rw [h.nothing] at hx
    cases hx
  exact Text.turns_of_found h.space hne fun s => (h.append _ x s).trans hx

end Confined

end ReportSql.Text
