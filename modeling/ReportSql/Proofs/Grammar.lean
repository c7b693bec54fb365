import ReportSql.Sql.Expr

/-!
# The grammar of conditions

Conditions have the grammar of SQL. Division holds tightest, then come comparisons and the tests
`IN`, `BETWEEN`, `IS NULL` and `LIKE`, and conjunction holds least; operators of one level associate
to the left. An `AND` behind the lower bound of a `BETWEEN` belongs to the `BETWEEN`.

The grammar is unambiguous. This is seen from a reader that goes through the pieces once, from left
to right, with a stack of operators and brackets that wait for what is behind them: wherever a
phrase stands that the grammar derives, the reader finds the tree of the phrase, so there is but
one.
-/

namespace ReportSql.Sql

/-! ## Trees -/

/-- What a condition says, without the pieces that it is written with. -/
inductive SyntaxTree where
  | truth (b : Bool)
  | column (table : Option String) (name : String)
  | number (x : Decimal.Double)
  | param (index : Nat)
  | binary (op : BinaryOp) (left right : SyntaxTree)
  | call (function : String) (distinct : Bool) (args : List SyntaxTree)
  | isIn (e : SyntaxTree) (negated : Bool) (values : List SyntaxTree)
  | between (e : SyntaxTree) (negated : Bool) (low high : SyntaxTree)
  | isNull (e : SyntaxTree) (negated : Bool)
  | like (e : SyntaxTree) (negated caseless : Bool) (escape : Char) (pattern : SyntaxTree)

/-! ## The grammar -/

/-- How tightly the parts of a phrase hold together, the tightest first. -/
inductive Level where
  | operand
  | quotient
  | test
  | conjunction
  deriving DecidableEq

namespace Level

def rank : Level → Nat
  | operand => 0
  | quotient => 1
  | test => 2
  | conjunction => 3

/-- The next tighter level. -/
def tighter : Level → Level
  | operand | quotient => operand
  | test => quotient
  | conjunction => test

theorem rank_tighter_le (level : Level) : level.tighter.rank ≤ level.rank := by
  cases level <;> decide

end Level

/-- The level of a phrase that an operator makes. -/
def BinaryOp.level : BinaryOp → Level
  | div => .quotient
  | eq | ne | lt | gt | le | ge => .test
  | and => .conjunction

theorem BinaryOp.rank_tighter_lt (op : BinaryOp) : op.level.tighter.rank < op.level.rank := by
  cases op <;> decide

/-- What pieces can be written for: a tree at a level, or trees with commas between them. -/
inductive Phrase where
  | tree (level : Level) (t : SyntaxTree)
  | list (ts : List SyntaxTree)

/-- The word that negates a test, if it is negated. -/
def notWord (negated : Bool) : List Token :=
  if negated then [.keyword .not] else []

/-- The grammar of conditions, over pieces that are no blanks. -/
inductive Derives : List Token → Phrase → Prop where
  | truth (b : Bool) :
    Derives [.keyword (if b then .trueValue else .falseValue)] (.tree .operand (.truth b))
  | column (name : String) : Derives [.identifier name] (.tree .operand (.column none name))
  | tableColumn (table name : String) :
    Derives [.identifier table, .dot, .identifier name]
      (.tree .operand (.column (some table) name))
  | number (x : Decimal.Double) : Derives [.real x] (.tree .operand (.number x))
  | param (index : Nat) : Derives [.placeholder index] (.tree .operand (.param index))
  | parens {ts : List Token} {t : SyntaxTree} :
    Derives ts (.tree .conjunction t) →
      Derives ([.leftParen] ++ ts ++ [.rightParen]) (.tree .operand t)
  | emptyCall (function : String) :
    Derives [.function function, .leftParen, .rightParen]
      (.tree .operand (.call function false []))
  | call (function : String) (distinct : Bool) {ts : List Token} {args : List SyntaxTree} :
    Derives ts (.list args) →
      Derives ([.function function, .leftParen]
          ++ (if distinct then [.keyword .distinct] else []) ++ ts ++ [.rightParen])
        (.tree .operand (.call function distinct args))
  | loosen (level : Level) {ts : List Token} {t : SyntaxTree} :
    Derives ts (.tree level.tighter t) → Derives ts (.tree level t)
  | binary (op : BinaryOp) {ls rs : List Token} {l r : SyntaxTree} :
    Derives ls (.tree op.level l) → Derives rs (.tree op.level.tighter r) →
      Derives (ls ++ [op.token] ++ rs) (.tree op.level (.binary op l r))
  | isIn (negated : Bool) {es vs : List Token} {e : SyntaxTree} {values : List SyntaxTree} :
    Derives es (.tree .test e) → Derives vs (.list values) →
      Derives (es ++ notWord negated ++ [.keyword .isIn] ++ [.leftParen] ++ vs ++ [.rightParen])
        (.tree .test (.isIn e negated values))
  | between (negated : Bool) {es ls hs : List Token} {e low high : SyntaxTree} :
    Derives es (.tree .test e) → Derives ls (.tree .quotient low) →
      Derives hs (.tree .quotient high) →
      Derives (es ++ notWord negated ++ [.keyword .between] ++ ls ++ [.keyword .and] ++ hs)
        (.tree .test (.between e negated low high))
  | isNull (negated : Bool) {es : List Token} {e : SyntaxTree} :
    Derives es (.tree .test e) →
      Derives (es ++ [.keyword (if negated then .isNotNull else .isNull)])
        (.tree .test (.isNull e negated))
  | like (negated caseless : Bool) (escape : Char) {es ps : List Token} {e p : SyntaxTree} :
    Derives es (.tree .test e) → Derives ps (.tree .quotient p) →
      Derives (es ++ notWord negated ++ [.keyword (if caseless then .caselessLike else .like)]
          ++ ps ++ [.keyword .escape, .string (.singleton escape)])
        (.tree .test (.like e negated caseless escape p))
  | one {ts : List Token} {t : SyntaxTree} :
    Derives ts (.tree .conjunction t) → Derives ts (.list [t])
  | more {ts us : List Token} {t : SyntaxTree} {rest : List SyntaxTree} :
    Derives ts (.tree .conjunction t) → Derives us (.list rest) →
      Derives (ts ++ [.comma] ++ us) (.list (t :: rest))

/-! ## The reader -/

/-- What a bracket is for. -/
inductive Bracket where
  | parens
  | members (e : SyntaxTree) (negated : Bool)
  | args (function : String) (distinct : Bool)

/-- What a bracket around trees makes. -/
def Bracket.build : Bracket → List SyntaxTree → Option SyntaxTree
  | parens, [t] => some t
  | parens, _ => none
  | members e negated, values => some (.isIn e negated values)
  | args function distinct, ts => some (.call function distinct ts)

/-- An operator or a bracket that waits for what is behind it, with all that stands before it. -/
inductive Pending where
  | left (op : BinaryOp) (l : SyntaxTree)
  | lower (e : SyntaxTree) (negated : Bool)
  | upper (e : SyntaxTree) (negated : Bool) (low : SyntaxTree)
  | pattern (e : SyntaxTree) (negated caseless : Bool)
  | bracket (b : Bracket) (done : List SyntaxTree)

namespace Pending

/-- The loosest level of a phrase that may stand behind it. -/
def inner : Pending → Level
  | left op _ => op.level.tighter
  | lower _ _ | upper _ _ _ | pattern _ _ _ => .quotient
  | bracket _ _ => .conjunction

/-- The tree that it makes with a tree behind it, if nothing else has to follow. -/
def fill? : Pending → SyntaxTree → Option SyntaxTree
  | left op l, r => some (.binary op l r)
  | upper e negated low, high => some (.between e negated low high)
  | lower _ _, _ | pattern _ _ _, _ | bracket _ _, _ => none

end Pending

/-- Finishes all that holds together at least as tightly as the level. -/
def close (level : Level) : List Pending → SyntaxTree → List Pending × SyntaxTree
  | [], t => ([], t)
  | p :: ps, t =>
    if p.inner.rank < level.rank then
      match p.fill? t with
      | some u => close level ps u
      | none => (p :: ps, t)
    else (p :: ps, t)

/-- What the reader has read behind the last thing that waits. -/
inductive Focus where
  /-- Nothing: an operand is to come. -/
  | start
  | tree (t : SyntaxTree)
  /-- A label with a dot. -/
  | label (table : String)
  | function (name : String)
  /-- A tree with the word that negates a test of it. -/
  | negated (e : SyntaxTree)
  /-- A test for membership, before its bracket. -/
  | membership (e : SyntaxTree) (negated : Bool)
  /-- A match with all but the character that escapes. -/
  | escape (e : SyntaxTree) (negated caseless : Bool) (pattern : SyntaxTree)

/-- What is read behind the given things, and what they wait for. -/
abbrev Reading :=
  List Pending × Focus

/-- The reader behind an operator. -/
def readOperator (op : BinaryOp) (ps : List Pending) (t : SyntaxTree) : Reading :=
  let (ps, l) := close op.level ps t
  (.left op l :: ps, .start)

/-- The reader behind a word that starts a test. -/
def readTest (e : SyntaxTree) (negated : Bool) (ps : List Pending) : Keyword → Option Reading
  | .isIn => some (ps, .membership e negated)
  | .between => some (.lower e negated :: ps, .start)
  | .like => some (.pattern e negated false :: ps, .start)
  | .caselessLike => some (.pattern e negated true :: ps, .start)
  | _ => none

def Sign.operator : Sign → BinaryOp
  | eq => .eq
  | ne => .ne
  | lt => .lt
  | gt => .gt
  | le => .le
  | ge => .ge
  | div => .div

/-- The reader behind a piece that starts an operand. -/
def readStart (ps : List Pending) : Token → Option Reading
  | .keyword .trueValue => some (ps, .tree (.truth true))
  | .keyword .falseValue => some (ps, .tree (.truth false))
  | .identifier name => some (ps, .tree (.column none name))
  | .real x => some (ps, .tree (.number x))
  | .placeholder index => some (ps, .tree (.param index))
  | .function name => some (ps, .function name)
  | .leftParen => some (.bracket .parens [] :: ps, .start)
  | .keyword .distinct =>
    match ps with
    | .bracket (.args function false) [] :: ps =>
      some (.bracket (.args function true) [] :: ps, .start)
    | _ => none
  | .rightParen =>
    match ps with
    | .bracket (.args function false) [] :: ps => some (ps, .tree (.call function false []))
    | _ => none
  | _ => none

/-- The reader behind a piece that stands behind a tree. -/
def readOn (ps : List Pending) (t : SyntaxTree) : Token → Option Reading
  | .dot =>
    match t with
    | .column none table => some (ps, .label table)
    | _ => none
  | .sign s => some (readOperator s.operator ps t)
  | .keyword .and =>
    match close .quotient ps t with
    | (.lower e negated :: ps, low) => some (.upper e negated low :: ps, .start)
    | _ => some (readOperator .and ps t)
  | .keyword .escape =>
    match close .quotient ps t with
    | (.pattern e negated caseless :: ps, p) => some (ps, .escape e negated caseless p)
    | _ => none
  | .keyword .isNull =>
    let (ps, e) := close .test ps t
    some (ps, .tree (.isNull e false))
  | .keyword .isNotNull =>
    let (ps, e) := close .test ps t
    some (ps, .tree (.isNull e true))
  | .keyword .not =>
    let (ps, e) := close .test ps t
    some (ps, .negated e)
  | .keyword k =>
    let (ps, e) := close .test ps t
    readTest e false ps k
  | .comma =>
    match close .conjunction ps t with
    | (.bracket b done :: ps, t) => some (.bracket b (done ++ [t]) :: ps, .start)
    | _ => none
  | .rightParen =>
    match close .conjunction ps t with
    | (.bracket b done :: ps, t) => (b.build (done ++ [t])).map fun u => (ps, .tree u)
    | _ => none
  | _ => none

/-- The reader behind one more piece. -/
def readPiece : Reading → Token → Option Reading
  | (ps, .start), token => readStart ps token
  | (ps, .tree t), token => readOn ps t token
  | (ps, .label table), .identifier name => some (ps, .tree (.column (some table) name))
  | (ps, .function name), .leftParen => some (.bracket (.args name false) [] :: ps, .start)
  | (ps, .negated e), .keyword k => readTest e true ps k
  | (ps, .membership e negated), .leftParen => some (.bracket (.members e negated) [] :: ps, .start)
  | (ps, .escape e negated caseless p), .string s =>
    match s.toList with
    | [c] => some (ps, .tree (.like e negated caseless c p))
    | _ => none
  | _, _ => none

/-- The reader behind pieces. -/
def readPieces (r : Reading) (ts : List Token) : Option Reading :=
  ts.foldlM readPiece r

section

variable {r u : Reading} {ts us : List Token} {ps qs : List Pending} {t e : SyntaxTree}
  {level : Level} {op : BinaryOp} {negated : Bool} {k : Keyword}

theorem readPieces_append (h : readPieces r ts = some u) :
    readPieces r (ts ++ us) = readPieces u us := by
  rw [readPieces, List.foldlM_append]
  exact (congrArg (· >>= fun v => us.foldlM readPiece v) h).trans rfl

theorem readPieces_singleton (token : Token) : readPieces r [token] = readPiece r token := by
  simp [readPieces]

/-! ## Finishing what waits -/

/-- The thing that waits last waits for a phrase that is at least as loose as the level. -/
def Waits (level : Level) (ps : List Pending) : Prop :=
  ∀ p ∈ ps.head?, level.rank ≤ p.inner.rank

theorem waits_cons {p : Pending} : Waits level (p :: ps) ↔ level.rank ≤ p.inner.rank := by
  simp [Waits]

theorem Waits.tighter (h : Waits level ps) : Waits level.tighter ps :=
  fun p hp => Nat.le_trans level.rank_tighter_le (h p hp)

/-- What waits for a phrase of the level is not finished by it. -/
theorem Waits.close (h : Waits level ps) (t : SyntaxTree) : close level ps t = (ps, t) := by
  cases ps with
  | nil => rfl
  | cons p ps => rw [Sql.close, if_neg (Nat.not_lt.mpr (waits_cons.mp h))]

/-- What has to be followed by something else is not finished. -/
theorem close_of_fill?_eq_none {p : Pending} (hfill : p.fill? t = none) :
    close level (p :: ps) t = (p :: ps, t) := by
  rw [close, hfill]
  exact ite_self _

theorem close_of_fill?_eq_some {p : Pending} (hrank : p.inner.rank < level.rank)
    (hfill : p.fill? t = some e) : close level (p :: ps) t = close level ps e := by
  rw [close, if_pos hrank, hfill]

theorem close_left (h : op.level.rank ≤ level.rank) (ps : List Pending) (l r : SyntaxTree) :
    close level (.left op l :: ps) r = close level ps (.binary op l r) :=
  close_of_fill?_eq_some (Nat.lt_of_lt_of_le op.rank_tighter_lt h) rfl

theorem close_upper (ps : List Pending) (e : SyntaxTree) (negated : Bool) (low high : SyntaxTree) :
    close .test (.upper e negated low :: ps) high =
      close .test ps (.between e negated low high) :=
  close_of_fill?_eq_some (Nat.lt_succ_self 1) rfl

/-- What is finished at a level is finished at every looser one. -/
theorem close_close {inner : Level} (h : inner.rank ≤ level.rank)
    (hclose : close inner ps t = (qs, e)) : close level ps t = close level qs e := by
  induction ps generalizing t with
  | nil =>
    cases hclose
    rfl
  | cons p ps ih =>
    rw [close] at hclose
    split at hclose
    · rename_i hrank
      split at hclose
      · rename_i u hfill
        rw [close, if_pos (Nat.lt_of_lt_of_le hrank h), hfill]
        exact ih hclose
      · cases hclose
        rfl
    · cases hclose
      rfl

/-! ## Steps of the reader -/

theorem readOn_operator (hclose : close op.level ps t = (qs, e))
    (hlower : op = .and → Waits .conjunction qs) :
    readPiece (ps, .tree t) op.token = some (.left op e :: qs, .start) := by
  have hread : readOperator op ps t = (.left op e :: qs, .start) := by rw [readOperator, hclose]
  cases op
  case and =>
    -- the lower bound of a `BETWEEN` would be left at this level as well
    change readOn ps t (.keyword .and) = _
    rw [readOn, hread]
    split
    · rename_i e' negated ps' low hlow
      have hsame := (close_close (by decide) hlow).symm.trans hclose
      rw [close_of_fill?_eq_none rfl] at hsame
      obtain ⟨rfl, -⟩ := Prod.mk.inj hsame
      exact absurd (waits_cons.mp (hlower rfl)) (show ¬ 3 ≤ 1 by decide)
    · rfl
  all_goals exact congrArg some hread

/-- The word that starts a test, with the word before it that negates the test. -/
theorem readOn_test (hclose : close .test ps t = (qs, e)) (hk : readTest e negated qs k = some u) :
    readPieces (ps, .tree t) (notWord negated ++ [.keyword k]) = some u := by
  cases negated with
  | true =>
    have hnot : readPieces (ps, .tree t) [.keyword .not] = some (qs, .negated e) := by
      rw [readPieces_singleton, readPiece, readOn, hclose]
    exact (readPieces_append hnot).trans ((readPieces_singleton _).trans hk)
  | false =>
    have hword : readOn ps t (.keyword k) = readTest e false qs k := by
      cases k
      case isIn | between | like | caselessLike => rw [readOn, hclose] <;> nofun
      all_goals cases hk
    exact (readPieces_singleton _).trans (hword.trans hk)

theorem readOn_between_and {low : SyntaxTree}
    (hclose : close .quotient ps t = (.lower e negated :: qs, low)) :
    readPiece (ps, .tree t) (.keyword .and) = some (.upper e negated low :: qs, .start) := by
  rw [readPiece, readOn, hclose]

theorem readOn_escape {caseless : Bool} {p : SyntaxTree}
    (hclose : close .quotient ps t = (.pattern e negated caseless :: qs, p)) :
    readPiece (ps, .tree t) (.keyword .escape) = some (qs, .escape e negated caseless p) := by
  rw [readPiece, readOn, hclose]

theorem readOn_isNull (hclose : close .test ps t = (qs, e)) :
    readPiece (ps, .tree t) (.keyword (if negated then .isNotNull else .isNull)) =
      some (qs, .tree (.isNull e negated)) := by
  cases negated <;> simp only [readPiece, readOn, hclose, if_true, Bool.false_eq_true, if_false]

section

variable {b : Bracket} {done : List SyntaxTree}
  (hclose : close .conjunction ps t = (.bracket b done :: qs, e))
include hclose

theorem readOn_comma :
    readPiece (ps, .tree t) .comma = some (.bracket b (done ++ [e]) :: qs, .start) := by
  rw [readPiece, readOn, hclose]

theorem readOn_rightParen {built : SyntaxTree} (hbuild : b.build (done ++ [e]) = some built) :
    readPiece (ps, .tree t) .rightParen = some (qs, .tree built) := by
  simp only [readPiece, readOn, hclose, hbuild, Option.map_some]

end

end

/-! ## Every phrase is read -/

/-- Wherever a phrase stands, the reader finds what the phrase is written for. Operators at the end
of a phrase still wait, until the piece behind the phrase tells that it is over. -/
def ReadBehind (ts : List Token) : Phrase → Prop
  | .tree level t =>
    ∀ ps, Waits level ps →
      ∃ qs e, readPieces (ps, .start) ts = some (qs, .tree e) ∧ close level qs e = (ps, t)
  | .list values =>
    ∀ b done ps built, b.build (done ++ values) = some built →
      readPieces (.bracket b done :: ps, .start) (ts ++ [.rightParen]) = some (ps, .tree built)

section

variable {ts us : List Token} {t u : SyntaxTree} {level : Level}

/-- An operand is read at once. -/
theorem readBehind_operand (h : ∀ ps, readPieces (ps, .start) ts = some (ps, .tree t)) :
    ReadBehind ts (.tree .operand t) :=
  fun ps hps => ⟨ps, t, h ps, hps.close t⟩

/-- A phrase behind something that waits for just such a phrase. -/
theorem ReadBehind.behind (h : ReadBehind ts (.tree level t)) (p : Pending) (hp : p.inner = level)
    (ps : List Pending) :
    ∃ qs e, readPieces (p :: ps, .start) ts = some (qs, .tree e) ∧
      close level qs e = (p :: ps, t) :=
  h (p :: ps) (waits_cons.mpr (Nat.le_of_eq (congrArg Level.rank hp.symm)))

/-- A list of trees in a bracket. -/
theorem ReadBehind.inBracket {values : List SyntaxTree} (h : ReadBehind ts (.list values))
    {b : Bracket} (hbuild : b.build values = some u) (ps : List Pending) :
    readPieces (.bracket b [] :: ps, .start) (ts ++ [.rightParen]) = some (ps, .tree u) :=
  h b [] ps u hbuild

theorem ReadBehind.parens (h : ReadBehind ts (.tree .conjunction t)) :
    ReadBehind ([.leftParen] ++ ts ++ [.rightParen]) (.tree .operand t) := by
  refine readBehind_operand fun ps => ?_
  obtain ⟨qs, e, hts, hclose⟩ := h.behind (.bracket .parens []) rfl ps
  have hopen : readPieces (ps, .start) [.leftParen] = some (.bracket .parens [] :: ps, .start) :=
    rfl
  rw [List.append_assoc, readPieces_append hopen, readPieces_append hts, readPieces_singleton]
  exact readOn_rightParen hclose rfl

theorem ReadBehind.call {args : List SyntaxTree} (h : ReadBehind ts (.list args))
    (function : String) (distinct : Bool) :
    ReadBehind ([.function function, .leftParen]
        ++ (if distinct then [.keyword .distinct] else []) ++ ts ++ [.rightParen])
      (.tree .operand (.call function distinct args)) := by
  refine readBehind_operand fun ps => ?_
  have hopen : readPieces (ps, .start) ([.function function, .leftParen]
      ++ if distinct then [.keyword .distinct] else []) =
        some (.bracket (.args function distinct) [] :: ps, .start) := by
    cases distinct <;> rfl
  rw [List.append_assoc, readPieces_append hopen]
  exact h.inBracket rfl ps

theorem ReadBehind.loosen (h : ReadBehind ts (.tree level.tighter t)) :
    ReadBehind ts (.tree level t) := by
  intro ps hps
  obtain ⟨qs, e, hts, hclose⟩ := h ps hps.tighter
  refine ⟨qs, e, hts, ?_⟩
  rw [close_close level.rank_tighter_le hclose]
  exact hps.close _

theorem ReadBehind.binary {op : BinaryOp} (ht : ReadBehind ts (.tree op.level t))
    (hu : ReadBehind us (.tree op.level.tighter u)) :
    ReadBehind (ts ++ [op.token] ++ us) (.tree op.level (.binary op t u)) := by
  intro ps hps
  obtain ⟨qs, l, hts, hl⟩ := ht ps hps
  obtain ⟨qs', r, hus, hr⟩ := hu.behind (.left op t) rfl ps
  have hop : readPiece (qs, .tree l) op.token = some (.left op t :: ps, .start) :=
    readOn_operator hl fun hand => by
      subst hand
      exact hps
  refine ⟨qs', r, ?_, ?_⟩
  · rw [List.append_assoc, readPieces_append hts,
      readPieces_append ((readPieces_singleton _).trans hop), hus]
  -- what finishes the right side finishes the operator with it
  · rw [close_close op.level.rank_tighter_le hr, close_left (Nat.le_refl _)]
    exact hps.close _

section

variable {es : List Token} {e : SyntaxTree} (he : ReadBehind es (.tree .test e)) (negated : Bool)
include he

theorem ReadBehind.isIn {values : List SyntaxTree} (h : ReadBehind ts (.list values)) :
    ReadBehind
      (es ++ notWord negated ++ [.keyword .isIn] ++ [.leftParen] ++ ts ++ [.rightParen])
      (.tree .test (.isIn e negated values)) := by
  intro ps hps
  obtain ⟨qs, e', hes, hclose⟩ := he ps hps
  have hopen : readPieces (ps, .membership e negated) [.leftParen] =
      some (.bracket (.members e negated) [] :: ps, .start) :=
    rfl
  refine ⟨ps, .isIn e negated values, ?_, hps.close _⟩
  rw [List.append_assoc, List.append_assoc, List.append_assoc, List.append_assoc,
    readPieces_append hes, ← List.append_assoc, readPieces_append (readOn_test hclose rfl),
    readPieces_append hopen]
  exact h.inBracket rfl ps

theorem ReadBehind.between (hlow : ReadBehind ts (.tree .quotient t))
    (hhigh : ReadBehind us (.tree .quotient u)) :
    ReadBehind (es ++ notWord negated ++ [.keyword .between] ++ ts ++ [.keyword .and] ++ us)
      (.tree .test (.between e negated t u)) := by
  intro ps hps
  obtain ⟨qs, e', hes, hclose⟩ := he ps hps
  obtain ⟨qs', low, hts, hlower⟩ := hlow.behind (.lower e negated) rfl ps
  obtain ⟨qs'', high, hus, hupper⟩ := hhigh.behind (.upper e negated t) rfl ps
  refine ⟨qs'', high, ?_, ?_⟩
  -- the lower bound, once it is finished, leaves its `BETWEEN` on top, which takes the `AND`
  · have hand := (readPieces_singleton _).trans (readOn_between_and hlower)
    rw [List.append_assoc, List.append_assoc, List.append_assoc, List.append_assoc,
      readPieces_append hes, ← List.append_assoc, readPieces_append (readOn_test hclose rfl),
      readPieces_append hts, readPieces_append hand, hus]
  · rw [close_close (Level.rank_tighter_le .test) hupper, close_upper]
    exact hps.close _

theorem ReadBehind.isNull :
    ReadBehind (es ++ [.keyword (if negated then .isNotNull else .isNull)])
      (.tree .test (.isNull e negated)) := by
  intro ps hps
  obtain ⟨qs, e', hes, hclose⟩ := he ps hps
  refine ⟨ps, .isNull e negated, ?_, hps.close _⟩
  rw [readPieces_append hes, readPieces_singleton]
  exact readOn_isNull hclose

theorem ReadBehind.like (caseless : Bool) (escape : Char)
    (hpattern : ReadBehind ts (.tree .quotient t)) :
    ReadBehind (es ++ notWord negated ++ [.keyword (if caseless then .caselessLike else .like)]
        ++ ts ++ [.keyword .escape, .string (.singleton escape)])
      (.tree .test (.like e negated caseless escape t)) := by
  intro ps hps
  obtain ⟨qs, e', hes, hclose⟩ := he ps hps
  obtain ⟨qs', p, hts, hp⟩ := hpattern.behind (.pattern e negated caseless) rfl ps
  have hword : readTest e negated ps (if caseless then .caselessLike else .like) =
      some (.pattern e negated caseless :: ps, .start) := by
    cases caseless <;> rfl
  have hmark : readPieces (ps, .escape e negated caseless t) [.string (.singleton escape)] =
      some (ps, .tree (.like e negated caseless escape t)) := by
    simp [readPieces, readPiece]
  have hescape : readPieces (qs', .tree p) [.keyword .escape, .string (.singleton escape)] =
      some (ps, .tree (.like e negated caseless escape t)) :=
    (readPieces_append ((readPieces_singleton _).trans (readOn_escape hp))).trans hmark
  refine ⟨ps, .like e negated caseless escape t, ?_, hps.close _⟩
  rw [List.append_assoc, List.append_assoc, List.append_assoc, readPieces_append hes,
    ← List.append_assoc, readPieces_append (readOn_test hclose hword), readPieces_append hts,
    hescape]

end

theorem ReadBehind.one (h : ReadBehind ts (.tree .conjunction t)) : ReadBehind ts (.list [t]) := by
  intro b done ps built hbuild
  obtain ⟨qs, e, hts, hclose⟩ := h.behind (.bracket b done) rfl ps
  rw [readPieces_append hts, readPieces_singleton]
  exact readOn_rightParen hclose hbuild

theorem ReadBehind.more {rest : List SyntaxTree} (ht : ReadBehind ts (.tree .conjunction t))
    (hrest : ReadBehind us (.list rest)) :
    ReadBehind (ts ++ [.comma] ++ us) (.list (t :: rest)) := by
  intro b done ps built hbuild
  obtain ⟨qs, e, hts, hclose⟩ := ht.behind (.bracket b done) rfl ps
  have hcomma := (readPieces_singleton _).trans (readOn_comma hclose)
  rw [List.append_assoc, List.append_assoc, readPieces_append hts, readPieces_append hcomma]
  refine hrest b (done ++ [t]) ps built ?_
  rw [List.append_assoc]
  exact hbuild

end

/-- The reader finds what the grammar derives. -/
theorem Derives.readBehind {ts : List Token} {phrase : Phrase} (h : Derives ts phrase) :
    ReadBehind ts phrase := by
  induction h with
  | truth b =>
    refine readBehind_operand fun ps => ?_
    cases b <;> rfl
  | column name => exact readBehind_operand fun ps => rfl
  | tableColumn table name => exact readBehind_operand fun ps => rfl
  | number x => exact readBehind_operand fun ps => rfl
  | param index => exact readBehind_operand fun ps => rfl
  | parens _ ih => exact ih.parens
  | emptyCall function => exact readBehind_operand fun ps => rfl
  | call function distinct _ ih => exact ih.call function distinct
  | loosen level _ ih => exact ih.loosen
  | binary op _ _ ihl ihr => exact ihl.binary ihr
  | isIn negated _ _ ihe ihv => exact ihe.isIn negated ihv
  | between negated _ _ _ ihe ihl ihh => exact ihe.between negated ihl ihh
  | isNull negated _ ihe => exact ihe.isNull negated
  | like negated caseless escape _ _ ihe ihp => exact ihe.like negated caseless escape ihp
  | one _ ih => exact ih.one
  | more _ _ iht ihr => exact iht.more ihr

/-- **The grammar is unambiguous.** Pieces are written for one tree at most. -/
theorem Derives.unique {ts : List Token} {level : Level} {t u : SyntaxTree}
    (ht : Derives ts (.tree level t)) (hu : Derives ts (.tree level u)) : t = u := by
  obtain ⟨qs, e, hts, hclose⟩ := ht.readBehind [] nofun
  obtain ⟨qs', e', hts', hclose'⟩ := hu.readBehind [] nofun
  obtain ⟨rfl, heq⟩ := Prod.mk.inj (Option.some.inj (hts.symm.trans hts'))
  obtain rfl := Focus.tree.inj heq
  exact (Prod.mk.inj (hclose.symm.trans hclose')).2

end ReportSql.Sql
