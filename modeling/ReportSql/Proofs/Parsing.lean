import ReportSql.Proofs.Compilation
import ReportSql.Proofs.Grammar

/-!
# The conditions of reports mean their trees

Expressions are written without parentheses, though not every tree can be written so: a conjunction
on the left of a comparison is read as something else. An expression is `Derived` at a level if the
grammar of conditions derives its pieces for its own tree, which it does if each part of the
expression holds at least as tightly as its place demands. The conditions of compiled reports are
all so: the values of fields are quotients at most, the conditions of filters and of time windows
are tests, and these are joined from the left.
-/

namespace ReportSql.Sql

/-! ## Trees of expressions -/

namespace Expr

mutual

/-- What an expression says. Membership in an empty list is the truth value that stands for it. -/
def tree : Expr → SyntaxTree
  | column table name => .column table name
  | number x => .number x
  | param index => .param index
  | binary op left right => .binary op (tree left) (tree right)
  | call function distinct args => .call function distinct (trees args)
  | isIn _ negated [] => .truth negated
  | isIn e negated (v :: values) => .isIn (tree e) negated (trees (v :: values))
  | between e negated low high => .between (tree e) negated (tree low) (tree high)
  | isNull e negated => .isNull (tree e) negated
  | like e negated caseless escape pattern =>
    .like (tree e) negated caseless escape (tree pattern)

def trees : List Expr → List SyntaxTree
  | [] => []
  | e :: rest => tree e :: trees rest

end

end Expr

/-! ## Pieces without blanks -/

/-- Does the piece only part others from each other? -/
def Token.isLayout : Token → Bool
  | .space | .newline | .indent _ => true
  | _ => false

/-- The pieces that say something. -/
def significant (ts : List Token) : List Token :=
  ts.filter fun t => !t.isLayout

@[simp] theorem significant_append (ts us : List Token) :
    significant (ts ++ us) = significant ts ++ significant us :=
  List.filter_append ..

theorem significant_negation (negated : Bool) :
    significant (Expr.negation negated) = notWord negated := by
  cases negated <;> rfl

/-- The pieces are written for the tree. -/
def Parses (ts : List Token) (t : SyntaxTree) : Prop :=
  Derives (significant ts) (.tree .conjunction t)

/-! ## Expressions that are written without parentheses -/

/-- An operand may stand wherever a tree may. -/
theorem Derives.ofOperand {ts : List Token} {t : SyntaxTree} (h : Derives ts (.tree .operand t))
    (level : Level) : Derives ts (.tree level t) := by
  have hquotient : Derives ts (.tree .quotient t) := .loosen .quotient h
  have htest : Derives ts (.tree .test t) := .loosen .test hquotient
  cases level with
  | operand => exact h
  | quotient => exact hquotient
  | test => exact htest
  | conjunction => exact .loosen .conjunction htest

namespace Expr

/-- The pieces of the expression are derived for its tree at the level. -/
def Derived (level : Level) (e : Expr) : Prop :=
  Derives (significant e.tokens) (.tree level e.tree)

/-- An expression that the grammar derives is parsed as its own tree and as no other. -/
theorem Derived.parses_iff {e : Expr} (h : e.Derived .conjunction) (t : SyntaxTree) :
    Parses e.tokens t ↔ t = e.tree := by
  constructor
  · intro ht
    exact Derives.unique ht h
  · rintro rfl
    exact h

theorem derived_column (table : Option String) (name : String) (level : Level) :
    (column table name).Derived level := by
  cases table with
  | none => exact (Derives.column name).ofOperand level
  | some table => exact (Derives.tableColumn table name).ofOperand level

theorem derived_number (x : Decimal.Double) (level : Level) : (number x).Derived level :=
  (Derives.number x).ofOperand level

theorem derived_param (index : Nat) (level : Level) : (param index).Derived level :=
  (Derives.param index).ofOperand level

variable {e l r : Expr}

theorem Derived.toTest (h : e.Derived .quotient) : e.Derived .test :=
  Derives.loosen .test h

theorem Derived.toConjunction (h : e.Derived .test) : e.Derived .conjunction :=
  Derives.loosen .conjunction h

theorem Derived.binary (op : BinaryOp) (hl : l.Derived op.level)
    (hr : r.Derived op.level.tighter) : (Expr.binary op l r).Derived op.level := by
  have hop : significant [.space, op.token, .space] = [op.token] := by cases op <;> rfl
  rw [Derived, tokens, tree, significant_append, significant_append, hop]
  exact .binary op hl hr

theorem derives_restTokens {es : List Expr} (h : ∀ x ∈ es, x.Derived .conjunction)
    (he : e.Derived .conjunction) :
    Derives (significant (e.tokens ++ restTokens es)) (.list (e.tree :: trees es)) := by
  induction es generalizing e with
  | nil =>
    rw [restTokens, List.append_nil, trees]
    exact .one he
  | cons x rest ih =>
    obtain ⟨hx, hrest⟩ := List.forall_mem_cons.mp h
    have hcomma : significant [.comma, .space] = [.comma] := rfl
    have hmore := Derives.more he (ih hrest hx)
    rw [restTokens, trees, significant_append, List.append_assoc, significant_append, hcomma,
      ← List.append_assoc]
    exact hmore

theorem Derived.isIn (he : e.Derived .test) (negated : Bool) {values : List Expr}
    (h : ∀ v ∈ values, v.Derived .conjunction) : (Expr.isIn e negated values).Derived .test := by
  cases values with
  | nil => exact (Derives.truth negated).ofOperand .test
  | cons v rest =>
    obtain ⟨hv, hrest⟩ := List.forall_mem_cons.mp h
    have hword : significant [.space, .keyword .isIn, .space, .leftParen] =
        [.keyword .isIn] ++ [.leftParen] :=
      rfl
    have hclose : significant [.rightParen] = [.rightParen] := rfl
    rw [Derived, tokens, tree, listTokens, trees, significant_append, significant_append,
      significant_append, significant_append, significant_negation, hword, hclose,
      ← List.append_assoc]
    exact .isIn negated he (derives_restTokens hrest hv)

theorem Derived.between (he : e.Derived .test) (negated : Bool) (hl : l.Derived .quotient)
    (hr : r.Derived .quotient) : (Expr.between e negated l r).Derived .test := by
  have hword : significant [.space, .keyword .between, .space] = [.keyword .between] := rfl
  have hand : significant [.space, .keyword .and, .space] = [.keyword .and] := rfl
  rw [Derived, tokens, tree, significant_append, significant_append, significant_append,
    significant_append, significant_append, significant_negation, hword, hand]
  exact .between negated he hl hr

theorem Derived.isNull (he : e.Derived .test) (negated : Bool) :
    (Expr.isNull e negated).Derived .test := by
  rw [Derived, tokens, tree, significant_append]
  exact .isNull negated he

theorem Derived.like (he : e.Derived .test) (negated caseless : Bool) (escape : Char)
    (hr : r.Derived .quotient) : (Expr.like e negated caseless escape r).Derived .test := by
  have hword (k : Keyword) : significant [.space, .keyword k, .space] = [.keyword k] := rfl
  have hescape : significant [.space, .keyword .escape, .space, .string (.singleton escape)] =
      [.keyword .escape, .string (.singleton escape)] :=
    rfl
  rw [Derived, tokens, tree, significant_append, significant_append, significant_append,
    significant_append, significant_negation, hword, hescape]
  exact .like negated caseless escape he hr

end Expr

/-- The conditions that tables are joined on, then the condition on the rows. -/
def Query.conditions (q : Query) : List Expr :=
  q.joins.map Join.condition ++ q.condition.toList

end ReportSql.Sql

namespace ReportSql.Statement

open ReportSql.Catalog
open ReportSql.Report
open ReportSql.Sql
open ReportSql.Time (WindowBounds)

/-! ## The conditions of reports -/

theorem Target.derived_valueExpr (infer : Bool) (t : Target) :
    (t.valueExpr infer).Derived .quotient := by
  unfold valueExpr
  split
  · exact (Expr.derived_column _ _ _).binary .div (Expr.derived_number _ _)
  · exact Expr.derived_column _ _ _

/-- The condition of a filter is a test. -/
theorem derived_conditionBehind {e : Expr} (he : e.Derived .quotient) (f : Filter) (n : Nat) :
    (conditionBehind e f n).Derived .test := by
  have htest : e.Derived .test := he.toTest
  have hparams : ∀ count, ∀ v ∈ paramsFrom n count, v.Derived .conjunction := by
    intro count v hv
    obtain ⟨i, -, rfl⟩ := List.mem_map.mp hv
    exact Expr.derived_param i _
  rw [conditionBehind]
  cases f.operator
  case equals => exact htest.binary .eq (Expr.derived_param _ _)
  case notEquals => exact htest.binary .ne (Expr.derived_param _ _)
  case greaterThan => exact htest.binary .gt (Expr.derived_param _ _)
  case greaterEqual => exact htest.binary .ge (Expr.derived_param _ _)
  case lessThan => exact htest.binary .lt (Expr.derived_param _ _)
  case lessEqual => exact htest.binary .le (Expr.derived_param _ _)
  case between => exact htest.between _ (Expr.derived_param _ _) (Expr.derived_param _ _)
  case isIn | notIn => exact htest.isIn _ (hparams _)
  case contains | notContains | startsWith | endsWith =>
    exact htest.like _ _ _ (Expr.derived_param _ _)
  case isNull | isNotNull => exact htest.isNull _

theorem derived_conjuncts (infer : Bool) (fs : List (Placed Filter))
    (window : Option (WindowBounds × Target)) :
    ∀ p ∈ conjuncts infer fs window, ∀ n, (p.form n).Derived .test := by
  intro p hp n
  rcases List.mem_append.mp hp with hp | hp
  · obtain ⟨f, -, rfl⟩ := List.mem_map.mp hp
    exact derived_conditionBehind (f.target.derived_valueExpr infer) f.part n
  · cases window with
    | none => cases hp
    | some w =>
      obtain ⟨bounds, t⟩ := w
      have htest : (t.valueExpr infer).Derived .test := (t.derived_valueExpr infer).toTest
      simp only [windowConjuncts, List.mem_append, Option.mem_toList, Option.map_eq_some_iff] at hp
      rcases hp with ⟨s, -, rfl⟩ | ⟨s, -, rfl⟩
      · exact htest.binary .ge (Expr.derived_param _ _)
      · exact htest.binary .le (Expr.derived_param _ _)

/-- Tests that are joined from the left are a conjunction. -/
theorem derived_conjunction {es : List Expr} (h : ∀ e ∈ es, e.Derived .test) :
    ∀ e ∈ conjunction es, e.Derived .conjunction := by
  have hfold : ∀ {rest : List Expr} {e : Expr}, e.Derived .conjunction →
      (∀ x ∈ rest, x.Derived .test) → (rest.foldl (.binary .and) e).Derived .conjunction := by
    intro rest
    induction rest with
    | nil => exact fun he _ => he
    | cons x rest ih =>
      intro e he hrest
      obtain ⟨hx, hrest⟩ := List.forall_mem_cons.mp hrest
      exact ih (he.binary .and hx) hrest
  cases es with
  | nil => nofun
  | cons e rest =>
    obtain ⟨he, hrest⟩ := List.forall_mem_cons.mp h
    rintro x ⟨⟩
    exact hfold he.toConjunction hrest

theorem Compilation.derived {r : Registry} {c : Config} {o : Options} {v : Resolved}
    {joins : List Sql.Join} {window : Option (WindowBounds × Target)} {k : Compiled}
    (h : Compilation r c o v joins window k) :
    ∀ e ∈ k.query.conditions, e.Derived .conjunction := by
  rw [h.result]
  intro e he
  rcases List.mem_append.mp he with he | he
  · obtain ⟨j, hj, rfl⟩ := List.mem_map.mp he
    obtain ⟨hop, -, hjoin⟩ := exists_hop_of_mem h.joined hj
    obtain ⟨source, target, -, -, rfl⟩ := joinOf_eq_ok_iff.mp hjoin
    have heq := (Expr.derived_column (some source.id) (columnOf source hop.fromField) .test).binary
      .eq (Expr.derived_column (some target.id) (columnOf target hop.toField) .quotient)
    exact heq.toConjunction
  · refine derived_conjunction (fun x hx => ?_) e (Option.mem_toList.mp he)
    obtain ⟨p, hp, n, rfl⟩ := mem_formsFrom hx
    exact derived_conjuncts o.inferEncodings v.filters window p hp n

/-- **The conditions of a compiled report mean what was compiled.** By the precedence of SQL the
pieces of each condition, which has no parentheses around its parts, can be parsed in one way, and
that gives the tree of the condition. -/
theorem conditions_parse_uniquely {r : Registry} {c : Config} {o : Options} {k : Compiled}
    (h : compile r c o = .ok k) :
    ∀ e ∈ k.query.conditions, ∀ t, Parses e.tokens t ↔ t = e.tree := by
  obtain ⟨v, joins, window, hc⟩ := compile_eq_ok_iff.mp h
  intro e he
  exact (hc.derived e he).parses_iff

/-- Fast drives are joined to their devices on one condition and filtered by another. -/
theorem fastDrives_parses_uniquely :
    ∃ k, compile .telematics (fastDrives "100%" 2) newYearOptions = .ok k ∧
      k.query.conditions.length = 2 ∧
      ∀ e ∈ k.query.conditions, ∀ t, Parses e.tokens t ↔ t = e.tree := by
  have h : (compile .telematics (fastDrives "100%" 2) newYearOptions).toOption.map
      (fun k => k.query.conditions.length) = some 2 := by decide +kernel
  obtain ⟨k, hk, hlength⟩ := exists_ok_of_map h
  exact ⟨k, hk, hlength, conditions_parse_uniquely hk⟩

end ReportSql.Statement
