import ReportSql.Proofs.Scanner

/-!
# The text of a statement

Whatever names the catalog and the report give, the text of a compiled statement is read back to the
pieces that it was written from. In every statement two pieces that could run into each other stand
apart, whatever its clauses are; and the statements of reports hold no words but keywords and
functions, and no numbers but finite ones.
-/

namespace ReportSql.Sql

/-! ## Statements with breaks between their pieces -/

/-- Each piece stands apart from the next one. -/
def Spaced (ts : List Token) : Prop :=
  ts.IsChain Apart

section

variable {t b : Token} {ts us : List Token}

theorem spaced_nil : Spaced [] :=
  .nil

theorem spaced_singleton (t : Token) : Spaced [t] :=
  .singleton t

/-- A break stands apart from what is on its two sides. -/
theorem spaced_append_break (hb : b.isBreak = true) :
    Spaced (ts ++ b :: us) ↔ Spaced ts ∧ Spaced us := by
  rw [Spaced, List.isChain_append, List.isChain_cons]
  constructor
  · rintro ⟨hts, ⟨-, hus⟩, -⟩
    exact ⟨hts, hus⟩
  · rintro ⟨hts, hus⟩
    refine ⟨hts, ⟨fun _ _ => .inl hb, hus⟩, ?_⟩
    rintro x - y ⟨⟩
    exact .inr (.inl hb)

theorem spaced_break_cons (hb : b.isBreak = true) : Spaced (b :: us) ↔ Spaced us := by
  rw [← List.nil_append (b :: us), spaced_append_break hb]
  exact and_iff_right spaced_nil

theorem spaced_cons_break (hb : b.isBreak = true) : Spaced (t :: b :: us) ↔ Spaced us := by
  rw [← List.singleton_append, spaced_append_break hb]
  exact and_iff_right (spaced_singleton t)

end

namespace Expr

theorem spaced_append_negation {ts us : List Token} (negated : Bool) :
    Spaced (ts ++ (negation negated ++ .space :: us)) ↔ Spaced ts ∧ Spaced us := by
  cases negated with
  | false => exact spaced_append_break rfl
  | true =>
    rw [negation, if_pos rfl, List.cons_append, List.singleton_append, spaced_append_break rfl,
      spaced_cons_break rfl]

theorem spaced_append_restTokens {ts : List Token} {es : List Expr} :
    Spaced (ts ++ restTokens es) ↔ Spaced ts ∧ Spaced (restTokens es) := by
  cases es with
  | nil => simp [restTokens, spaced_nil]
  | cons e rest =>
    rw [restTokens, List.append_assoc, List.cons_append, spaced_append_break rfl,
      spaced_break_cons rfl]

mutual

/-- The pieces of an expression stand apart. -/
theorem spaced_tokens : ∀ e : Expr, Spaced e.tokens
  | column none name => spaced_singleton _
  | column (some table) name =>
    .cons_cons (.inr (.inr (.inr ⟨rfl, table, rfl⟩)))
      (.cons_cons (.inr (.inr (.inl rfl))) (spaced_singleton _))
  | number x => spaced_singleton _
  | param index => spaced_singleton _
  | binary op left right => by
    simp only [tokens, List.append_assoc, List.cons_append, List.nil_append]
    rw [spaced_append_break rfl, spaced_cons_break rfl]
    exact ⟨spaced_tokens left, spaced_tokens right⟩
  | call function distinct args => by
    rw [tokens, spaced_append_break rfl, List.append_assoc, List.cons_append,
      List.singleton_append, spaced_cons_break rfl]
    refine ⟨?_, spaced_nil⟩
    cases distinct with
    | false => exact spaced_listTokens args
    | true => exact (spaced_cons_break rfl).mpr (spaced_listTokens args)
  | isIn _ negated [] => spaced_singleton _
  | isIn e negated (v :: values) => by
    rw [tokens, spaced_append_break rfl]
    simp only [List.append_assoc, List.cons_append, List.nil_append]
    rw [spaced_append_negation, spaced_cons_break rfl, spaced_break_cons rfl]
    exact ⟨⟨spaced_tokens e, spaced_listTokens (v :: values)⟩, spaced_nil⟩
  | between e negated low high => by
    simp only [tokens, List.append_assoc, List.cons_append, List.nil_append]
    rw [spaced_append_negation, spaced_cons_break rfl, spaced_append_break rfl,
      spaced_cons_break rfl]
    exact ⟨spaced_tokens e, spaced_tokens low, spaced_tokens high⟩
  | isNull e negated => by
    rw [tokens, spaced_append_break rfl]
    exact ⟨spaced_tokens e, spaced_singleton _⟩
  | like e negated caseless escape pattern => by
    simp only [tokens, List.append_assoc, List.cons_append, List.nil_append]
    rw [spaced_append_negation, spaced_cons_break rfl, spaced_append_break rfl,
      spaced_cons_break rfl]
    exact ⟨spaced_tokens e, spaced_tokens pattern, spaced_singleton _⟩

theorem spaced_listTokens : ∀ es : List Expr, Spaced (listTokens es)
  | [] => spaced_nil
  | e :: rest => by
    rw [listTokens, spaced_append_restTokens]
    exact ⟨spaced_tokens e, spaced_restTokens rest⟩

theorem spaced_restTokens : ∀ es : List Expr, Spaced (restTokens es)
  | [] => spaced_nil
  | e :: rest => by
    rw [restTokens, spaced_append_restTokens, List.cons_append, spaced_break_cons rfl,
      List.singleton_append, spaced_break_cons rfl]
    exact ⟨spaced_tokens e, spaced_restTokens rest⟩

end

end Expr

theorem spaced_append_labelTokens {ts : List Token} (label : Option String) :
    Spaced (ts ++ labelTokens label) ↔ Spaced ts := by
  cases label with
  | none => rw [labelTokens, List.append_nil]
  | some name =>
    rw [labelTokens, spaced_append_break rfl, spaced_cons_break rfl]
    simp [spaced_singleton]

theorem spaced_selectItem (item : SelectItem) : Spaced item.tokens := by
  rw [SelectItem.tokens, spaced_append_labelTokens]
  exact item.expr.spaced_tokens

theorem spaced_tableRef (t : TableRef) : Spaced t.tokens := by
  rw [TableRef.tokens, ← List.singleton_append, spaced_append_labelTokens]
  exact spaced_singleton _

theorem spaced_join (j : Join) : Spaced j.tokens := by
  simp only [Join.tokens, List.append_assoc, List.cons_append, List.nil_append]
  rw [spaced_cons_break rfl, spaced_cons_break rfl, spaced_append_break rfl, spaced_cons_break rfl]
  exact ⟨spaced_tableRef j.table, j.condition.spaced_tokens⟩

theorem spaced_orderItem (item : OrderItem) : Spaced item.tokens := by
  rw [OrderItem.tokens, spaced_append_break rfl]
  exact ⟨item.expr.spaced_tokens, spaced_singleton _⟩

namespace Query

/-- Breaks separate the groups of pieces between which they stand. -/
theorem spaced_separated {b : Token} {bs : List Token} (hbs : ∀ t ∈ b :: bs, t.isBreak = true)
    {groups : List (List Token)} (h : ∀ ts ∈ groups, Spaced ts) :
    Spaced (separated (b :: bs) groups) := by
  have hbreaks : ∀ {bs us : List Token}, (∀ t ∈ bs, t.isBreak = true) → Spaced us →
      Spaced (bs ++ us) := by
    intro bs us hbs hus
    induction bs with
    | nil => exact hus
    | cons b bs ih =>
      obtain ⟨hb, hbs⟩ := List.forall_mem_cons.mp hbs
      exact (spaced_break_cons hb).mpr (ih hbs)
  obtain ⟨hb, hbs⟩ := List.forall_mem_cons.mp hbs
  fun_induction separated (b :: bs) groups with
  | case1 => exact spaced_nil
  | case2 ts => exact h ts (List.mem_singleton_self ts)
  | case3 ts rest hne ih =>
    obtain ⟨hts, hrest⟩ := List.forall_mem_cons.mp h
    rw [List.append_assoc, List.cons_append, spaced_append_break hb]
    exact ⟨hts, hbreaks hbs (ih hrest)⟩

/-- The pieces of a clause are none, or start with a new line. -/
def IsClause (ts : List Token) : Prop :=
  ts = [] ∨ ∃ us, ts = .newline :: us

theorem spaced_append_clause {ts us : List Token} (h : IsClause us) :
    Spaced (ts ++ us) ↔ Spaced ts ∧ Spaced us := by
  rcases h with rfl | ⟨us, rfl⟩
  · simp [spaced_nil]
  · rw [spaced_append_break rfl, spaced_break_cons rfl]

theorem spaced_selectTokens (q : Query) : Spaced q.selectTokens := by
  rw [selectTokens]
  split
  · exact spaced_singleton _
  · refine (spaced_cons_break rfl).mpr ((spaced_break_cons rfl).mpr ?_)
    refine spaced_separated (by decide) fun ts hts => ?_
    obtain ⟨item, -, rfl⟩ := List.mem_map.mp hts
    exact spaced_selectItem item

theorem spaced_listClause (k : Keyword) {items : List (List Token)}
    (h : ∀ ts ∈ items, Spaced ts) :
    IsClause (listClause k items) ∧ Spaced (listClause k items) := by
  rw [listClause]
  split
  · exact ⟨.inl rfl, spaced_nil⟩
  · refine ⟨.inr ⟨_, rfl⟩, (spaced_break_cons rfl).mpr ((spaced_cons_break rfl).mpr ?_)⟩
    exact spaced_separated (by decide) h

theorem spaced_sourceTokens (q : Query) : IsClause q.sourceTokens ∧ Spaced q.sourceTokens := by
  rw [sourceTokens]
  split
  · rename_i t _
    exact ⟨.inr ⟨_, rfl⟩,
      (spaced_break_cons rfl).mpr ((spaced_cons_break rfl).mpr (spaced_tableRef t))⟩
  · exact ⟨.inl rfl, spaced_nil⟩

theorem spaced_joinTokens (q : Query) : IsClause q.joinTokens ∧ Spaced q.joinTokens := by
  rw [joinTokens]
  induction q.joins with
  | nil => exact ⟨.inl rfl, spaced_nil⟩
  | cons j rest ih =>
    refine ⟨.inr ⟨_, rfl⟩, ?_⟩
    rw [List.flatMap_cons, spaced_append_clause ih.1, spaced_break_cons rfl]
    exact ⟨spaced_join j, ih.2⟩

theorem spaced_whereTokens (q : Query) : IsClause q.whereTokens ∧ Spaced q.whereTokens := by
  rw [whereTokens]
  split
  · rename_i e _
    exact ⟨.inr ⟨_, rfl⟩,
      (spaced_break_cons rfl).mpr ((spaced_cons_break rfl).mpr e.spaced_tokens)⟩
  · exact ⟨.inl rfl, spaced_nil⟩

theorem spaced_limitClause (q : Query) : IsClause q.limitClause ∧ Spaced q.limitClause := by
  rw [limitClause]
  split
  · refine ⟨.inr ⟨_, rfl⟩, ?_⟩
    rw [limitTokens, spaced_break_cons rfl, spaced_cons_break rfl]
    exact spaced_singleton _
  · exact ⟨.inl rfl, spaced_nil⟩

/-- **The pieces of every statement stand apart.** -/
theorem spaced_tokens (q : Query) : Spaced q.tokens := by
  have hgroup : ∀ ts ∈ q.groupBy.map Expr.tokens, Spaced ts := by
    intro ts hts
    obtain ⟨e, -, rfl⟩ := List.mem_map.mp hts
    exact e.spaced_tokens
  have horder : ∀ ts ∈ q.orderBy.map OrderItem.tokens, Spaced ts := by
    intro ts hts
    obtain ⟨item, -, rfl⟩ := List.mem_map.mp hts
    exact spaced_orderItem item
  rw [tokens, spaced_append_clause q.spaced_limitClause.1,
    spaced_append_clause (spaced_listClause .orderBy horder).1,
    spaced_append_clause (spaced_listClause .groupBy hgroup).1,
    spaced_append_clause q.spaced_whereTokens.1, spaced_append_clause q.spaced_joinTokens.1,
    spaced_append_clause q.spaced_sourceTokens.1]
  exact ⟨⟨⟨⟨⟨⟨q.spaced_selectTokens, q.spaced_sourceTokens.2⟩, q.spaced_joinTokens.2⟩,
    q.spaced_whereTokens.2⟩, (spaced_listClause .groupBy hgroup).2⟩,
    (spaced_listClause .orderBy horder).2⟩, q.spaced_limitClause.2⟩

end Query

/-! ## Plain statements -/

/-- The pieces are plain. -/
def Plain (ts : List Token) : Prop :=
  ∀ t ∈ ts, t.Plain

@[simp] theorem plain_nil : Plain [] := by
  intro t ht
  cases ht

@[simp] theorem plain_cons {t : Token} {ts : List Token} :
    Plain (t :: ts) ↔ t.Plain ∧ Plain ts :=
  List.forall_mem_cons

@[simp] theorem plain_append {ts us : List Token} : Plain (ts ++ us) ↔ Plain ts ∧ Plain us :=
  List.forall_mem_append

@[simp] theorem plain_negation (negated : Bool) : Plain (Expr.negation negated) := by
  cases negated <;> simp [Expr.negation]

@[simp] theorem plain_labelTokens (label : Option String) : Plain (labelTokens label) := by
  cases label <;> simp [labelTokens]

theorem plain_separated {between : List Token} (hbetween : Plain between)
    {groups : List (List Token)} (h : ∀ ts ∈ groups, Plain ts) :
    Plain (Query.separated between groups) := by
  fun_induction Query.separated between groups with
  | case1 => exact plain_nil
  | case2 ts => exact h ts (List.mem_singleton_self ts)
  | case3 ts rest hne ih =>
    obtain ⟨hts, hrest⟩ := List.forall_mem_cons.mp h
    exact plain_append.mpr ⟨plain_append.mpr ⟨hts, hbetween⟩, ih hrest⟩

theorem plain_listClause (k : Keyword) {items : List (List Token)}
    (h : ∀ ts ∈ items, Plain ts) : Plain (Query.listClause k items) := by
  rw [Query.listClause]
  split
  · exact plain_nil
  · have hbetween : Plain [.comma, .space] := by simp
    simpa using plain_separated hbetween h

namespace Expr

/-- The expression is written with plain pieces. -/
def Plain (e : Expr) : Prop :=
  Sql.Plain e.tokens

theorem plain_column (table : Option String) (name : String) : (column table name).Plain := by
  cases table <;> simp [Plain, tokens]

theorem plain_number (x : Decimal.Binary64) : (number (.finite x)).Plain := by
  simp [Plain, tokens]

theorem plain_param (index : Nat) : (param index).Plain := by
  simp [Plain, tokens]

variable {e l r : Expr}

theorem Plain.binary (hl : l.Plain) (hr : r.Plain) (op : BinaryOp) :
    (Expr.binary op l r).Plain := by
  have hop : op.token.Plain := by cases op <;> trivial
  exact plain_append.mpr ⟨plain_append.mpr ⟨hl, by simpa using hop⟩, hr⟩

theorem Plain.call (he : e.Plain) {function : String} (hf : function ∈ functionNames)
    (distinct : Bool) : (Expr.call function distinct [e]).Plain := by
  have he' : Sql.Plain e.tokens := he
  rw [Plain, tokens_call_singleton]
  cases distinct <;> simp [he', hf]

theorem plain_restTokens {es : List Expr} (h : ∀ e ∈ es, e.Plain) :
    Sql.Plain (restTokens es) := by
  induction es with
  | nil => exact plain_nil
  | cons e rest ih =>
    obtain ⟨he, hrest⟩ := List.forall_mem_cons.mp h
    have he' : Sql.Plain e.tokens := he
    simp [restTokens, he', ih hrest]

theorem plain_listTokens {es : List Expr} (h : ∀ e ∈ es, e.Plain) :
    Sql.Plain (listTokens es) := by
  cases es with
  | nil => exact plain_nil
  | cons e rest =>
    obtain ⟨he, hrest⟩ := List.forall_mem_cons.mp h
    exact plain_append.mpr ⟨he, plain_restTokens hrest⟩

theorem Plain.isIn (he : e.Plain) (negated : Bool) {values : List Expr}
    (h : ∀ v ∈ values, v.Plain) : (Expr.isIn e negated values).Plain := by
  have he' : Sql.Plain e.tokens := he
  cases values with
  | nil => cases negated <;> simp [Plain, tokens]
  | cons v rest => simp [Plain, tokens, he', plain_listTokens h]

theorem Plain.between (he : e.Plain) (negated : Bool) (hl : l.Plain) (hr : r.Plain) :
    (Expr.between e negated l r).Plain := by
  have he' : Sql.Plain e.tokens := he
  have hl' : Sql.Plain l.tokens := hl
  have hr' : Sql.Plain r.tokens := hr
  simp [Plain, tokens, he', hl', hr']

theorem Plain.isNull (he : e.Plain) (negated : Bool) : (Expr.isNull e negated).Plain := by
  have he' : Sql.Plain e.tokens := he
  simp [Plain, tokens, he']

theorem Plain.like (he : e.Plain) (negated caseless : Bool) (escape : Char) (hr : r.Plain) :
    (Expr.like e negated caseless escape r).Plain := by
  have he' : Sql.Plain e.tokens := he
  have hr' : Sql.Plain r.tokens := hr
  simp [Plain, tokens, he', hr']

end Expr

namespace Query

theorem plain_tableRef (t : TableRef) : Plain t.tokens := by
  simp [TableRef.tokens]

variable {q : Query}

theorem plain_selectTokens (h : ∀ s ∈ q.select, s.expr.Plain) : Plain q.selectTokens := by
  have hitems : ∀ ts ∈ q.select.map SelectItem.tokens, Plain ts := by
    intro ts hts
    obtain ⟨item, hitem, rfl⟩ := List.mem_map.mp hts
    exact plain_append.mpr ⟨h item hitem, plain_labelTokens _⟩
  rw [selectTokens]
  split
  · simp
  · have hbetween : Plain [.comma, .newline, .indent 1] := by simp
    simpa using plain_separated hbetween hitems

theorem plain_sourceTokens (q : Query) : Plain q.sourceTokens := by
  rw [sourceTokens]
  split <;> simp [plain_tableRef]

theorem plain_joinTokens (h : ∀ j ∈ q.joins, j.condition.Plain) : Plain q.joinTokens := by
  intro t ht
  obtain ⟨j, hj, ht⟩ := List.mem_flatMap.mp ht
  have hkind : j.kind.token.Plain := by cases j.kind <;> trivial
  have hcondition : Plain j.condition.tokens := h j hj
  have hjoin : Plain (.newline :: j.tokens) := by
    simpa [Join.tokens, hcondition, plain_tableRef] using hkind
  exact hjoin t ht

theorem plain_whereTokens (h : ∀ e ∈ q.condition, e.Plain) : Plain q.whereTokens := by
  rw [whereTokens]
  split
  · rename_i e he
    have hcondition : Plain e.tokens := h e he
    simp [hcondition]
  · exact plain_nil

theorem plain_limitClause (q : Query) : Plain q.limitClause := by
  rw [limitClause]
  split <;> simp [limitTokens]

/-- A statement with plain expressions is plain. -/
theorem plain_tokens (hselect : ∀ s ∈ q.select, s.expr.Plain)
    (hjoins : ∀ j ∈ q.joins, j.condition.Plain) (hcondition : ∀ e ∈ q.condition, e.Plain)
    (hgroup : ∀ e ∈ q.groupBy, e.Plain) (horder : ∀ s ∈ q.orderBy, s.expr.Plain) :
    Plain q.tokens := by
  have hkeys : ∀ ts ∈ q.groupBy.map Expr.tokens, Plain ts := by
    intro ts hts
    obtain ⟨e, he, rfl⟩ := List.mem_map.mp hts
    exact hgroup e he
  have hsorted : ∀ ts ∈ q.orderBy.map OrderItem.tokens, Plain ts := by
    intro ts hts
    obtain ⟨item, hitem, rfl⟩ := List.mem_map.mp hts
    exact plain_append.mpr ⟨horder item hitem, by simp⟩
  simp only [tokens, plain_append]
  exact ⟨⟨⟨⟨⟨⟨plain_selectTokens hselect, q.plain_sourceTokens⟩, plain_joinTokens hjoins⟩,
    plain_whereTokens hcondition⟩, plain_listClause _ hkeys⟩, plain_listClause _ hsorted⟩,
    q.plain_limitClause⟩

end Query

end ReportSql.Sql

namespace ReportSql.Statement

open ReportSql.Catalog
open ReportSql.Report
open ReportSql.Sql
open ReportSql.Time (WindowBounds)

/-! ## The pieces of reports -/

/-- The scale of an encoding is a finite number. -/
theorem exists_divisor_eq_finite (e : NumericEncoding) : ∃ x, e.divisor = .finite x := by
  refine Decimal.Double.exists_round_eq_finite _ one_pos ?_
  have hlow := e.scale.le_toInt
  have hhigh := e.scale.toInt_lt
  have hsize : e.scale.toInt.natAbs ≤ 2 ^ 63 := by omega
  calc ((e.scale.toInt.natAbs : ℚ) / (1 : ℕ)) = e.scale.toInt.natAbs := by simp
    _ ≤ (2 ^ 63 : ℕ) := Nat.cast_le.mpr hsize
    _ = 2 ^ (63 : ℤ) := by norm_num
    _ < 2 ^ (1023 : ℤ) := zpow_lt_zpow_right₀ one_lt_two (by decide)

namespace Target

theorem plain_valueExpr (infer : Bool) (t : Target) : (t.valueExpr infer).Plain := by
  unfold valueExpr
  split
  · rename_i e _
    obtain ⟨x, hx⟩ := exists_divisor_eq_finite e
    rw [NumericEncoding.decodeExpr, hx]
    exact (Expr.plain_column _ _).binary (Expr.plain_number x) .div
  · exact Expr.plain_column _ _

theorem plain_aggregateExpr (infer : Bool) (a : Aggregation) (t : Target) :
    (t.aggregateExpr infer a).Plain := by
  cases a
  case count | countDistinct => exact (Expr.plain_column _ _).call (by decide) _
  case sum | avg | min | max => exact (t.plain_valueExpr infer).call (by decide) _

end Target

theorem plain_selectedExpr (infer : Bool) (s : Placed SelectedField) :
    (selectedExpr infer s).Plain := by
  rcases selectedExpr_cases infer s with h | ⟨a, h⟩
  · rw [h]
    exact s.target.plain_valueExpr infer
  · rw [h]
    exact s.target.plain_aggregateExpr infer a

theorem plain_sortExpr (infer : Bool) (v : Resolved) (t : Target) :
    (sortExpr infer v t).Plain := by
  rcases sortExpr_cases infer v t with h | ⟨a, h⟩
  · rw [h]
    exact t.plain_valueExpr infer
  · rw [h]
    exact t.plain_aggregateExpr infer a

theorem plain_conditionBehind {e : Expr} (he : e.Plain) (f : Filter) (n : Nat) :
    (conditionBehind e f n).Plain := by
  have hparams : ∀ count, ∀ v ∈ paramsFrom n count, v.Plain := by
    intro count v hv
    obtain ⟨i, -, rfl⟩ := List.mem_map.mp hv
    exact Expr.plain_param i
  rw [conditionBehind]
  cases f.operator
  case equals | notEquals | greaterThan | greaterEqual | lessThan | lessEqual =>
    exact he.binary (Expr.plain_param _) _
  case between => exact he.between _ (Expr.plain_param _) (Expr.plain_param _)
  case isIn | notIn => exact he.isIn _ (hparams _)
  case contains | notContains | startsWith | endsWith =>
    exact he.like _ _ _ (Expr.plain_param _)
  case isNull | isNotNull => exact he.isNull _

theorem plain_conjuncts (infer : Bool) (fs : List (Placed Filter))
    (window : Option (WindowBounds × Target)) :
    ∀ p ∈ conjuncts infer fs window, ∀ n, (p.form n).Plain := by
  intro p hp n
  rcases List.mem_append.mp hp with hp | hp
  · obtain ⟨f, -, rfl⟩ := List.mem_map.mp hp
    exact plain_conditionBehind (f.target.plain_valueExpr infer) f.part n
  · cases window with
    | none => cases hp
    | some w =>
      obtain ⟨bounds, t⟩ := w
      simp only [windowConjuncts, List.mem_append, Option.mem_toList, Option.map_eq_some_iff] at hp
      rcases hp with ⟨s, -, rfl⟩ | ⟨s, -, rfl⟩
      · exact (t.plain_valueExpr infer).binary (Expr.plain_param _) .ge
      · exact (t.plain_valueExpr infer).binary (Expr.plain_param _) .le

theorem plain_conjunction {es : List Expr} (h : ∀ e ∈ es, e.Plain) :
    ∀ e ∈ conjunction es, e.Plain := by
  have hfold : ∀ {rest : List Expr} {e : Expr}, e.Plain → (∀ x ∈ rest, x.Plain) →
      (rest.foldl (.binary .and) e).Plain := by
    intro rest
    induction rest with
    | nil => exact fun he _ => he
    | cons x rest ih =>
      intro e he hrest
      obtain ⟨hx, hrest⟩ := List.forall_mem_cons.mp hrest
      exact ih (he.binary hx .and) hrest
  cases es with
  | nil => nofun
  | cons e rest =>
    obtain ⟨he, hrest⟩ := List.forall_mem_cons.mp h
    rintro x ⟨⟩
    exact hfold he hrest

section

variable {r : Registry} {c : Config} {o : Options} {v : Resolved} {joins : List Sql.Join}
  {window : Option (WindowBounds × Target)} {k : Compiled}

theorem Compilation.plain (h : Compilation r c o v joins window k) : Plain k.query.tokens := by
  rw [h.result]
  refine Query.plain_tokens ?_ ?_ ?_ ?_ ?_
  · intro s hs
    obtain ⟨p, -, rfl⟩ := List.mem_map.mp hs
    exact plain_selectedExpr o.inferEncodings p
  · intro j hj
    obtain ⟨e, -, he⟩ := exists_hop_of_mem h.joined hj
    obtain ⟨source, target, -, -, rfl⟩ := joinOf_eq_ok_iff.mp he
    exact (Expr.plain_column _ _).binary (Expr.plain_column _ _) .eq
  · refine plain_conjunction fun e he => ?_
    obtain ⟨p, hp, n, rfl⟩ := mem_formsFrom he
    exact plain_conjuncts o.inferEncodings v.filters window p hp n
  · intro e he
    obtain ⟨p, -, rfl⟩ := List.mem_map.mp he
    exact p.target.plain_valueExpr o.inferEncodings
  · intro s hs
    obtain ⟨p, -, rfl⟩ := List.mem_map.mp hs
    exact plain_sortExpr o.inferEncodings v p.target

end

/-- **No name escapes its quotes.** Reading the text of a compiled statement from left to right by
the quotes of its dialect gives back its pieces, whatever characters its names hold. Outside of
quotes there are no words but keywords and the names of functions. -/
theorem statement_reads_back {r : Registry} {c : Config} {o : Options} {k : Compiled}
    (h : compile r c o = .ok k) :
    scan k.dialect 0 k.sql.toList = some (k.query.tokens.flatMap (Token.read k.dialect)) ∧
      ∀ t ∈ k.query.tokens, t.Plain := by
  obtain ⟨v, joins, window, hc⟩ := compile_eq_ok_iff.mp h
  refine ⟨?_, hc.plain⟩
  rw [Compiled.sql, Query.text, statementText, String.toList_ofList]
  exact scan_tokens hc.plain k.query.spaced_tokens hc.placeholders_eq

/-- The labels of objects under a name that would end its quotes. -/
def quotedLabels : Config :=
  { Config.new "objects" with
    selected := [⟨"objects", "object_label", some "a\" FROM \"b", none⟩] }

theorem quotedLabels_reads_back :
    ∃ k, compile .telematics quotedLabels newYearOptions = .ok k ∧
      scan k.dialect 0 k.sql.toList = some
        [.keyword .select, .identifier "objects", .dot, .identifier "object_label",
          .keyword .asAlias, .identifier "a\" FROM \"b",
          .keyword .fromTable, .identifier "raw_business_data", .dot, .identifier "objects",
          .keyword .asAlias, .identifier "objects",
          .keyword .limit, .integer 1000] ∧
      ∀ t ∈ k.query.tokens, t.Plain := by
  have h : (compile .telematics quotedLabels newYearOptions).toOption.map
      (fun k => k.query.tokens.flatMap (Token.read k.dialect)) = some
        [.keyword .select, .identifier "objects", .dot, .identifier "object_label",
          .keyword .asAlias, .identifier "a\" FROM \"b",
          .keyword .fromTable, .identifier "raw_business_data", .dot, .identifier "objects",
          .keyword .asAlias, .identifier "objects",
          .keyword .limit, .integer 1000] := by decide +kernel
  obtain ⟨k, hk, hread⟩ := exists_ok_of_map h
  obtain ⟨hscan, hplain⟩ := statement_reads_back hk
  exact ⟨k, hk, hread ▸ hscan, hplain⟩

end ReportSql.Statement
