import ReportSql.Sql.Query

/-!
# Pieces of statements

A statement is written clause by clause. What is picked from its pieces comes, in the same order,
from the pieces of its expressions, as long as nothing is picked from those that the clauses are
framed with. The words that start the keys to group by may be picked.
-/

namespace ReportSql.Sql

/-- The pieces that clauses are framed with: names, separators, numbers of rows, and all words but
those that start the keys to group by. -/
def Token.isFrame : Token → Bool
  | .keyword .groupBy => false
  | .keyword _ | .comma | .space | .newline | .indent _ | .identifier _ | .qualified _ _
  | .integer _ => true
  | _ => false

section

variable {β : Type} {f : Token → Option β}

/-- Nothing is picked from the frame of clauses. -/
def SkipsFrame (f : Token → Option β) : Prop :=
  ∀ t : Token, t.isFrame = true → f t = none

namespace SkipsFrame

theorem filterMap_eq_nil (hf : SkipsFrame f) {ts : List Token}
    (h : ts.all Token.isFrame = true) : ts.filterMap f = [] :=
  List.filterMap_eq_nil_iff.mpr fun t ht => hf t (List.all_eq_true.mp h t ht)

theorem labelTokens (hf : SkipsFrame f) (label : Option String) :
    (labelTokens label).filterMap f = [] :=
  hf.filterMap_eq_nil (by cases label <;> rfl)

theorem tableRef (hf : SkipsFrame f) (t : TableRef) : t.tokens.filterMap f = [] := by
  have hname : [.qualified t.schema t.table].filterMap f = [] := hf.filterMap_eq_nil rfl
  rw [TableRef.tokens, ← List.singleton_append, List.filterMap_append, hname, hf.labelTokens]
  rfl

theorem selectItem (hf : SkipsFrame f) (s : SelectItem) :
    s.tokens.filterMap f = s.expr.tokens.filterMap f := by
  rw [SelectItem.tokens, List.filterMap_append, hf.labelTokens, List.append_nil]

theorem join (hf : SkipsFrame f) (j : Join) :
    (.newline :: j.tokens).filterMap f = j.condition.tokens.filterMap f := by
  have hkind : (.newline :: [j.kind.token, .space, .keyword .join, .space]).filterMap f = [] :=
    hf.filterMap_eq_nil (by cases j.kind <;> rfl)
  have hon : [.space, .keyword .onCondition, .space].filterMap f = [] := hf.filterMap_eq_nil rfl
  rw [Join.tokens, ← List.cons_append, ← List.cons_append, ← List.cons_append,
    List.filterMap_append, List.filterMap_append, List.filterMap_append, hkind, hon, hf.tableRef]
  rfl

theorem orderItem (hf : SkipsFrame f) (s : OrderItem) :
    s.tokens.filterMap f = s.expr.tokens.filterMap f := by
  have hdirection : [.space, .keyword (if s.descending then .desc else .asc)].filterMap f = [] :=
    hf.filterMap_eq_nil (by cases s.descending <;> rfl)
  rw [OrderItem.tokens, List.filterMap_append, hdirection, List.append_nil]

end SkipsFrame

namespace Query

/-- What is picked from items with separators between them is picked from the items. -/
theorem filterMap_separated {between : List Token} (h : between.filterMap f = [])
    (items : List (List Token)) :
    (separated between items).filterMap f = items.flatMap (List.filterMap f) := by
  induction items with
  | nil => rfl
  | cons ts rest ih =>
    cases rest with
    | nil => simp [separated]
    | cons us more => simp [separated, h, ih]

theorem filterMap_listClause (hf : SkipsFrame f) (k : Keyword) (items : List (List Token)) :
    (listClause k items).filterMap f =
      (if items.isEmpty then [] else [.keyword k].filterMap f)
        ++ items.flatMap (List.filterMap f) := by
  have hseparator : [.comma, .space].filterMap f = [] := hf.filterMap_eq_nil rfl
  have hstart : [.newline, .keyword k, .space].filterMap f = [.keyword k].filterMap f := by
    simp [List.filterMap_cons, hf .newline rfl, hf .space rfl]
  unfold listClause
  split
  · rename_i h
    rw [List.isEmpty_iff.mp h]
    rfl
  · rw [List.filterMap_append, hstart, filterMap_separated hseparator]

variable (q : Query)

theorem filterMap_selectTokens (hf : SkipsFrame f) : q.selectTokens.filterMap f =
    q.select.flatMap fun s => s.expr.tokens.filterMap f := by
  have hseparator : [.comma, .newline, .indent 1].filterMap f = [] := hf.filterMap_eq_nil rfl
  have hstart : [.newline, .indent 1].filterMap f = [] := hf.filterMap_eq_nil rfl
  rw [selectTokens, List.filterMap_cons_none (hf (.keyword .select) rfl)]
  split
  · rename_i h
    rw [List.isEmpty_iff.mp h]
    rfl
  · simp only [List.filterMap_append, hstart, filterMap_separated hseparator, List.flatMap_map,
      hf.selectItem, List.nil_append]

theorem filterMap_sourceTokens (hf : SkipsFrame f) : q.sourceTokens.filterMap f = [] := by
  have hstart : [.newline, .keyword .fromTable, .space].filterMap f = [] := hf.filterMap_eq_nil rfl
  unfold sourceTokens
  split
  · rw [List.filterMap_append, hstart, hf.tableRef, List.append_nil]
  · rfl

theorem filterMap_joinTokens (hf : SkipsFrame f) : q.joinTokens.filterMap f =
    q.joins.flatMap fun j => j.condition.tokens.filterMap f := by
  rw [joinTokens, List.filterMap_flatMap]
  simp only [hf.join]

theorem filterMap_whereTokens (hf : SkipsFrame f) : q.whereTokens.filterMap f =
    q.condition.toList.flatMap fun e => e.tokens.filterMap f := by
  have hstart : [.newline, .keyword .whereRows, .space].filterMap f = [] := hf.filterMap_eq_nil rfl
  unfold whereTokens
  split
  · rename_i e h
    rw [List.filterMap_append, hstart, h, Option.toList_some, List.flatMap_singleton]
    rfl
  · rename_i h
    rw [h]
    rfl

theorem filterMap_limitClause (hf : SkipsFrame f) : q.limitClause.filterMap f = [] := by
  unfold limitClause
  split
  · exact hf.filterMap_eq_nil rfl
  · rfl

/-- A statement is read clause by clause. -/
theorem filterMap_tokens (hf : SkipsFrame f) : q.tokens.filterMap f =
    (q.select.flatMap fun s => s.expr.tokens.filterMap f)
      ++ (q.joins.flatMap fun j => j.condition.tokens.filterMap f)
      ++ (q.condition.toList.flatMap fun e => e.tokens.filterMap f)
      ++ ((if q.groupBy.isEmpty then [] else [.keyword .groupBy].filterMap f)
        ++ q.groupBy.flatMap fun e => e.tokens.filterMap f)
      ++ (q.orderBy.flatMap fun s => s.expr.tokens.filterMap f) := by
  have horder : [.keyword .orderBy].filterMap f = [] := hf.filterMap_eq_nil rfl
  simp only [tokens, List.filterMap_append, q.filterMap_selectTokens hf,
    q.filterMap_sourceTokens hf, q.filterMap_joinTokens hf, q.filterMap_whereTokens hf,
    filterMap_listClause hf, q.filterMap_limitClause hf, List.flatMap_map, hf.orderItem, horder,
    List.isEmpty_map, ite_self, List.append_nil, List.nil_append]

end Query

end

end ReportSql.Sql
