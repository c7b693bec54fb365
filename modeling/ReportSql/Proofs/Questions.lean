import Mathlib.Data.Set.Card
import ReportSql.Proofs.Compilation
import ReportSql.Proofs.Union

/-!
# Questions that share a memo

Paths, plans and statements may be asked for in any order, and what was looked up for one question
is kept for the next. No answer depends on what is kept, and the memo has one entry for each pair of
entities that was looked up. A plan looks up the path to a target only if what is joined already
does not decide it.
-/

namespace ReportSql.Join

/-! ## Pairs in a memo -/

namespace Memo

/-- The pairs of entities that have been asked for. -/
def pairs (m : Memo) : List (String × String) :=
  m.entries.map Prod.fst

theorem size_eq_length_pairs (m : Memo) : m.size = m.pairs.length :=
  (List.length_map ..).symm

theorem get?_eq_none_iff {m : Memo} {start target : String} :
    m.get? start target = none ↔ (start, target) ∉ m.pairs := by
  simp only [get?, pairs, Option.map_eq_none_iff, List.find?_eq_none, List.mem_map, beq_iff_eq,
    not_exists, not_and]

/-- The second memo is the first one after the pairs of a set have been looked up. -/
structure Learns (m m' : Memo) (asked : Set (String × String)) : Prop where
  distinct : m.pairs.Nodup → m'.pairs.Nodup
  mem_iff : ∀ pair, pair ∈ m'.pairs ↔ pair ∈ m.pairs ∨ pair ∈ asked

namespace Learns

variable {m m' m'' : Memo} {asked asked' : Set (String × String)}

theorem nothing (m : Memo) : m.Learns m ∅ :=
  ⟨id, fun _ => by simp⟩

theorem trans (h : m.Learns m' asked) (h' : m'.Learns m'' asked') :
    m.Learns m'' (asked ∪ asked') := by
  refine ⟨fun hm => h'.distinct (h.distinct hm), fun pair => ?_⟩
  rw [h'.mem_iff, h.mem_iff, Set.mem_union, or_assoc]

/-- What has been learned from nothing is as much as has been asked for. -/
theorem size_eq (h : empty.Learns m asked) : (m.size : ℕ∞) = asked.encard := by
  have hasked : asked = {pair | pair ∈ m.pairs} := by
    ext pair
    show pair ∈ asked ↔ pair ∈ m.pairs
    rw [h.mem_iff]
    exact (or_iff_right List.not_mem_nil).symm
  have hnodup : m.pairs.Nodup := h.distinct .nil
  have hfinite : {pair | pair ∈ m.pairs} = (m.pairs.toFinset : Set (String × String)) := by
    ext pair
    simp
  rw [hasked, hfinite, Set.encard_coe_eq_coe_finsetCard, List.toFinset_card_of_nodup hnodup,
    size_eq_length_pairs]

end Learns

/-- Asking for a path looks up its ends, whether or not there is a path. -/
theorem path?_learns (m : Memo) (g : Graph) (start target : String) :
    m.Learns (m.path? g start target).2 {(start, target)} := by
  unfold path?
  cases hget : m.get? start target with
  | some known =>
    have hknown : (start, target) ∈ m.pairs := by
      by_contra hnew
      rw [get?_eq_none_iff.mpr hnew] at hget
      cases hget
    refine ⟨id, fun pair => ?_⟩
    rw [Set.mem_singleton_iff]
    exact ⟨.inl, fun h => h.elim id fun heq => heq ▸ hknown⟩
  | none =>
    have hnew : (start, target) ∉ m.pairs := get?_eq_none_iff.mp hget
    have hpairs : pairs ⟨m.entries ++ [((start, target), g.path? start target)]⟩ =
        m.pairs ++ [(start, target)] := by
      simp [pairs]
    refine ⟨fun hm => ?_, fun pair => ?_⟩
    · rw [hpairs, ← List.concat_eq_append]
      exact hm.concat hnew
    · rw [hpairs]
      simp

end Memo

/-! ## Pairs that a plan looks up -/

namespace Plan

open Search (seen seen_iff)

variable {g : Graph} {root target t : String} {joined : List JoinEdge} {rest targets : List String}

/-- The path from the root to the first entity leads over the second one, or to it. -/
def Passes (g : Graph) (root target t : String) : Prop :=
  ∃ p, g.path? root target = some p ∧ t ∈ p.edges.map JoinEdge.toEntity

/-- Planning asks for the path to a target unless it is joined already, the path to an earlier
target passes it, or an earlier target cannot be reached. -/
def AsksFor (g : Graph) (root : String) (joined : List JoinEdge) (targets : List String)
    (t : String) : Prop :=
  seen root joined t = false ∧ ∃ before after, targets = before ++ t :: after ∧
    ∀ u ∈ before, unreachable g root u = false ∧ ¬Passes g root u t

theorem not_asksFor_nil : ¬AsksFor g root joined [] t := by
  rintro ⟨-, before, after, h, -⟩
  cases before <;> cases h

theorem asksFor_cons : AsksFor g root joined (target :: rest) t ↔
    (t = target ∧ seen root joined t = false) ∨
      (unreachable g root target = false ∧ ¬Passes g root target t ∧
        AsksFor g root joined rest t) := by
  constructor
  · rintro ⟨hnew, before, after, h, hbefore⟩
    cases before with
    | nil =>
      cases h
      exact .inl ⟨rfl, hnew⟩
    | cons u before =>
      cases h
      obtain ⟨⟨hreached, hpasses⟩, hbefore⟩ := List.forall_mem_cons.mp hbefore
      exact .inr ⟨hreached, hpasses, hnew, before, after, rfl, hbefore⟩
  · rintro (⟨rfl, hnew⟩ | ⟨hreached, hpasses, hnew, before, after, rfl, hbefore⟩)
    · exact ⟨hnew, [], rest, rfl, by simp⟩
    · exact ⟨hnew, target :: before, after, rfl,
        List.forall_mem_cons.mpr ⟨⟨hreached, hpasses⟩, hbefore⟩⟩

/-- A target that is joined already is passed over. -/
theorem OfPaths.asksFor_cons_of_seen (h : OfPaths g root joined)
    (hseen : seen root joined target = true) :
    AsksFor g root joined (target :: rest) t ↔ AsksFor g root joined rest t := by
  obtain ⟨hreached, hsub⟩ := h.of_seen hseen
  have hnot : unreachable g root target = false := by
    rcases hreached with rfl | ⟨p, hp⟩
    · simp [unreachable]
    · simp [unreachable, hp]
  rw [asksFor_cons]
  constructor
  · rintro (⟨rfl, hnew⟩ | ⟨-, -, hrest⟩)
    · rw [hseen] at hnew
      cases hnew
    · exact hrest
  · intro hrest
    refine .inr ⟨hnot, ?_, hrest⟩
    rintro ⟨p, hp, hmem⟩
    have hjoined : seen root joined t = true :=
      seen_iff.mpr (.inr (List.map_subset _ (hsub p hp) hmem))
    rw [hrest.1] at hjoined
    cases hjoined

/-- With a target that cannot be reached, planning ends. -/
theorem asksFor_cons_of_unreachable (hnew : seen root joined target = false)
    (hmissed : unreachable g root target = true) :
    AsksFor g root joined (target :: rest) t ↔ t = target := by
  rw [asksFor_cons, hmissed]
  constructor
  · rintro (⟨rfl, -⟩ | ⟨hreached, -⟩)
    · rfl
    · cases hreached
  · rintro rfl
    exact .inl ⟨rfl, hnew⟩

/-- With a target that is reached, planning goes on from what its path joins. -/
theorem OfPaths.asksFor_cons_of_path (hg : g.Closed) (h : OfPaths g root joined)
    (hnew : seen root joined target = false) {p : JoinPath} (hp : g.path? root target = some p) :
    AsksFor g root joined (target :: rest) t ↔
      t = target ∨ AsksFor g root (Plan.addHops joined p.edges root) rest t := by
  have hpasses : Passes g root target t ↔ t ∈ p.edges.map JoinEdge.toEntity := by
    constructor
    · rintro ⟨q, hq, hmem⟩
      cases hp.symm.trans hq
      exact hmem
    · exact fun hmem => ⟨p, hp, hmem⟩
  have hjoined : seen root (Plan.addHops joined p.edges root) t = false ↔
      seen root joined t = false ∧ ¬Passes g root target t := by
    rw [← Bool.not_eq_true, ← Bool.not_eq_true, seen_iff, seen_iff, hpasses, List.mem_map,
      List.mem_map, List.mem_map]
    simp only [(h.addHops hg hp).2]
    grind
  rw [asksFor_cons, AsksFor, AsksFor, hjoined]
  have hreached : unreachable g root target = false := by simp [unreachable, hp]
  constructor
  · rintro (⟨heq, -⟩ | ⟨-, hpass, hfirst, hrest⟩)
    · exact .inl heq
    · exact .inr ⟨⟨hfirst, hpass⟩, hrest⟩
  · rintro (rfl | ⟨⟨hfirst, hpass⟩, hrest⟩)
    · exact .inl ⟨rfl, hnew⟩
    · exact .inr ⟨hreached, hpass, hfirst, hrest⟩

/-- The pairs that planning looks up. -/
def asked (g : Graph) (root : String) (joined : List JoinEdge) (targets : List String) :
    Set (String × String) :=
  {pair | pair.1 = root ∧ AsksFor g root joined targets pair.2}

theorem asked_nil : asked g root joined [] = ∅ := by
  ext pair
  simp [asked, not_asksFor_nil]

/-- A memo with answers of the graph learns what planning asks for. -/
theorem addTargets_learns (hg : g.Closed) (h : OfPaths g root joined) {m : Memo}
    (hm : m.Sound g) :
    m.Learns (addTargets g root targets joined m).2 (asked g root joined targets) := by
  induction targets generalizing joined m with
  | nil =>
    rw [asked_nil]
    exact .nothing m
  | cons target rest ih =>
    rw [addTargets]
    cases hseen : seen root joined target with
    | true =>
      have hsame : asked g root joined (target :: rest) = asked g root joined rest := by
        simp only [asked, h.asksFor_cons_of_seen hseen]
      rw [if_pos rfl, hsame]
      exact ih h hm
    | false =>
      rw [if_neg Bool.false_ne_true]
      have hlearns := m.path?_learns g root target
      obtain ⟨hanswer, hm'⟩ := hm.path?_eq root target
      rcases hres : m.path? g root target with ⟨found, m'⟩
      rw [hres] at hlearns hanswer hm'
      cases found with
      | none =>
        have hne : target ≠ root := by
          rintro rfl
          rw [Search.seen_start] at hseen
          cases hseen
        have hmissed : unreachable g root target = true := by simp [unreachable, hne, ← hanswer]
        have hlast : asked g root joined (target :: rest) = {(root, target)} := by
          ext ⟨a, b⟩
          simp [asked, asksFor_cons_of_unreachable hseen hmissed]
        rw [hlast]
        exact hlearns
      | some p =>
        have hmore : asked g root joined (target :: rest) =
            {(root, target)} ∪ asked g root (addHops joined p.edges root) rest := by
          ext ⟨a, b⟩
          simp only [asked, h.asksFor_cons_of_path hg hseen hanswer.symm, Set.mem_union,
            Set.mem_singleton_iff, Prod.mk.injEq, Set.mem_ofPred_eq]
          tauto
        rw [hmore]
        exact hlearns.trans (ih (h.addHops hg hanswer.symm).1 hm')

end Plan

theorem Memo.joinPlan_learns {g : Graph} (hg : g.Closed) {m : Memo} (hm : m.Sound g)
    (root : String) (targets : List String) :
    m.Learns (m.joinPlan g root targets).2 (Plan.asked g root [] targets) :=
  Plan.addTargets_learns hg .nil hm

/-- A plan that fails keeps what it has looked up until then, and looks up nothing further. -/
example : (Memo.empty.joinPlan (.ofEntities Catalog.Telematics.entities) "objects"
    ["objects", "groups", "nowhere", "vehicles"]).2.pairs =
      [("objects", "groups"), ("objects", "nowhere")] := by
  decide +kernel

end ReportSql.Join

namespace ReportSql.Statement

open ReportSql.Catalog
open ReportSql.Join (Graph JoinPath Memo)
open ReportSql.Report

/-- The pairs that compiling a report looks up: those that its plan asks for, if it obeys all
rules. -/
def asked (r : Registry) (c : Config) : Set (String × String) :=
  match resolve r c with
  | .error _ => ∅
  | .ok v => Join.Plan.asked r.graph v.primary.id [] c.referenced

theorem compileWith_learns {r : Registry} {m : Memo} (hm : m.Sound r.graph) (c : Config)
    (o : Options) : m.Learns (compileWith m r c o).2 (asked r c) := by
  rw [compileWith, asked]
  cases resolve r c with
  | error e => exact .nothing m
  | ok v =>
    have hg : r.graph.Closed := closed_ofEntities r.entities
    have hlearns := Memo.joinPlan_learns hg hm v.primary.id c.referenced
    rcases hplan : m.joinPlan r.graph v.primary.id c.referenced with ⟨plan, m'⟩
    rw [hplan] at hlearns
    cases plan with
    | error target => simpa only [hplan] using hlearns
    | ok plan => simpa only [hplan] using hlearns

/-! ## Questions -/

/-- What can be asked of a graph, and of the catalogs that it is the graph of. -/
inductive Question (g : Graph) where
  /-- A path that is searched anew. -/
  | newPath (start target : String)
  /-- A path that is kept. -/
  | path (start target : String)
  | hasPath (start target : String)
  | plan (root : String) (targets : List String)
  | statement (r : Registry) (shared : r.graph = g) (c : Config) (o : Options)

inductive Answer where
  | path (found : Option JoinPath)
  | hasPath (found : Bool)
  | plan (result : Except String JoinPath)
  | statement (result : Except CompileError Compiled)

namespace Question

variable {g : Graph}

/-- The answer with the help of a memo, and the memo afterwards. -/
def ask (m : Memo) : Question g → Answer × Memo
  | newPath start target => (.path (g.path? start target), m)
  | path start target =>
    let (found, m) := m.path? g start target
    (.path found, m)
  | hasPath start target =>
    let (found, m) := m.hasPath g start target
    (.hasPath found, m)
  | plan root targets =>
    let (result, m) := m.joinPlan g root targets
    (.plan result, m)
  | statement r _ c o =>
    let (result, m) := compileWith m r c o
    (.statement result, m)

/-- The answers to questions one after another. -/
def askAll (m : Memo) : List (Question g) → List Answer × Memo
  | [] => ([], m)
  | q :: rest =>
    let (answer, m) := q.ask m
    let (answers, m) := askAll m rest
    (answer :: answers, m)

/-- The answer that the graph gives by itself. -/
def answer : Question g → Answer
  | newPath start target | path start target => .path (g.path? start target)
  | hasPath start target => .hasPath (g.path? start target).isSome
  | plan root targets => .plan (g.joinPlan root targets)
  | statement r _ c o => .statement (compile r c o)

/-- The pairs of entities whose paths are looked up for the answer. -/
def asked : Question g → Set (String × String)
  | newPath _ _ => ∅
  | path start target | hasPath start target => {(start, target)}
  | plan root targets => Join.Plan.asked g root [] targets
  | statement r _ c _ => Statement.asked r c

/-- One question: a memo with answers of the graph changes no answer, is left with answers of the
graph, and learns what is looked up. -/
theorem ask_spec (hg : g.Closed) {m : Memo} (hm : m.Sound g) (q : Question g) :
    (q.ask m).1 = q.answer ∧ (q.ask m).2.Sound g ∧ m.Learns (q.ask m).2 q.asked := by
  cases q with
  | newPath start target => exact ⟨rfl, hm, .nothing m⟩
  | path start target =>
    obtain ⟨hpath, hsound⟩ := hm.path?_eq start target
    exact ⟨congrArg Answer.path hpath, hsound, m.path?_learns g start target⟩
  | hasPath start target =>
    obtain ⟨hpath, hsound⟩ := hm.path?_eq start target
    refine ⟨?_, hsound, m.path?_learns g start target⟩
    exact congrArg (fun found => Answer.hasPath found.isSome) hpath
  | plan root targets =>
    obtain ⟨hplan, hsound⟩ := Memo.joinPlan_eq hm root targets
    exact ⟨congrArg Answer.plan hplan, hsound, Memo.joinPlan_learns hg hm root targets⟩
  | statement r shared c o =>
    cases shared
    obtain ⟨hresult, hsound⟩ := compileWith_eq hm c o
    exact ⟨congrArg Answer.statement hresult, hsound, compileWith_learns hm c o⟩

/-- Questions one after another. -/
theorem askAll_spec (hg : g.Closed) {m : Memo} (hm : m.Sound g) (questions : List (Question g)) :
    (askAll m questions).1 = questions.map answer ∧
      m.Learns (askAll m questions).2 {pair | ∃ q ∈ questions, pair ∈ q.asked} := by
  -- what the first question has left in the memo is there for the others
  induction questions generalizing m with
  | nil =>
    refine ⟨rfl, ?_⟩
    simpa [askAll] using Memo.Learns.nothing m
  | cons q rest ih =>
    obtain ⟨hanswer, hsound, hlearns⟩ := ask_spec hg hm q
    obtain ⟨hanswers, hmore⟩ := ih hsound
    refine ⟨?_, ?_⟩
    · rw [List.map_cons, ← hanswer, ← hanswers]
      rfl
    · have hboth : {pair | ∃ q' ∈ q :: rest, pair ∈ q'.asked} =
          q.asked ∪ {pair | ∃ q' ∈ rest, pair ∈ q'.asked} := by
        ext pair
        simp
      rw [hboth]
      exact hlearns.trans hmore

end Question

/-- **The memo shows in no answer.** Whatever is asked of the graph of a catalog and in whatever
order, every answer is the one that the graph gives by itself, which is also the answer to the
question when it is the first one. Afterwards the memo has as many entries as there are pairs that
were looked up, those without a path among them. -/
theorem answers_independent_of_memo (entities : List Entity)
    (questions : List (Question (Graph.ofEntities entities))) :
    (Question.askAll .empty questions).1 = questions.map Question.answer ∧
      (∀ q ∈ questions, (q.ask .empty).1 = q.answer) ∧
      ((Question.askAll .empty questions).2.size : ℕ∞) =
        Set.encard {pair | ∃ q ∈ questions, pair ∈ q.asked} := by
  have hg := closed_ofEntities entities
  have hempty := Memo.sound_empty (Graph.ofEntities entities)
  obtain ⟨hanswers, hlearns⟩ := Question.askAll_spec hg hempty questions
  exact ⟨hanswers, fun q _ => (q.ask_spec hg hempty).1, hlearns.size_eq⟩

end ReportSql.Statement
