import ReportSql.Join.Search

/-!
# Join plans

A plan joins further entities to a root: the shortest paths to all of them one after another, with
each entity joined once. Paths that have been asked for are kept in a memo, misses included; the
memo changes no answer.
-/

namespace ReportSql.Join

/-- The answers given so far, by start and target. -/
structure Memo where
  entries : List ((String × String) × Option JoinPath)

namespace Memo

def empty : Memo :=
  ⟨[]⟩

/-- How many pairs of entities have been asked for. -/
def size (m : Memo) : Nat :=
  m.entries.length

/-- The answer for a pair, if it has been asked for. -/
def get? (m : Memo) (start target : String) : Option (Option JoinPath) :=
  (m.entries.find? fun entry => entry.1 == (start, target)).map fun entry => entry.2

/-- A shortest path, from the memo or else found and kept. -/
def path? (m : Memo) (g : Graph) (start target : String) : Option JoinPath × Memo :=
  match m.get? start target with
  | some known => (known, m)
  | none =>
    let found := g.path? start target
    (found, ⟨m.entries ++ [((start, target), found)]⟩)

/-- Is there a path? -/
def hasPath (m : Memo) (g : Graph) (start target : String) : Bool × Memo :=
  let (found, m) := m.path? g start target
  (found.isSome, m)

end Memo

namespace Plan

/-- Adds the hops that lead to entities not yet joined. -/
def addHops : List JoinEdge → List JoinEdge → String → List JoinEdge
  | plan, [], _ => plan
  | plan, e :: rest, root =>
    if Search.seen root plan e.toEntity then addHops plan rest root
    else addHops (plan ++ [e]) rest root

/-- Joins the targets in order to what is joined; fails with the first that cannot be reached. -/
def addTargets (g : Graph) (root : String) :
    List String → List JoinEdge → Memo → Except String (List JoinEdge) × Memo
  | [], plan, m => (.ok plan, m)
  | target :: rest, plan, m =>
    if Search.seen root plan target then addTargets g root rest plan m
    else
      match m.path? g root target with
      | (none, m) => (.error target, m)
      | (some path, m) => addTargets g root rest (addHops plan path.edges root) m

end Plan

/-- The plan that joins the targets to the root, or the first target that cannot be reached. -/
def Memo.joinPlan (m : Memo) (g : Graph) (root : String) (targets : List String) :
    Except String JoinPath × Memo :=
  let (plan, m) := Plan.addTargets g root targets [] m
  (plan.map JoinPath.mk, m)

/-- The plan that joins the targets to the root when nothing has been asked for before. -/
def Graph.joinPlan (g : Graph) (root : String) (targets : List String) : Except String JoinPath :=
  (Memo.empty.joinPlan g root targets).1

end ReportSql.Join
