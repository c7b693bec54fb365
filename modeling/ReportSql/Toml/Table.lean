import ReportSql.Json.Tree

/-!
# Tables of settings documents

A table is filled by lines that name their place. What a line may add to depends on how a table came
about: one with a header of its own cannot get a second one, and one made by a key with points is
closed to headers.
-/

namespace ReportSql.Toml

open ReportSql.Json (Tree)

/-- How a table came about. -/
inductive TableKind where
  /-- It has a header of its own. -/
  | headed
  /-- It was on the way to the table of another header. -/
  | passed
  /-- It was on the way of a key with points. -/
  | pointed
  deriving DecidableEq

/-- What a key stands for. -/
inductive Node where
  /-- A value that nothing can be added to. -/
  | value (t : Tree)
  | table (kind : TableKind) (members : List (String × Node))
  /-- A list of tables with headers, the latest first. -/
  | tables (items : List (List (String × Node)))

/-- The members of a table. -/
abbrev Members :=
  List (String × Node)

namespace Members

/-- Changes what a key stands for, or adds it at the end. -/
def change (key : String) (f : Option Node → Option Node) : Members → Option Members
  | [] => (f none).map fun node => [(key, node)]
  | (k, node) :: rest =>
    if k = key then (f (some node)).map fun node => (k, node) :: rest
    else (change key f rest).map fun rest => (k, node) :: rest

/-- Changes the table that the keys of a header lead to. -/
def changeAt (f : Members → Option Members) : List String → Members → Option Members
  | [], members => f members
  | key :: path, members =>
    members.change key fun
      | none => (changeAt f path []).map (.table .passed)
      | some (.table kind ms) => (changeAt f path ms).map (.table kind)
      | some (.tables (latest :: earlier)) =>
        (changeAt f path latest).map fun latest => .tables (latest :: earlier)
      | some (.tables []) | some (.value _) => none

/-- Adds a value under a key. -/
def addValue (node : Node) (key : String) (members : Members) : Option Members :=
  members.change key fun
    | none => some node
    | some _ => none

/-- Adds a value under a key with points. The table that gets it must come from such keys. -/
def addAt (node : Node) : List String → Members → Option Members
  | [], _ => none
  | [key], members => members.addValue node key
  | key :: next :: path, members =>
    members.change key fun
      | none => (addAt node (next :: path) []).map (.table .pointed)
      | some (.table .pointed ms) => (addAt node (next :: path) ms).map (.table .pointed)
      | some (.table .passed ms) =>
        if path.isEmpty then none else (addAt node (next :: path) ms).map (.table .passed)
      | some (.tables (latest :: earlier)) =>
        if path.isEmpty then none
        else (addAt node (next :: path) latest).map fun latest => .tables (latest :: earlier)
      | some (.table .headed _) | some (.tables []) | some (.value _) => none

/-- Opens the table of a header. -/
def openTable (key : String) (members : Members) : Option Members :=
  members.change key fun
    | none => some (.table .headed [])
    | some (.table .passed ms) => some (.table .headed ms)
    | some _ => none

/-- Opens a further table of a list of tables. -/
def openItem (key : String) (members : Members) : Option Members :=
  members.change key fun
    | none => some (.tables [[]])
    | some (.tables items) => some (.tables ([] :: items))
    | some _ => none

end Members

mutual

/-- The document that a node stands for. -/
def Node.toTree : Node → Tree
  | .value t => t
  | .table _ ms => .object (membersTrees ms) none
  | .tables items => .array (itemTrees items).reverse none

def membersTrees : List (String × Node) → List (Option String × Tree)
  | [] => []
  | (key, node) :: rest => (some key, node.toTree) :: membersTrees rest

def itemTrees : List (List (String × Node)) → List Tree
  | [] => []
  | ms :: rest => .object (membersTrees ms) none :: itemTrees rest

end

/-- The document that the members of a table stand for. -/
def Members.toTree (members : Members) : Tree :=
  .object (membersTrees members) none

end ReportSql.Toml
