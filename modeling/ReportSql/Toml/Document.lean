import ReportSql.Json.Read
import ReportSql.Toml.Scalar
import ReportSql.Toml.Table

/-!
# Settings documents

Documents in TOML 1.1: lines that give values to keys, under headers that say which table the keys
belong to. A document is read whole or not at all.
-/

namespace ReportSql.Toml

open ReportSql.Json (Tree Reader Origin)

/-- The levels that lists and tables inside a value may be nested. -/
def maxNesting : Nat :=
  80

/-! ## Values

Every step passes at least one character, so that `fuel` beyond the length of the text is never used
up. -/

mutual

/-- The value that starts here. -/
def value? : Nat → Nat → List Char → Option (Tree × List Char)
  | 0, _, _ => none
  | fuel + 1, depth, s =>
    match s with
    | '[' :: s =>
      match depth with
      | 0 => none
      | depth + 1 => (items? fuel depth s).map fun (items, s) => (.array items none, s)
    | '\x7b' :: s =>
      match depth with
      | 0 => none
      | depth + 1 => (inlineMembers? fuel depth [] s).map fun (ms, s) => (ms.toTree, s)
    | '"' :: _ | '\x27' :: _ => (quotedText? s).map fun (text, s) => (.string (some text), s)
    | _ => scalar? s

/-- The elements up to the closing bracket; blanks, comments and line ends may stand around them. -/
def items? : Nat → Nat → List Char → Option (List Tree × List Char)
  | 0, _, _ => none
  | fuel + 1, depth, s => do
    match (← skipLines (s.length + 1) s) with
    | ']' :: s => some ([], s)
    | s => do
      let (item, s) ← value? fuel depth s
      match (← skipLines (s.length + 1) s) with
      | ',' :: s => do
        let (items, s) ← items? fuel depth s
        some (item :: items, s)
      | ']' :: s => some ([item], s)
      | _ => none

/-- The members up to the closing brace, after those in `members`; blanks, comments and line ends
may stand around keys and values. -/
def inlineMembers? : Nat → Nat → Members → List Char → Option (Members × List Char)
  | 0, _, _, _ => none
  | fuel + 1, depth, members, s => do
    match (← skipLines (s.length + 1) s) with
    | '\x7d' :: s => some (members, s)
    | s => do
      let (path, s) ← keyPath? (s.length + 1) s
      match (← skipLines (s.length + 1) s) with
      | '=' :: s => do
        let (t, s) ← value? fuel depth (← skipLines (s.length + 1) s)
        let members ← members.addAt (.value t) path
        match (← skipLines (s.length + 1) s) with
        | ',' :: s => inlineMembers? fuel depth members s
        | '\x7d' :: s => some (members, s)
        | _ => none
      | _ => none

end

/-! ## Lines -/

/-- A document under way: its tables, and the keys of the header that the lines are under. -/
structure Draft where
  root : Members
  header : List String

/-- The keys of a header up to its closing brackets, and the text behind them. -/
def headerPath? (closing : List Char) (s : List Char) : Option (List String × List Char) := do
  let (path, s) ← keyPath? (s.length + 1) s
  if closing.isPrefixOf s then some (path, s.drop closing.length) else none

/-- Opens what a header names, by the given way of opening the last of its keys. -/
def Draft.openHeader (d : Draft) (how : String → Members → Option Members)
    (path : List String) : Option Draft := do
  let key ← path.getLast?
  let root ← Members.changeAt (how key) path.dropLast d.root
  some ⟨root, path⟩

/-- Gives a value to a key under the header. -/
def Draft.add (d : Draft) (path : List String) (t : Tree) : Option Draft := do
  let root ← Members.changeAt (Members.addAt (.value t) path) d.header d.root
  some ⟨root, d.header⟩

/-- Follows the line that starts here, up to its end. -/
def Draft.line? (d : Draft) : List Char → Option (Draft × List Char)
  | '[' :: '[' :: s => do
    let (path, s) ← headerPath? [']', ']'] s
    let d ← d.openHeader Members.openItem path
    some (d, s)
  | '[' :: s => do
    let (path, s) ← headerPath? [']'] s
    let d ← d.openHeader Members.openTable path
    some (d, s)
  | s => do
    let (path, s) ← keyPath? (s.length + 1) s
    match s with
    | '=' :: s => do
      let (t, s) ← value? (s.length + 1) maxNesting (skipBlanks s)
      let d ← d.add path t
      some (d, s)
    | _ => none

/-- Follows lines to the end of the text; each passes at least one character. -/
def Draft.lines? : Nat → Draft → List Char → Option Draft
  | 0, _, _ => none
  | fuel + 1, d, s => do
    match (← skipLines (s.length + 1) s) with
    | [] => some d
    | s => do
      let (d, s) ← d.line? s
      let s ← finishLine s
      Draft.lines? fuel d s

/-- The text without the mark that may stand at the start of a file. -/
def withoutMark : List Char → List Char
  | '\uFEFF' :: s => s
  | s => s

/-- The document that a text holds. -/
def ofText? (text : String) : Option Tree :=
  let s := withoutMark text.toList
  (Draft.lines? (s.length + 1) ⟨[], []⟩ s).map fun d => d.root.toTree

/-- Reads a document; nothing if it is not well formed or not what is asked for. -/
def read? {α : Type} (reader : Reader α) (text : String) : Option α := do
  let t ← ofText? text
  (reader Origin.tables (text.length + 1) t).toOption

end ReportSql.Toml
