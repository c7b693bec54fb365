import ReportSql.Json.Tree

/-!
# Reading documents

A reader says how a tree is understood as a value of a type. Readers of records are put together
from readers of members with `<*>`; a record may be given as an object, in which unknown members
are skipped and no known one may be repeated, or as a list of its members in their order.

Faults are met in the order of the text. A tree that comes from a text differs in two places from
one that comes from a value: where elements are left over in a list and where something else than
a text or an object stands for a name, the text is malformed, but the value is a mismatch.
-/

namespace ReportSql.Json

/-- Where a tree comes from, as far as the kind of its faults depends on it. -/
structure Origin where
  /-- A list holds more elements than its record has members; where that is no fault, they are
  passed over. -/
  surplus : Option Fault
  /-- Neither a text nor an object stands where a name is asked for. -/
  unnamed : Fault
  /-- Does the tree stand for nothing beside a name? -/
  isNothing : Tree → Bool

namespace Tree

def isNull : Tree → Bool
  | null => true
  | _ => false

def isEmptyList : Tree → Bool
  | array [] none => true
  | _ => false

def isEmptyObject : Tree → Bool
  | object [] none => true
  | _ => false

end Tree

namespace Origin

/-- A text that is followed while it is read. -/
def text : Origin :=
  ⟨some .malformed, .malformed, Tree.isNull⟩

/-- A value that has been read before. -/
def value : Origin :=
  ⟨some .mismatch, .mismatch, Tree.isNull⟩

/-- The rest of a value that has been looked at to find its tag. -/
def tagged : Origin :=
  ⟨some .mismatch, .mismatch, fun t => t.isNull || t.isEmptyObject⟩

/-- A document of tables. -/
def tables : Origin :=
  ⟨none, .mismatch, fun t => t.isEmptyList || t.isEmptyObject⟩

end Origin

/-- The levels that lists and objects may be nested. -/
def maxDepth : Nat :=
  127

/-- Understands a tree that may be nested by the given number of levels. -/
abbrev Reader (α : Type) :=
  Origin → Nat → Tree → Except Fault α

namespace Tree

mutual

/-- The value that a tree stands for. -/
def toValue (depth : Nat) : Tree → Except Fault Value
  | null => .ok .null
  | bool b => .ok (.bool b)
  | number n => n.number?.elim (.error .malformed) fun n => .ok (.number n)
  | integer n => .ok (.number (.integer n))
  | real x => .ok (.number (.real x))
  | string s => s.elim (.error .malformed) fun s => .ok (.string s)
  | array items close =>
    match depth with
    | 0 => .error .malformed
    | depth + 1 => do
      let vs ← toItems depth items
      close.elim (.ok (.array vs)) fun b => .error b.whenRead
  | object members close =>
    match depth with
    | 0 => .error .malformed
    | depth + 1 => do
      let vs ← toMembers depth members
      close.elim (.ok (.ofMembers vs)) fun b => .error b.whenRead
  | foreign => .error .mismatch
  | broken b => .error b.whenRead

def toItems (depth : Nat) : List Tree → Except Fault (List Value)
  | [] => .ok []
  | t :: rest => do
    let v ← toValue depth t
    let vs ← toItems depth rest
    .ok (v :: vs)

def toMembers (depth : Nat) : List (Option String × Tree) → Except Fault (List (String × Value))
  | [] => .ok []
  | (none, _) :: _ => .error .malformed
  | (some name, t) :: rest => do
    let v ← toValue depth t
    let vs ← toMembers depth rest
    .ok ((name, v) :: vs)

end

mutual

/-- Passes over a tree. -/
def skip : Tree → Except Fault Unit
  | array items close => do
    skipItems items
    close.elim (.ok ()) fun b => .error b.whenSkipped
  | object members close => do
    skipMembers members
    close.elim (.ok ()) fun b => .error b.whenSkipped
  | broken b => .error b.whenSkipped
  | _ => .ok ()

def skipItems : List Tree → Except Fault Unit
  | [] => .ok ()
  | t :: rest => do
    skip t
    skipItems rest

def skipMembers : List (Option String × Tree) → Except Fault Unit
  | [] => .ok ()
  | (_, t) :: rest => do
    skip t
    skipMembers rest

end

end Tree

/-! ## Leaves -/

namespace Reader

/-- Any value. -/
def value : Reader Value :=
  fun _ depth t => t.toValue depth

def string : Reader String
  | _, _, .string (some s) => .ok s
  | _, _, t => .error t.misfit

def bool : Reader Bool
  | _, _, .bool b => .ok b
  | _, _, t => .error t.misfit

/-- A number of which `f` makes something. -/
def numeric {α : Type} (f : Number → Option α) : Reader α :=
  fun _ _ t =>
    match t.number?.bind f with
    | some a => .ok a
    | none => .error t.misfit

/-- A signed word; a number with a point or an exponent is none. -/
def int64 : Reader Int64 :=
  numeric fun
    | .integer n => n.toInt64?
    | .real _ => none

/-- An unsigned word. -/
def uint64 : Reader UInt64 :=
  numeric fun
    | .integer n => n.toUInt64?
    | .real _ => none

/-- A double; an integer is read as the double nearest to it. -/
def double : Reader Decimal.Binary64 :=
  numeric fun n => n.toDouble.finite?

/-- Nothing, written `null`, or a value. -/
def option {α : Type} (reader : Reader α) : Reader (Option α)
  | _, _, .null => .ok none
  | origin, depth, t => (reader origin depth t).map some

/-- The value made of another one, or a mismatch. -/
def filterMap {α β : Type} (reader : Reader α) (f : α → Option β) : Reader β :=
  fun origin depth t => do
    match f (← reader origin depth t) with
    | some b => .ok b
    | none => .error .mismatch

/-! ## Lists -/

/-- The elements read one after another. -/
def elements {α : Type} (read : Tree → Except Fault α) : List Tree → Except Fault (List α)
  | [] => .ok []
  | t :: rest => do
    let a ← read t
    let as ← elements read rest
    .ok (a :: as)

def list {α : Type} (reader : Reader α) : Reader (List α)
  | _, 0, .array _ _ => .error .malformed
  | origin, depth + 1, .array items close => do
    let as ← elements (reader origin depth) items
    close.elim (.ok as) fun b => .error b.whenRead
  | _, _, t => .error t.misfit

/-- An object of any values. -/
def members : Reader (List (String × Value))
  | _, depth, .object ms close => do
    match (← Tree.toValue depth (.object ms close)) with
    | .object vs => .ok vs
    | _ => .error .mismatch
  | _, _, t => .error t.misfit

/-! ## Names -/

/-- Nothing beside a name. -/
def unit : Reader Unit :=
  fun origin _ t => if origin.isNothing t then .ok () else .error t.misfit

/-- One of the listed names, given as a text or as an object with that one member. -/
def oneOf {α : Type} (names : List (String × α)) : Reader α :=
  fun origin depth t =>
    let named (s : String) : Except Fault α :=
      match names.find? (·.1 == s) with
      | some entry => .ok entry.2
      | none => .error .mismatch
    match t with
    | .string (some s) => named s
    | .string none => .error .malformed
    | .object members close =>
      match depth with
      | 0 => .error .malformed
      | depth + 1 =>
        match members with
        | [] => .error (close.elim origin.unnamed Break.whenSingle)
        | (none, _) :: _ => .error .malformed
        | (some s, t) :: rest => do
          let a ← named s
          unit origin depth t
          match rest, close with
          | [], none => .ok a
          | [], some b => .error b.whenSingle
          | _ :: _, _ => .error origin.unnamed
    | _ => .error origin.unnamed

end Reader

/-! ## Records -/

/-- What has been found of a record: the trees of its members by name. -/
abbrev Slots := List (String × Tree)

/-- A member that a record knows: its name, the check its tree has to pass, and whether it may be
missing. -/
structure Member where
  name : String
  check : Reader Unit
  optional : Bool

/-- How a record is read: the members it knows, in order, and how it is built from their trees. -/
structure RecordReader (α : Type) where
  known : List Member
  build : Origin → Nat → Slots → Except Fault α

namespace RecordReader

instance : Functor RecordReader where
  map f r := ⟨r.known, fun origin depth slots => (r.build origin depth slots).map f⟩

/-- The members of one record after those of another. -/
def seq {α β : Type} (f : RecordReader (α → β)) (a : RecordReader α) : RecordReader β :=
  ⟨f.known ++ a.known, fun origin depth slots => do
    let g ← f.build origin depth slots
    let x ← a.build origin depth slots
    .ok (g x)⟩

instance : Seq RecordReader where
  seq f a := seq f (a ())

/-- The tree found for a member. -/
def slot? (name : String) (slots : Slots) : Option Tree :=
  (slots.find? (·.1 == name)).map (·.2)

/-- Passes the check when the reader accepts the tree. -/
def checkOf {α : Type} (reader : Reader α) : Reader Unit :=
  fun origin depth t => (reader origin depth t).map fun _ => ()

/-- A member that must be there. -/
def field {α : Type} (name : String) (reader : Reader α) : RecordReader α :=
  ⟨[⟨name, checkOf reader, false⟩], fun origin depth slots =>
    match slot? name slots with
    | some t => reader origin depth t
    | none => .error .mismatch⟩

/-- A member with a value for its absence. -/
def fieldOr {α : Type} (name : String) (default : α) (reader : Reader α) : RecordReader α :=
  ⟨[⟨name, checkOf reader, true⟩], fun origin depth slots =>
    match slot? name slots with
    | some t => reader origin depth t
    | none => .ok default⟩

/-- A member that may be missing or `null`. -/
def optional {α : Type} (name : String) (reader : Reader α) : RecordReader (Option α) :=
  fieldOr name none (Reader.option reader)

/-- Collects the members of an object in the order of the text. -/
def collect (known : List Member) (origin : Origin) (depth : Nat) :
    Slots → List (Option String × Tree) → Except Fault Slots
  | slots, [] => .ok slots
  | _, (none, _) :: _ => .error .malformed
  | slots, (some name, t) :: rest =>
    match known.find? (·.name == name) with
    | some m =>
      if (slot? name slots).isSome then .error .mismatch
      else do
        m.check origin depth t
        collect known origin depth (slots ++ [(name, t)]) rest
    | none => do
      t.skip
      collect known origin depth slots rest

/-- Gives the elements of a list to the members in their order. -/
def assign (origin : Origin) (depth : Nat) (close : Option Break) :
    List Member → List Tree → Except Fault Slots
  | [], [] => close.elim (.ok []) fun b => .error b.whenRead
  | [], _ :: _ => origin.surplus.elim (.ok []) .error
  | m :: known, [] =>
    match close with
    | some b => .error b.whenRead
    | none => if m.optional then assign origin depth close known [] else .error .mismatch
  | m :: known, t :: rest => do
    m.check origin depth t
    let slots ← assign origin depth close known rest
    .ok ((m.name, t) :: slots)

/-- The reader of the record. -/
def reader {α : Type} (r : RecordReader α) : Reader α
  | _, 0, .object _ _ => .error .malformed
  | _, 0, .array _ _ => .error .malformed
  | origin, depth + 1, .object members close => do
    let slots ← collect r.known origin depth [] members
    match close with
    | some b => .error b.whenRead
    | none => r.build origin depth slots
  | origin, depth + 1, .array items close => do
    let slots ← assign origin depth close r.known items
    r.build origin depth slots
  | _, _, t => .error t.misfit

end RecordReader

/-! ## Tagged records -/

/-- Finds the tag of a record among its members and keeps the others. -/
def splitTag (tag : String) (isKind : String → Bool) (depth : Nat) :
    Option String → List (Option String × Tree) →
      Except Fault (Option String × List (Option String × Tree))
  | found, [] => .ok (found, [])
  | _, (none, _) :: _ => .error .malformed
  | found, (some name, t) :: rest =>
    if name == tag then
      match found, t with
      | some _, _ => .error .mismatch
      | none, .string (some kind) =>
        if isKind kind then splitTag tag isKind depth (some kind) rest else .error .mismatch
      | none, t => .error t.misfit
    else do
      let _ ← t.toValue depth
      let (kind, others) ← splitTag tag isKind depth found rest
      .ok (kind, (some name, t) :: others)

/-- A record whose kind is named by its member `tag`, or by its first element. -/
def taggedReader {α : Type} (tag : String) (kinds : List (String × RecordReader α)) : Reader α :=
  let isKind (s : String) : Bool := kinds.any (·.1 == s)
  let read (depth : Nat) (kind : String) (others : Tree) : Except Fault α :=
    match kinds.find? (·.1 == kind) with
    | some kind => kind.2.reader Origin.tagged depth others
    | none => .error .mismatch
  fun _ depth t =>
    match depth, t with
    | 0, .object _ _ | 0, .array _ _ => .error .malformed
    | depth + 1, .object members close => do
      match (← splitTag tag isKind depth none members), close with
      | _, some b => .error b.whenRead
      | (some kind, others), none => read (depth + 1) kind (.object others none)
      | (none, _), none => .error .mismatch
    | depth + 1, .array (.string (some kind) :: others) close => do
      if isKind kind then
        let _ ← Tree.toItems depth others
        match close with
        | some b => .error b.whenRead
        | none => read (depth + 1) kind (.array others none)
      else .error .mismatch
    | _ + 1, .array (t :: _) _ => .error t.misfit
    | _ + 1, .array [] close => .error (close.elim Fault.mismatch Break.whenRead)
    | _, t => .error t.misfit

/-! ## Whole documents -/

namespace Document

/-- Reads the whole text: nothing but blanks may follow the value. -/
def read {α : Type} (d : Document) (reader : Reader α) : Except Fault α := do
  let a ← reader Origin.text maxDepth d.tree
  if d.trailing then .error .malformed else .ok a

end Document

/-- Reads a text. -/
def readText {α : Type} (reader : Reader α) (text : String) : Except Fault α :=
  (Document.ofText text).read reader

/-- Reads a value. -/
def readValue {α : Type} (reader : Reader α) (v : Value) : Except Fault α :=
  reader Origin.value maxDepth (.ofValue v)

/-- The value of a text. -/
def Value.ofText? (text : String) : Except Fault Value :=
  readText Reader.value text

end ReportSql.Json
