import ReportSql.Json.Number

/-!
# Values of a document

The values that JSON text stands for. An object is a list of named members; `ofMembers` puts them
in the order of their names and keeps the last of several members of one name, which is the form
that objects read from text have.
-/

namespace ReportSql.Json

/-- A value of a document. -/
inductive Value where
  | null
  | bool (b : Bool)
  | number (n : Number)
  | string (s : String)
  | array (items : List Value)
  | object (members : List (String × Value))

namespace Value

instance : Inhabited Value := ⟨null⟩

mutual

/-- Equality of values can be decided. -/
def decEq : (a b : Value) → Decidable (a = b)
  | null, null => isTrue rfl
  | bool a, bool b =>
    if h : a = b then isTrue (h ▸ rfl) else isFalse fun e => by cases e; exact h rfl
  | number a, number b =>
    if h : a = b then isTrue (h ▸ rfl) else isFalse fun e => by cases e; exact h rfl
  | string a, string b =>
    if h : a = b then isTrue (h ▸ rfl) else isFalse fun e => by cases e; exact h rfl
  | array a, array b =>
    match decEqItems a b with
    | isTrue h => isTrue (h ▸ rfl)
    | isFalse h => isFalse fun e => by cases e; exact h rfl
  | object a, object b =>
    match decEqMembers a b with
    | isTrue h => isTrue (h ▸ rfl)
    | isFalse h => isFalse fun e => by cases e; exact h rfl
  | null, bool _ | null, number _ | null, string _ | null, array _ | null, object _
  | bool _, null | bool _, number _ | bool _, string _ | bool _, array _ | bool _, object _
  | number _, null | number _, bool _ | number _, string _ | number _, array _
  | number _, object _
  | string _, null | string _, bool _ | string _, number _ | string _, array _
  | string _, object _
  | array _, null | array _, bool _ | array _, number _ | array _, string _ | array _, object _
  | object _, null | object _, bool _ | object _, number _ | object _, string _
  | object _, array _ => isFalse nofun

def decEqItems : (a b : List Value) → Decidable (a = b)
  | [], [] => isTrue rfl
  | [], _ :: _ | _ :: _, [] => isFalse nofun
  | x :: a, y :: b =>
    match decEq x y, decEqItems a b with
    | isTrue h, isTrue k => isTrue (h ▸ k ▸ rfl)
    | isFalse h, _ => isFalse fun e => by cases e; exact h rfl
    | _, isFalse k => isFalse fun e => by cases e; exact k rfl

def decEqMembers : (a b : List (String × Value)) → Decidable (a = b)
  | [], [] => isTrue rfl
  | [], _ :: _ | _ :: _, [] => isFalse nofun
  | (n, x) :: a, (m, y) :: b =>
    if h : n = m then
      match decEq x y, decEqMembers a b with
      | isTrue k, isTrue l => isTrue (h ▸ k ▸ l ▸ rfl)
      | isFalse k, _ => isFalse fun e => by cases e; exact k rfl
      | _, isFalse l => isFalse fun e => by cases e; exact l rfl
    else isFalse fun e => by cases e; exact h rfl

end

instance : DecidableEq Value := decEq

/-- Adds a member at the place of its name, or replaces the member of that name. -/
def insertMember (name : String) (v : Value) :
    List (String × Value) → List (String × Value)
  | [] => [(name, v)]
  | (n, w) :: rest =>
    if name < n then (name, v) :: (n, w) :: rest
    else if name = n then (name, v) :: rest
    else (n, w) :: insertMember name v rest

/-- The object of the given members: in the order of their names, the last one of a name kept. -/
def ofMembers (members : List (String × Value)) : Value :=
  object (members.foldl (fun acc m => insertMember m.1 m.2 acc) [])

/-- The member of the given name, if the value is an object that has one. -/
def get? (name : String) : Value → Option Value
  | object members => (members.find? (·.1 == name)).map (·.2)
  | _ => none

def isNull : Value → Bool
  | null => true
  | _ => false

/-- Is the value a plain one: a truth value, a number or a text? -/
def isScalar : Value → Bool
  | bool _ | number _ | string _ => true
  | null | array _ | object _ => false

/-- The text that a value holds. -/
def text? : Value → Option String
  | string s => some s
  | _ => none

/-- The elements that a value holds. -/
def items? : Value → Option (List Value)
  | array items => some items
  | _ => none

/-- The double nearest to the value, when it is a number. -/
def double? : Value → Option Decimal.Double
  | number n => some n.toDouble
  | _ => none

/-! ## Building values -/

def ofInt64 (n : Int64) : Value :=
  number (.integer (.ofInt64 n))

def ofUInt64 (n : UInt64) : Value :=
  number (.integer (.ofUInt64 n))

/-- A count of things in memory; beyond a word it cannot occur. -/
def ofNat (n : Nat) : Value :=
  ofUInt64 (.ofNat n)

end Value

end ReportSql.Json
