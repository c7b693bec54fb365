import ReportSql.Json.Value

/-!
# Document trees

A tree is a document as far as its text can be followed. A fault in the text stays in the tree as
a broken leaf or as the missing end of a list, so that whoever reads the tree meets the faults in
the order of the text, together with places that hold a value of the wrong kind. What is skipped
is followed less closely than what is read: unpaired surrogates and numbers out of range pass.
-/

namespace ReportSql.Json

/-- What can be wrong with a document. -/
inductive Fault where
  /-- The text breaks the rules of the format. -/
  | malformed
  /-- The text ends too early. -/
  | unfinished
  /-- The text is well formed but holds something else than is asked for. -/
  | mismatch
  deriving DecidableEq

/-- Where a text cannot be followed further: the fault met by one who reads the place, by one who
skips it, and by one who expects a single name with a value between the braces around it. -/
structure Break where
  whenRead : Fault
  whenSkipped : Fault
  whenSingle : Fault
  deriving DecidableEq

namespace Break

/-- The text ends here. -/
def ended : Break :=
  ⟨.unfinished, .unfinished, .unfinished⟩

/-- Something else stands here than the format allows. -/
def wrong : Break :=
  ⟨.malformed, .malformed, .malformed⟩

/-- The text breaks off here in a way that one who skips the place may see in another light. -/
def partly (whenRead whenSkipped : Fault) : Break :=
  ⟨whenRead, whenSkipped, whenRead⟩

end Break

/-- A document as far as it can be followed. -/
inductive Tree where
  | null
  | bool (b : Bool)
  | number (n : Numeral)
  /-- A number that is known without its digits. -/
  | integer (n : Integer)
  | real (x : Decimal.Binary64)
  /-- A text; `none` when it holds an unpaired surrogate. -/
  | string (s : Option String)
  | array (items : List Tree) (close : Option Break)
  | object (members : List (Option String × Tree)) (close : Option Break)
  /-- A value that is of no kind known to a document. -/
  | foreign
  | broken (b : Break)

namespace Tree

/-- The number that a tree holds. -/
def number? : Tree → Option Number
  | number n => n.number?
  | integer n => some (.integer n)
  | real x => some (.real x)
  | _ => none

/-- The fault of a tree that is of the wrong kind: a leaf is read before that is noticed. -/
def misfit : Tree → Fault
  | number n => if n.number?.isNone then .malformed else .mismatch
  | string none => .malformed
  | broken b => b.whenRead
  | _ => .mismatch

mutual

/-- A value as a tree without faults. -/
def ofValue : Value → Tree
  | .null => null
  | .bool b => bool b
  | .number (.integer n) => integer n
  | .number (.real x) => real x
  | .string s => string (some s)
  | .array items => array (ofItems items) none
  | .object members => object (ofMembers members) none

def ofItems : List Value → List Tree
  | [] => []
  | v :: rest => ofValue v :: ofItems rest

def ofMembers : List (String × Value) → List (Option String × Tree)
  | [] => []
  | (name, v) :: rest => (some name, ofValue v) :: ofMembers rest

end

end Tree

/-! ## Following a text -/

/-- Blanks between the parts of a document. -/
def isSpace (c : Char) : Bool :=
  c == ' ' || c == '\n' || c == '\t' || c == '\r'

def skipSpace (s : List Char) : List Char :=
  s.dropWhile isSpace

/-- What was followed, and the text behind it unless the text broke off. -/
structure Followed (α : Type) where
  value : α
  rest : Option (List Char)

/-- The value of a decimal digit. -/
def digitValue (c : Char) : Nat :=
  c.toNat - '0'.toNat

/-- The digits that a text starts with. -/
def leadingDigits (s : List Char) : List Nat × List Char :=
  ((s.takeWhile Char.isDigit).map digitValue, s.dropWhile Char.isDigit)

/-- The digits that must stand here; one who skips them takes an early end for a wrong sign. -/
def requiredDigits (s : List Char) : Except Break (List Nat × List Char) :=
  match leadingDigits s with
  | ([], []) => .error (.partly .unfinished .malformed)
  | ([], _ :: _) => .error .wrong
  | found => .ok found

/-- The digits before the point: a zero alone, or digits that start with another one. -/
def wholeDigits (s : List Char) : Except Break (List Nat × List Char) := do
  let (ds, rest) ← requiredDigits s
  if ds.head? == some 0 && decide (1 < ds.length) then .error .wrong else .ok (ds, rest)

/-- The point and the digits behind it, if a point stands here. -/
def fractionDigits : List Char → Except Break (Option (List Nat) × List Char)
  | '.' :: s => do
    let (ds, rest) ← requiredDigits s
    .ok (some ds, rest)
  | s => .ok (none, s)

/-- The exponent, if its mark stands here. -/
def exponentDigits : List Char → Except Break (Option (Bool × List Nat) × List Char)
  | c :: s =>
    if c == 'e' || c == 'E' then do
      let (negative, digits) :=
        match s with
        | '-' :: t => (true, t)
        | '+' :: t => (false, t)
        | _ => (false, s)
      let (ds, rest) ← requiredDigits digits
      .ok (some (negative, ds), rest)
    else .ok (none, c :: s)
  | [] => .ok (none, [])

/-- The number that stands here. -/
def followNumber (negative : Bool) (s : List Char) : Followed Tree :=
  let parts : Except Break (Numeral × List Char) := do
    let (whole, s) ← wholeDigits s
    let (fraction, s) ← fractionDigits s
    let (exponent, s) ← exponentDigits s
    .ok (⟨negative, whole, fraction, exponent⟩, s)
  match parts with
  | .ok (n, rest) => ⟨.number n, some rest⟩
  | .error b => ⟨.broken b, none⟩

/-- The value of a hexadecimal digit. -/
def hexValue? (c : Char) : Option Nat :=
  if c.isDigit then some (c.toNat - '0'.toNat)
  else if 'a' ≤ c ∧ c ≤ 'f' then some (c.toNat - 'a'.toNat + 10)
  else if 'A' ≤ c ∧ c ≤ 'F' then some (c.toNat - 'A'.toNat + 10)
  else none

/-- The four hexadecimal digits of a character escape. A text ends too early for them if fewer than
four bytes of it are left. -/
def hexUnit : List Char → Except Fault (Nat × List Char)
  | a :: b :: c :: d :: rest =>
    match hexValue? a, hexValue? b, hexValue? c, hexValue? d with
    | some a, some b, some c, some d => .ok (((a * 16 + b) * 16 + c) * 16 + d, rest)
    | _, _, _, _ => .error .malformed
  | s => .error (if (String.ofList s).utf8ByteSize < 4 then .unfinished else .malformed)

/-- A 16-bit unit or a character of a quoted text. -/
inductive TextPart where
  | char (c : Char)
  | unit (n : Nat)

/-- The parts of a quoted text up to its closing quote, with at most as many steps as `fuel`. -/
def textParts : Nat → List Char → List TextPart × Except Fault (List Char)
  | 0, _ => ([], .error .unfinished)
  | _ + 1, [] => ([], .error .unfinished)
  | fuel + 1, c :: s =>
    let next (p : TextPart) (rest : List Char) :=
      let (parts, final) := textParts fuel rest
      (p :: parts, final)
    if c == '"' then ([], .ok s)
    else if c == '\\' then
      match s with
      | [] => ([], .error .unfinished)
      | 'u' :: t =>
        match hexUnit t with
        | .ok (n, rest) => next (.unit n) rest
        | .error f => ([], .error f)
      | e :: t =>
        if e == '"' || e == '\\' || e == '/' then next (.char e) t
        else if e == 'b' then next (.char '\x08') t
        else if e == 'f' then next (.char '\x0c') t
        else if e == 'n' then next (.char '\n') t
        else if e == 'r' then next (.char '\r') t
        else if e == 't' then next (.char '\t') t
        else ([], .error .malformed)
    else if c.toNat < 0x20 then ([], .error .malformed)
    else next (.char c) s

/-- Is the unit the first of a pair of surrogates? -/
def isLeading (n : Nat) : Bool :=
  decide (0xD800 ≤ n) && decide (n < 0xDC00)

/-- The text of the parts, pairs of surrogates joined; `none` when a surrogate has no partner. -/
def joinParts : List TextPart → Option (List Char)
  | [] => some []
  | .char c :: rest => (joinParts rest).map (c :: ·)
  | .unit n :: rest =>
    if isLeading n then
      match rest with
      | .unit m :: more =>
        if 0xDC00 ≤ m ∧ m < 0xE000 then
          (joinParts more).map (Char.ofNat (0x10000 + (n - 0xD800) * 0x400 + (m - 0xDC00)) :: ·)
        else none
      | _ => none
    else if 0xDC00 ≤ n ∧ n < 0xE000 then none
    else (joinParts rest).map (Char.ofNat n :: ·)

/-- The parts without a leading surrogate at their end, whose partner was still to come. -/
def settledParts (parts : List TextPart) : List TextPart :=
  match parts.getLast? with
  | some (.unit n) => if isLeading n then parts.dropLast else parts
  | _ => parts

/-- The quoted text whose opening quote has been passed: its content and what follows. -/
def followText (s : List Char) : Except Break (Option String × List Char) :=
  match textParts (s.length + 1) s with
  | (parts, .ok rest) => .ok ((joinParts parts).map String.ofList, rest)
  | (parts, .error f) =>
    -- One who reads the text meets an unpaired surrogate before a fault further on.
    match joinParts (settledParts parts) with
    | none => .error (.partly .malformed f)
    | some _ => .error (.partly f f)

/-- The rest of a word such as `null` after its first letter. -/
def followWord (word : List Char) (t : Tree) (s : List Char) : Followed Tree :=
  match word, s with
  | [], s => ⟨t, some s⟩
  | _ :: _, [] => ⟨.broken .ended, none⟩
  | w :: word, c :: s => if c == w then followWord word t s else ⟨.broken .wrong, none⟩

mutual

/-- The value that stands here. Each step passes at least one character, so that `fuel` beyond the
length of the text is never used up. -/
def followValue : Nat → List Char → Followed Tree
  | 0, _ => ⟨.broken .ended, none⟩
  | fuel + 1, s =>
    match skipSpace s with
    | [] => ⟨.broken .ended, none⟩
    | c :: s =>
      if c == 'n' then followWord ['u', 'l', 'l'] .null s
      else if c == 't' then followWord ['r', 'u', 'e'] (.bool true) s
      else if c == 'f' then followWord ['a', 'l', 's', 'e'] (.bool false) s
      else if c == '-' then followNumber true s
      else if c.isDigit then followNumber false (c :: s)
      else if c == '"' then
        match followText s with
        | .ok (content, rest) => ⟨.string content, some rest⟩
        | .error b => ⟨.broken b, none⟩
      else if c == '[' then
        let list := followItems fuel true s
        ⟨.array list.value.1 list.value.2, list.rest⟩
      else if c == '\x7b' then
        let list := followMembers fuel true s
        ⟨.object list.value.1 list.value.2, list.rest⟩
      else ⟨.broken .wrong, none⟩

/-- The elements up to the closing bracket; `first` right after the opening one. -/
def followItems : Nat → Bool → List Char → Followed (List Tree × Option Break)
  | 0, _, _ => ⟨([], some .ended), none⟩
  | fuel + 1, first, s =>
    let element (s : List Char) : Followed (List Tree × Option Break) :=
      let item := followValue fuel s
      match item.rest with
      | none => ⟨([item.value], none), none⟩
      | some rest =>
        let more := followItems fuel false rest
        ⟨(item.value :: more.value.1, more.value.2), more.rest⟩
    match skipSpace s with
    | [] => ⟨([], some .ended), none⟩
    | ']' :: rest => ⟨([], none), some rest⟩
    | c :: rest =>
      if first then element (c :: rest)
      else if c == ',' then
        match skipSpace rest with
        | ']' :: _ => ⟨([], some .wrong), none⟩
        | t => element t
      else ⟨([], some .wrong), none⟩

/-- The members up to the closing brace; `first` right after the opening one. -/
def followMembers : Nat → Bool → List Char → Followed (List (Option String × Tree) × Option Break)
  | 0, _, _ => ⟨([], some .ended), none⟩
  | fuel + 1, first, s =>
    let member (s : List Char) : Followed (List (Option String × Tree) × Option Break) :=
      match s with
      | [] => ⟨([], some .ended), none⟩
      | '"' :: s =>
        match followText s with
        | .error b => ⟨([], some b), none⟩
        | .ok (name, rest) =>
          match skipSpace rest with
          | [] => ⟨([(name, .broken .ended)], none), none⟩
          | ':' :: rest =>
            let item := followValue fuel rest
            match item.rest with
            | none => ⟨([(name, item.value)], none), none⟩
            | some rest =>
              let more := followMembers fuel false rest
              ⟨((name, item.value) :: more.value.1, more.value.2), more.rest⟩
          | _ => ⟨([(name, .broken .wrong)], none), none⟩
      -- One who expects a single name reads what stands here before finding that it is none.
      | s => ⟨([], some { Break.wrong with whenSingle := (followValue fuel s).value.misfit }), none⟩
    match skipSpace s with
    | [] => ⟨([], some .ended), none⟩
    | '\x7d' :: rest => ⟨([], none), some rest⟩
    | c :: rest =>
      if first then member (c :: rest)
      else if c == ',' then
        let more := member (skipSpace rest)
        -- One who expects a single name goes no further than the comma.
        ⟨(more.value.1, more.value.2.map fun b => { b with whenSingle := .malformed }), more.rest⟩
      else ⟨([], some .wrong), none⟩

end

/-- A whole text: its tree, and whether anything but blanks follows the value. -/
structure Document where
  tree : Tree
  trailing : Bool

/-- Follows a text to its end or its first break. -/
def Document.ofText (text : String) : Document :=
  let s := text.toList
  let followed := followValue (s.length + 1) s
  ⟨followed.value, followed.rest.any fun rest => !(skipSpace rest).isEmpty⟩

end ReportSql.Json
