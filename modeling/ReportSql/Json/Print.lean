import ReportSql.Json.Value

/-!
# Writing documents

`Value.compact` writes a value on one line without spaces, `Value.pretty` with one member or
element a line, indented by two spaces a level.
-/

namespace ReportSql.Json

/-- A digit of a character code. -/
def hexDigit (n : Nat) : Char :=
  if n < 10 then Char.ofNat (n + '0'.toNat) else Char.ofNat (n - 10 + 'a'.toNat)

/-- A character inside a quoted text. Only quotes, backslashes and control characters below the
space are escaped. -/
def escapeChar (c : Char) : List Char :=
  if c == '"' then ['\\', '"']
  else if c == '\\' then ['\\', '\\']
  else if c == '\x08' then ['\\', 'b']
  else if c == '\x0c' then ['\\', 'f']
  else if c == '\n' then ['\\', 'n']
  else if c == '\r' then ['\\', 'r']
  else if c == '\t' then ['\\', 't']
  else if c.toNat < 0x20 then
    ['\\', 'u', '0', '0', hexDigit (c.toNat / 16), hexDigit (c.toNat % 16)]
  else [c]

/-- A text in quotes. -/
def quote (s : String) : List Char :=
  '"' :: s.toList.flatMap escapeChar ++ ['"']

namespace Value

/-- A line end and the indentation of a level. -/
def newLine (level : Nat) : List Char :=
  '\n' :: List.replicate (2 * level) ' '

mutual

/-- The value on one line. -/
def compact : Value → List Char
  | null => ['n', 'u', 'l', 'l']
  | bool true => ['t', 'r', 'u', 'e']
  | bool false => ['f', 'a', 'l', 's', 'e']
  | number n => n.text
  | string s => quote s
  | array items => '[' :: compactItems true items ++ [']']
  | object members => '\x7b' :: compactMembers true members ++ ['\x7d']

/-- The elements, each but the first after a comma. -/
def compactItems (first : Bool) : List Value → List Char
  | [] => []
  | v :: rest => (if first then [] else [',']) ++ compact v ++ compactItems false rest

/-- The members, each but the first after a comma. -/
def compactMembers (first : Bool) : List (String × Value) → List Char
  | [] => []
  | (name, v) :: rest =>
    (if first then [] else [',']) ++ quote name ++ ':' :: compact v ++ compactMembers false rest

end

mutual

/-- The value over several lines, its first line at the given level. -/
def prettyAt (level : Nat) : Value → List Char
  | null => ['n', 'u', 'l', 'l']
  | bool true => ['t', 'r', 'u', 'e']
  | bool false => ['f', 'a', 'l', 's', 'e']
  | number n => n.text
  | string s => quote s
  | array [] => ['[', ']']
  | array (v :: rest) =>
    '[' :: newLine (level + 1) ++ prettyAt (level + 1) v ++ prettyItems (level + 1) rest ++
      newLine level ++ [']']
  | object [] => ['\x7b', '\x7d']
  | object ((name, v) :: rest) =>
    '\x7b' :: newLine (level + 1) ++ quote name ++ ':' :: ' ' :: prettyAt (level + 1) v ++
      prettyMembers (level + 1) rest ++ newLine level ++ ['\x7d']

/-- Further elements, each after a comma and on a line of its own. -/
def prettyItems (level : Nat) : List Value → List Char
  | [] => []
  | v :: rest => ',' :: newLine level ++ prettyAt level v ++ prettyItems level rest

/-- Further members, each after a comma and on a line of its own. -/
def prettyMembers (level : Nat) : List (String × Value) → List Char
  | [] => []
  | (name, v) :: rest =>
    ',' :: newLine level ++ quote name ++ ':' :: ' ' :: prettyAt level v ++
      prettyMembers level rest

end

/-- The text of the value on one line. -/
def compactText (v : Value) : String :=
  .ofList v.compact

/-- The text of the value over several lines. -/
def prettyText (v : Value) : String :=
  .ofList (v.prettyAt 0)

end Value

end ReportSql.Json
