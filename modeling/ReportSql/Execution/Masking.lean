import ReportSql.Text.Replace

/-!
# Masking messages

A message from a database may tell secrets: addresses of connections, passwords, hosts. Before such
a message is shown they are masked, one kind after the other, and the message is cut.
-/

namespace ReportSql.Execution

open ReportSql.Text

/-- The characters after the first letter of a scheme. -/
def isSchemeChar (c : Char) : Bool :=
  let f := fold c
  ('a' ≤ f && f ≤ 'z') || c.isDigit || c == '+' || c == '.' || c == '-'

/-- The first letter of a scheme. -/
def isSchemeStart (c : Char) : Bool :=
  let f := fold c
  'a' ≤ f && f ≤ 'z'

/-- Finds the address of a connection: a scheme, a colon and two slashes, and what follows up to a
blank. -/
def findConnection : Finder
  | before, c :: s =>
    if startsWord before && isSchemeStart c then
      match s.dropWhile isSchemeChar with
      | ':' :: '/' :: '/' :: rest =>
        let place := rest.takeWhile fun c => !isBlank c
        if place.isEmpty then none
        else
          some ⟨1 + (s.takeWhile isSchemeChar).length + 3 + place.length,
            "[connection]".toList⟩
      | _ => none
    else none
  | _, [] => none

/-- The characters of a value beside a key. -/
def isSecretChar (c : Char) : Bool :=
  !isBlank c && c != ';' && c != ',' && c != '\x27' && c != '"'

/-- The value beside a key, with what stands between them: an equals sign or a colon, and blanks
around it. Answers the length of all that. -/
def assigned? (s : List Char) : Option Nat :=
  match s.dropWhile isBlank with
  | c :: rest =>
    if c == '=' || c == ':' then
      let value := (rest.dropWhile isBlank).takeWhile isSecretChar
      if value.isEmpty then none
      else
        some ((s.takeWhile isBlank).length + 1 + (rest.takeWhile isBlank).length + value.length)
    else none
  | [] => none

/-- Finds one of the keys with a value beside it, and masks the value. -/
def findAssignment (keys : List (List Char)) : Finder :=
  fun before s =>
    if startsWord before then
      keys.findSome? fun key =>
        match (stripWord key s).bind assigned? with
        | some n => some ⟨key.length + n, s.take key.length ++ "=***".toList⟩
        | none => none
    else none

/-- The keys of passwords. -/
def passwordKeys : List (List Char) :=
  ["password".toList, "pwd".toList]

/-- The keys of hosts. -/
def hostKeys : List (List Char) :=
  ["host".toList, "hostaddr".toList, "server".toList]

/-- A group of one to three digits: its length, and what follows. -/
def digitGroup? (s : List Char) : Option (Nat × List Char) :=
  let n := (s.takeWhile isDigit).length
  if 1 ≤ n ∧ n ≤ 3 then some (n, s.dropWhile isDigit) else none

/-- A point and a group of digits. -/
def pointGroup? : List Char → Option (Nat × List Char)
  | '.' :: s => (digitGroup? s).map fun (n, rest) => (n + 1, rest)
  | _ => none

/-- Four groups of digits with points between them. -/
def addressGroups? (s : List Char) : Option (Nat × List Char) := do
  let (a, s) ← digitGroup? s
  let (b, s) ← pointGroup? s
  let (c, s) ← pointGroup? s
  let (d, s) ← pointGroup? s
  some (a + b + c + d, s)

/-- The length of a colon and the number behind it; zero if there is none. -/
def colonNumberLength : List Char → Nat
  | ':' :: s =>
    let n := (s.takeWhile isDigit).length
    if 1 ≤ n && endsWord (s.dropWhile isDigit) then n + 1 else 0
  | _ => 0

/-- Finds a dotted address, and the number behind a colon if there is one. -/
def findAddress : Finder :=
  fun before s =>
    if startsWord before then
      match addressGroups? s with
      | some (n, rest) =>
        if endsWord rest then some ⟨n + colonNumberLength rest, "[address]".toList⟩ else none
      | none => none
    else none

/-- The longest message that is shown, in characters. -/
def maxMessage : Nat :=
  200

/-- The message with all secrets masked. -/
def mask (s : List Char) : List Char :=
  replaceAll findAddress
    (replaceAll (findAssignment hostKeys)
      (replaceAll (findAssignment passwordKeys) (replaceAll findConnection s)))

/-- The message as it may be shown. -/
def sanitize (s : List Char) : List Char :=
  (mask s).take maxMessage

end ReportSql.Execution
