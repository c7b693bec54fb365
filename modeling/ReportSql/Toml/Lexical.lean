import ReportSql.Json.Tree

/-!
# Words of settings documents

Blanks, comments, keys and quoted texts of TOML. Each reader answers what it read and the text
behind it, or nothing where the text breaks the rules.
-/

namespace ReportSql.Toml

/-- Blanks inside a line. -/
def isBlank (c : Char) : Bool :=
  c == ' ' || c == '\t'

def skipBlanks (s : List Char) : List Char :=
  s.dropWhile isBlank

/-- Control characters, which may stand neither in comments nor in texts. -/
def isControl (c : Char) : Bool :=
  (decide (c.toNat < 0x20) && c != '\t') || c.toNat == 0x7F

/-- The text behind a line end. -/
def lineEnd? : List Char → Option (List Char)
  | '\n' :: s => some s
  | '\r' :: '\n' :: s => some s
  | _ => none

/-- The rest of a comment: the text from the line end on. -/
def skipComment : List Char → Option (List Char)
  | [] => some []
  | c :: s =>
    if (lineEnd? (c :: s)).isSome then some (c :: s)
    else if isControl c then none
    else skipComment s

/-- The end of a line that nothing but a comment follows on. -/
def finishLine (s : List Char) : Option (List Char) := do
  let s ←
    match skipBlanks s with
    | '#' :: s => skipComment s
    | s => some s
  match s with
  | [] => some []
  | s => lineEnd? s

/-- Passes blanks, line ends and comments, with at most `fuel` steps; a step passes at least one
character. -/
def skipLines : Nat → List Char → Option (List Char)
  | 0, _ => none
  | fuel + 1, s =>
    match skipBlanks s with
    | '#' :: s => (skipComment s).bind (skipLines fuel)
    | s =>
      match lineEnd? s with
      | some s => skipLines fuel s
      | none => some s

/-! ## Quoted texts -/

/-- The character of a number of hexadecimal digits. -/
def codePoint? (digits : Nat) (s : List Char) : Option (Char × List Char) := do
  let ds := s.take digits
  if ds.length < digits then none
  else
    let n ← ds.foldlM (fun n c => (Json.hexValue? c).map (n * 16 + ·)) 0
    if n.isValidChar then some (.ofNat n, s.drop digits) else none

/-- The character that an escape stands for, the backslash passed. -/
def escape? : List Char → Option (Char × List Char)
  | 'b' :: s => some ('\x08', s)
  | 'e' :: s => some ('\x1b', s)
  | 't' :: s => some ('\t', s)
  | 'n' :: s => some ('\n', s)
  | 'f' :: s => some ('\x0c', s)
  | 'r' :: s => some ('\r', s)
  | '"' :: s => some ('"', s)
  | '\\' :: s => some ('\\', s)
  | 'x' :: s => codePoint? 2 s
  | 'u' :: s => codePoint? 4 s
  | 'U' :: s => codePoint? 8 s
  | _ => none

/-- The rest of a text between double quotes. -/
def basicText : Nat → List Char → Option (List Char × List Char)
  | 0, _ => none
  | _, [] => none
  | _ + 1, '"' :: s => some ([], s)
  | fuel + 1, '\\' :: s => do
    let (c, s) ← escape? s
    let (cs, s) ← basicText fuel s
    some (c :: cs, s)
  | fuel + 1, c :: s =>
    if isControl c then none
    else do
      let (cs, s) ← basicText fuel s
      some (c :: cs, s)

/-- The rest of a text between single quotes. -/
def literalText : List Char → Option (List Char × List Char)
  | [] => none
  | '\x27' :: s => some ([], s)
  | c :: s =>
    if isControl c then none
    else do
      let (cs, s) ← literalText s
      some (c :: cs, s)

/-- The quotes at the end of a text of several lines: three close it, and up to two before them
belong to it. Answers how many belong to it. -/
def closing? (quote : Char) (s : List Char) : Option (Nat × List Char) :=
  let n := (s.takeWhile (· == quote)).length
  if n < 3 then none
  else
    let inside := min (n - 3) 2
    some (inside, s.drop (inside + 3))

/-- Passes blanks and line ends. -/
def skipBlankLines : List Char → List Char
  | '\r' :: '\n' :: s => skipBlankLines s
  | c :: s => if isBlank c || c == '\n' then skipBlankLines s else c :: s
  | [] => []

/-- A line end that a backslash hides, with the blanks around it and all lines that are blank. -/
def hiddenLineEnd? (s : List Char) : Option (List Char) :=
  (lineEnd? (skipBlanks s)).map skipBlankLines

/-- The rest of a text of several lines between double quotes. -/
def basicLines : Nat → List Char → Option (List Char × List Char)
  | 0, _ => none
  | _, [] => none
  | fuel + 1, c :: s =>
    let more (c : Char) (s : List Char) : Option (List Char × List Char) := do
      let (cs, s) ← basicLines fuel s
      some (c :: cs, s)
    match closing? '"' (c :: s) with
    | some (inside, s) => some (List.replicate inside '"', s)
    | none =>
      if c == '\\' then
        match hiddenLineEnd? s with
        | some s => basicLines fuel s
        | none => (escape? s).bind fun (c, s) => more c s
      else if (lineEnd? (c :: s)).isSome || !isControl c then more c s
      else none

/-- The rest of a text of several lines between single quotes. -/
def literalLines : List Char → Option (List Char × List Char)
  | [] => none
  | c :: s =>
    match closing? '\x27' (c :: s) with
    | some (inside, s) => some (List.replicate inside '\x27', s)
    | none =>
      if (lineEnd? (c :: s)).isSome || !isControl c then do
        let (cs, s) ← literalLines s
        some (c :: cs, s)
      else none

/-- A line end at the start of a text of several lines is no part of it. -/
def skipFirstLineEnd (s : List Char) : List Char :=
  (lineEnd? s).getD s

/-- The text that starts here, if one does. -/
def quotedText? : List Char → Option (String × List Char)
  | '"' :: '"' :: '"' :: s =>
    (basicLines (s.length + 1) (skipFirstLineEnd s)).map fun (cs, s) => (.ofList cs, s)
  | '\x27' :: '\x27' :: '\x27' :: s =>
    (literalLines (skipFirstLineEnd s)).map fun (cs, s) => (.ofList cs, s)
  | '"' :: s => (basicText (s.length + 1) s).map fun (cs, s) => (.ofList cs, s)
  | '\x27' :: s => (literalText s).map fun (cs, s) => (.ofList cs, s)
  | _ => none

/-! ## Keys -/

def isKeyChar (c : Char) : Bool :=
  c.isAlphanum || c == '_' || c == '-'

/-- A key: a word, or a text on one line. -/
def key? : List Char → Option (String × List Char)
  | '"' :: s => (basicText (s.length + 1) s).map fun (cs, s) => (.ofList cs, s)
  | '\x27' :: s => (literalText s).map fun (cs, s) => (.ofList cs, s)
  | s =>
    let cs := s.takeWhile isKeyChar
    if cs.isEmpty then none else some (.ofList cs, s.dropWhile isKeyChar)

/-- Keys with points between them; blanks around them are passed. -/
def keyPath? : Nat → List Char → Option (List String × List Char)
  | 0, _ => none
  | fuel + 1, s => do
    let (key, s) ← key? (skipBlanks s)
    match skipBlanks s with
    | '.' :: s => do
      let (path, s) ← keyPath? fuel s
      some (key :: path, s)
    | s => some ([key], s)

end ReportSql.Toml
