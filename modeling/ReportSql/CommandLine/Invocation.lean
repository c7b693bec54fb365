import ReportSql.Sql.Dialect

/-!
# Command lines

The words of a command line as a command with its flags. Flags are given as `--name value`,
`--name=value` or by a letter; behind the command, all that follows a bare `--` is taken as it is.
The flags that every command takes may also stand before the command.
-/

namespace ReportSql.CommandLine

open ReportSql.Sql (Dialect)

/-- What is printed of a compiled report. -/
inductive Mode where
  /-- The statement. -/
  | sql
  /-- The statement under comments that describe it. -/
  | verbose
  /-- The statement with its values in place. -/
  | inlined
  /-- What is handed over to show the report. -/
  | preview
  /-- What is handed over to run the report. -/
  | execute
  /-- All that is known of the compiled report. -/
  | json
  deriving DecidableEq

/-- Where the text of a statement comes from. -/
inductive SqlSource where
  | text (s : String)
  | file (path : String)
  deriving DecidableEq

inductive Command where
  | compile (file : String) (dialect : Option Dialect) (mode : Mode) (maxLimit : Option UInt64)
  | validate (file : String)
  | checkSql (source : SqlSource)
  | entities
  | path (start target : String)
  deriving DecidableEq

/-- A command with what applies to every command. -/
structure Invocation where
  config : Option String
  catalog : Option String
  command : Command
  deriving DecidableEq

/-! ## Flags -/

inductive Flag where
  | config
  | catalog
  | dialect
  | mode
  | maxLimit
  | file
  deriving DecidableEq

namespace Flag

def ofName? (name : String) : Option Flag :=
  ([("config", config), ("catalog", catalog), ("dialect", dialect), ("mode", mode),
    ("max-limit", maxLimit), ("file", file)].find? (·.1 == name)).map (·.2)

def ofLetter? : Char → Option Flag
  | 'd' => some dialect
  | 'm' => some mode
  | 'f' => some file
  | _ => none

end Flag

/-- What a word of the command line is. -/
inductive Word where
  | plain
  /-- A flag with its value, if that is in the same word. -/
  | flag (f : Flag) (value : Option String)
  | unknown
  deriving DecidableEq

/-- The text behind an equals sign, if the text starts with one. -/
def afterEquals? : List Char → Option String
  | '=' :: s => some (.ofList s)
  | _ => none

def Word.of (s : String) : Word :=
  match s.toList with
  | '-' :: '-' :: s =>
    match Flag.ofName? (.ofList (s.takeWhile (· != '='))) with
    | some f => .flag f (afterEquals? (s.dropWhile (· != '=')))
    | none => .unknown
  | ['-'] => .plain
  | '-' :: letter :: s =>
    match Flag.ofLetter? letter, s with
    | some f, [] => .flag f none
    | some f, s => .flag f (some ((afterEquals? s).getD (.ofList s)))
    | none, _ => .unknown
  | _ => .plain

/-- The words of a command line. -/
structure Words where
  /-- The flags before the command. -/
  leading : List (Flag × String)
  /-- The flags behind the command. -/
  flags : List (Flag × String)
  /-- The command, and its other words. -/
  plain : List String

namespace Words

/-- A flag in front of the words from the command on. -/
def addFlag (w : Words) (f : Flag) (value : String) : Words :=
  ⟨w.leading, (f, value) :: w.flags, w.plain⟩

/-- Sorts the words from the command on; nothing if one is an unknown flag or lacks its value, which
does not look like a flag. -/
def ofCommand : List String → Option Words
  | [] => some ⟨[], [], []⟩
  | arg :: rest =>
    if arg == "--" then some ⟨[], [], rest⟩
    else
      match Word.of arg, rest with
      | .unknown, _ => none
      | .plain, rest => (ofCommand rest).map fun w => ⟨w.leading, w.flags, arg :: w.plain⟩
      | .flag f (some value), rest => (ofCommand rest).map (·.addFlag f value)
      | .flag f none, value :: rest =>
        if Word.of value = .plain then (ofCommand rest).map (·.addFlag f value) else none
      | .flag _ none, [] => none

/-- Sorts the words of a command line. -/
def ofArgs : List String → Option Words
  | [] => some ⟨[], [], []⟩
  | arg :: rest =>
    match Word.of arg, rest with
    | .unknown, _ => none
    | .plain, rest => ofCommand (arg :: rest)
    | .flag f (some value), rest =>
      (ofArgs rest).map fun w => ⟨(f, value) :: w.leading, w.flags, w.plain⟩
    | .flag f none, value :: rest =>
      if Word.of value = .plain then
        (ofArgs rest).map fun w => ⟨(f, value) :: w.leading, w.flags, w.plain⟩
      else none
    | .flag _ none, [] => none

/-- The value of a flag, if it is given; behind the command it counts more than before it. -/
def value? (w : Words) (f : Flag) : Option String :=
  ((w.flags ++ w.leading).find? fun entry => entry.1 == f).map fun entry => entry.2

/-- Is each flag one of the given ones, and given once? -/
def eachOnce (fs : List Flag) : List (Flag × String) → Bool
  | [] => true
  | (f, _) :: rest => fs.contains f && !rest.any (fun entry => entry.1 == f) && eachOnce fs rest

/-- Are the flags among those that every command takes and the given ones? The given ones stand
behind the command, and no flag stands twice on its side of it. -/
def allows (w : Words) (fs : List Flag) : Bool :=
  eachOnce [.config, .catalog] w.leading && eachOnce (.config :: .catalog :: fs) w.flags

end Words

/-! ## Values of flags -/

def modes : List (String × Mode) :=
  [("sql", .sql), ("verbose", .verbose), ("inline", .inlined), ("preview", .preview),
   ("execute", .execute), ("json", .json)]

/-- The value of a name, or nothing if there is none. -/
def named? {α : Type} (names : List (String × α)) (s : String) : Option α :=
  (names.find? (·.1 == s)).map (·.2)

/-- An unsigned word in decimal digits; a plus sign may stand before them. -/
def word? (s : String) : Option UInt64 :=
  let digits :=
    match s.toList with
    | '+' :: ds => ds
    | ds => ds
  if digits.isEmpty || !digits.all Char.isDigit then none
  else
    let n := digits.foldl (fun n c => 10 * n + (c.toNat - '0'.toNat)) 0
    if n < UInt64.size then some (.ofNat n) else none

/-- The value that a flag gives, if it is given; nothing at all if it cannot be read. -/
def optionalValue {α : Type} (w : Words) (f : Flag) (read : String → Option α) :
    Option (Option α) :=
  match w.value? f with
  | none => some none
  | some s => (read s).map some

/-- A path, which has at least one character. -/
def path? (s : String) : Option String :=
  if s.isEmpty then none else some s

/-- The compilation that the flags describe. -/
def Command.ofCompileFlags (w : Words) (file : String) : Option Command := do
  let dialect ← optionalValue w .dialect (named? (Dialect.all.map fun d => (d.name, d)))
  let mode ← optionalValue w .mode (named? modes)
  let maxLimit ← optionalValue w .maxLimit word?
  some (.compile (← path? file) dialect (mode.getD .sql) maxLimit)

/-- The command that the words name, and the flags that it takes. -/
def Command.ofWords (w : Words) : Option (Command × List Flag) :=
  match w.plain with
  | ["compile", file] =>
    (Command.ofCompileFlags w file).map (·, [.dialect, .mode, .maxLimit])
  | ["validate", file] => (path? file).map fun file => (.validate file, [])
  | ["check-sql", sql] => some (.checkSql (.text sql), [])
  | ["check-sql"] =>
    ((w.value? .file).bind path?).map fun file => (.checkSql (.file file), [.file])
  | ["entities"] => some (.entities, [])
  | ["path", start, target] => some (.path start target, [])
  | _ => none

/-- The command that a command line asks for. -/
def Invocation.ofArgs (args : List String) : Option Invocation := do
  let w ← Words.ofArgs args
  let (command, flags) ← Command.ofWords w
  let config ← optionalValue w .config path?
  let catalog ← optionalValue w .catalog path?
  if w.allows flags then some ⟨config, catalog, command⟩ else none

end ReportSql.CommandLine
