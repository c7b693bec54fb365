import ReportSql.Text.Character

/-!
# References to variables

A text may refer to variables of the environment: with a dollar sign and a name, or with braces
around the name. A dollar sign with no name behind it stands for itself. Values are put in as they
are; references inside them are not followed.
-/

namespace ReportSql.Settings

/-- A part of a text with references. -/
inductive Piece where
  | char (c : Char)
  /-- A reference to a variable. -/
  | reference (name : List Char)
  deriving DecidableEq

/-- The characters of names without braces. -/
def isNameChar (c : Char) : Bool :=
  Text.isAlphanumeric c || c == '_'

/-- The text up to the first closing brace, or to the end. -/
def bracedName (s : List Char) : List Char :=
  s.takeWhile (· != '\x7d')

/-- The text behind the first closing brace. -/
def afterBrace (s : List Char) : List Char :=
  (s.dropWhile (· != '\x7d')).drop 1

theorem length_dropWhile_le {α : Type} (p : α → Bool) (s : List α) :
    (s.dropWhile p).length ≤ s.length :=
  (List.dropWhile_sublist p).length_le

/-- The parts of a text, from left to right. -/
def pieces : List Char → List Piece
  | [] => []
  | '$' :: '\x7b' :: s => .reference (bracedName s) :: pieces (afterBrace s)
  | '$' :: s =>
    let name := s.takeWhile isNameChar
    if name.isEmpty then .char '$' :: pieces s
    else .reference name :: pieces (s.dropWhile isNameChar)
  | c :: s => .char c :: pieces s
termination_by s => s.length
decreasing_by
  · have := length_dropWhile_le (· != '\x7d') s
    simp only [afterBrace, List.length_drop, List.length_cons]
    omega
  · simp
  · have := length_dropWhile_le isNameChar s
    simp only [List.length_cons]
    omega
  · simp

/-- The value of a variable, if it is set. -/
abbrev Environment :=
  String → Option String

/-- A reference to a variable that is not set. -/
structure MissingVariable where
  name : String
  deriving DecidableEq

namespace MissingVariable

def message (m : MissingVariable) : String :=
  "Missing environment variable: " ++ m.name

end MissingVariable

/-- What the parts of a text stand for. -/
def expandPieces (env : Environment) : List Piece → Except MissingVariable (List Char)
  | [] => .ok []
  | .char c :: rest => do
    let s ← expandPieces env rest
    .ok (c :: s)
  | .reference name :: rest =>
    match env (.ofList name) with
    | none => .error ⟨.ofList name⟩
    | some value => do
      let s ← expandPieces env rest
      .ok (value.toList ++ s)

/-- The text with the values of the variables that it refers to. -/
def expand (env : Environment) (s : String) : Except MissingVariable String :=
  (expandPieces env (pieces s.toList)).map .ofList

/-- The name of the variable that a part refers to. -/
def Piece.variableName? : Piece → Option String
  | char _ => none
  | reference name => some (.ofList name)

/-- The names of the variables that a text refers to. -/
def variablesIn (s : String) : List String :=
  (pieces s.toList).filterMap Piece.variableName?

end ReportSql.Settings
