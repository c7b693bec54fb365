import ReportSql.Text.Character

/-!
# Normal form of written statements

A statement that somebody wrote is brought to one line of text: comments and blanks become single
spaces, except inside quotes, and semicolons and blanks at its end are dropped. `pieces` says which
characters belong to the statement.
-/

namespace ReportSql.Gate

/-- What the next character is part of. -/
inductive Mode where
  | plain
  /-- A quoted text or name, up to the next `quote`. -/
  | quoted (quote : Char)
  | lineComment
  | blockComment
  deriving DecidableEq

/-- A character of a statement, or something between its characters. -/
inductive Piece where
  | char (c : Char)
  | gap
  deriving DecidableEq

def isQuote (c : Char) : Bool :=
  c == '\x27' || c == '"'

/-- The characters of a statement and the gaps between them. A quoted text or a comment that is not
closed goes on to the end. -/
def pieces : Mode → List Char → List Piece
  | _, [] => []
  | .plain, '-' :: '-' :: s => .gap :: pieces .lineComment s
  | .plain, '/' :: '*' :: s => .gap :: pieces .blockComment s
  | .plain, c :: s =>
    if isQuote c then .char c :: pieces (.quoted c) s
    else if Text.isBlank c then .gap :: pieces .plain s
    else .char c :: pieces .plain s
  | .quoted quote, c :: s => .char c :: pieces (if c = quote then .plain else .quoted quote) s
  | .lineComment, c :: s =>
    if c = '\n' then .gap :: pieces .plain s else pieces .lineComment s
  | .blockComment, '*' :: '/' :: s => pieces .plain s
  | .blockComment, _ :: s => pieces .blockComment s

/-- The characters with one space for the gaps between two of them; `after` tells whether a gap has
been passed. -/
def spaced : Bool → List Piece → List Char
  | _, [] => []
  | _, .gap :: ps => spaced true ps
  | true, .char c :: ps => ' ' :: c :: spaced false ps
  | false, .char c :: ps => c :: spaced false ps

/-- Characters that may be dropped at the end of a statement. -/
def isTrailing (c : Char) : Bool :=
  c == ';' || Text.isBlank c

/-- The text without droppable characters at its end. -/
def trimTrailing (s : List Char) : List Char :=
  (s.reverse.dropWhile isTrailing).reverse

/-- The normal form of a statement. -/
def normalize (s : List Char) : List Char :=
  trimTrailing (spaced false ((pieces .plain s).dropWhile fun p => p == .gap))

end ReportSql.Gate
