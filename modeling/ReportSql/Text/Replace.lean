import ReportSql.Text.Character
import ReportSql.Text.Fold

/-!
# Finding and replacing

A finder looks at the start of a text, and at the character before it, for something it knows.
`replaceAll` goes through a text from left to right and replaces whatever a finder finds.
-/

namespace ReportSql.Text

/-- Something found at the start of a text: how many characters it has, at least one, and what is
written in its place. -/
structure Found where
  length : Nat
  replacement : List Char
  deriving DecidableEq

/-- Looks at the start of a text, given the character before it. -/
abbrev Finder :=
  Option Char → List Char → Option Found

/-- The text with everything that is found replaced. The first `skip` characters belong to what was
found last. -/
def replaceFrom (find : Finder) : Nat → Option Char → List Char → List Char
  | _, _, [] => []
  | skip + 1, _, c :: s => replaceFrom find skip (some c) s
  | 0, before, c :: s =>
    match find before (c :: s) with
    | some found => found.replacement ++ replaceFrom find (found.length - 1) (some c) s
    | none => c :: replaceFrom find 0 (some c) s

/-- The text with everything that is found replaced, from left to right. -/
def replaceAll (find : Finder) (s : List Char) : List Char :=
  replaceFrom find 0 none s

/-- May a word start after the given character? -/
def startsWord (before : Option Char) : Bool :=
  !before.any isWord

/-- Does a word end before the text? -/
def endsWord (s : List Char) : Bool :=
  !s.head?.any isWord

/-- The first of the words that stands at the start of the text as a whole word, as it is written
there. Case is disregarded; the words are in lower case. -/
def wholeWord? (words : List (List Char)) (s : List Char) : Option (List Char) :=
  words.findSome? fun word =>
    match stripWord word s with
    | some rest => if endsWord rest then some (s.take word.length) else none
    | none => none

/-- The first place where one of the words stands as a whole word, as it is written there. -/
def findWord? (words : List (List Char)) : Option Char → List Char → Option (List Char)
  | _, [] => none
  | before, c :: s =>
    match (if startsWord before then wholeWord? words (c :: s) else none) with
    | some found => some found
    | none => findWord? words (some c) s

end ReportSql.Text
