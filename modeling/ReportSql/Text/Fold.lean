/-!
# Letters without regard to case

A letter of the Latin alphabet matches its other case. Two further characters fold to such a
letter: the long s and the kelvin sign.
-/

namespace ReportSql.Text

/-- The lower-case letter that a character matches when case is disregarded. -/
def fold (c : Char) : Char :=
  if c == '\u017F' then 's'
  else if c == '\u212A' then 'k'
  else c.toLower

/-- The text with its leading `word` taken off, case disregarded. The word is in lower case. -/
def stripWord : List Char → List Char → Option (List Char)
  | [], s => some s
  | _ :: _, [] => none
  | w :: word, c :: s => if fold c == w then stripWord word s else none

/-- Does the text hold `word`, in lower case? -/
def containsWord (word : List Char) : List Char → Bool
  | [] => word.isEmpty
  | c :: s => word.isPrefixOf (c :: s) || containsWord word s

/-- The lower case of a character as far as it holds Latin letters: the dotted capital I becomes
an i under a dot, and the kelvin sign a k. Characters of other alphabets stay. -/
def lowerLatin (c : Char) : List Char :=
  if c == '\u0130' then ['i', '\u0307']
  else if c == '\u212A' then ['k']
  else [c.toLower]

end ReportSql.Text
