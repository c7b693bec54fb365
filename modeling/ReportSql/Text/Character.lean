import ReportSql.Text.Ranges

/-!
# Character classes

White space, alphanumeric characters, word characters and digits, each over all of Unicode. Word
characters and digits are those of version 16 of the standard, alphanumeric characters those of
version 17.
-/

namespace ReportSql.Text

/-- The code points of white space. -/
def blanks : List CodeRange :=
  [(0x9, 0xD), (0x20, 0x20), (0x85, 0x85), (0xA0, 0xA0), (0x1680, 0x1680), (0x2000, 0x200A),
   (0x2028, 0x2029), (0x202F, 0x202F), (0x205F, 0x205F), (0x3000, 0x3000)]

/-- White space. -/
def isBlank (c : Char) : Bool :=
  within blanks c

/-- A decimal digit of any script. -/
def isDigit (c : Char) : Bool :=
  within decimalDigits c && !within addedLast c

/-- Letters and numerals. -/
def isAlphanumeric (c : Char) : Bool :=
  if c.toNat < 0x80 then c.isAlphanum
  else within alphabetic c || within decimalDigits c || within otherNumbers c

/-- Characters that words consist of: a word ends where such a character stands beside another
character or an end of the text. -/
def isWord (c : Char) : Bool :=
  if c.toNat < 0x80 then c.isAlphanum || c == '_'
  else
    (within alphabetic c || within decimalDigits c || within marks c || within connectors c ||
      within joiners c) && !within addedLast c

/-- The text without white space at its ends. -/
def trim (s : List Char) : List Char :=
  ((s.dropWhile isBlank).reverse.dropWhile isBlank).reverse

end ReportSql.Text
