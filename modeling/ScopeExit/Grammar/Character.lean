import ScopeExit.Text.Ranges
/-!
Classes of characters of a source text.

Blanks separate tokens and mean nothing else, apart from the three of them that end a line.  A name
may hold every character that is neither a blank nor a control character nor part of punctuation, so
letters of all scripts need no table.  The null character belongs to no class: it ends every token.
-/
namespace ScopeExit.Grammar

/-- The ranges of blanks. -/
def blanks : Text.Ranges := [
  (0x9, 0xD), (0x20, 0x20), (0xA0, 0xA0), (0x1680, 0x1680), (0x2000, 0x200B), (0x2028, 0x2029),
  (0x202F, 0x202F), (0x205F, 0x2060), (0x3000, 0x3000), (0xFEFF, 0xFEFF)]

/-- Blanks separate tokens. -/
def isBlank (c : Char) : Bool := blanks.contains c.toNat

/-- The ranges of blanks at which a line may be broken. -/
def spaces : Text.Ranges := [
  (0x9, 0xD), (0x20, 0x20), (0x1680, 0x1680), (0x2000, 0x2006), (0x2008, 0x200A), (0x2028, 0x2029),
  (0x205F, 0x205F), (0x3000, 0x3000)]

/-- Spaces are the blanks that the search for the end of a statement passes over. -/
def isSpace (c : Char) : Bool := spaces.contains c.toNat

/-- The blanks within a token of two words. -/
def isGap (c : Char) : Bool := c = ' ' || ('\t' ≤ c && c ≤ '\r')

/-- The characters that end a line for the purpose of missing semicolons. -/
def isLineBreak (c : Char) : Bool := c = '\n' || c = '\u2028' || c = '\u2029'

/-- The characters that end a comment which runs to the end of its line. -/
def endsLineComment (c : Char) : Bool := c = '\r' || isLineBreak c

/-- The null character, which counts as the end of the text. -/
def isNull (c : Char) : Bool := c = '\x00'

/-- The characters of punctuation, which no name holds. -/
def punctuation : List Char := ":;\x60\"'@#.,|^&<=>+-*/\\%?!~()[]\x7b\x7d".toList

/-- A decimal digit. -/
def isDigit (c : Char) : Bool := c.isDigit

/-- A hexadecimal digit. -/
def isHexDigit (c : Char) : Bool := c.isDigit || ('a' ≤ c && c ≤ 'f') || ('A' ≤ c && c ≤ 'F')

/-- An octal digit. -/
def isOctalDigit (c : Char) : Bool := '0' ≤ c && c ≤ '7'

/-- A binary digit. -/
def isBinaryDigit (c : Char) : Bool := c = '0' || c = '1'

/-- A character that continues a name. -/
def isNamePart (c : Char) : Bool := ' ' < c && !isBlank c && !punctuation.contains c

/-- A character that starts a name. -/
def isNameStart (c : Char) : Bool := isNamePart c && !isDigit c

/-- A letter: one of the Latin alphabet, or a character of names beyond it. -/
def isLetter (c : Char) : Bool := c.isAlpha || (c.toNat ≥ 0x80 && isNamePart c)

example : blanks.ordered = true := by decide
example : spaces.ordered = true := by decide

theorem isLineBreak_isBlank {c : Char} (h : isLineBreak c = true) : isBlank c = true := by
  simp only [isLineBreak, Bool.or_eq_true, decide_eq_true_eq] at h
  rcases h with (rfl | rfl) | rfl <;> decide

theorem endsLineComment_isBlank {c : Char} (h : endsLineComment c = true) : isBlank c = true := by
  simp only [endsLineComment, Bool.or_eq_true, decide_eq_true_eq] at h
  rcases h with rfl | h
  · decide
  · exact isLineBreak_isBlank h

theorem isLineBreak_isSpace {c : Char} (h : isLineBreak c = true) : isSpace c = true := by
  simp only [isLineBreak, Bool.or_eq_true, decide_eq_true_eq] at h
  rcases h with (rfl | rfl) | rfl <;> decide

/-- Every space is a blank, so the search for the end of a statement passes over nothing that the
next token needs. -/
theorem isSpace_isBlank {c : Char} (h : isSpace c = true) : isBlank c = true := by
  simp only [isSpace, isBlank, spaces, blanks, Text.Ranges.contains, Bool.if_false_left,
    Bool.or_eq_true, Bool.and_eq_true, Bool.not_eq_true', decide_eq_true_eq,
    decide_eq_false_iff_not, Bool.false_eq_true, or_false] at h ⊢
  omega

end ScopeExit.Grammar
