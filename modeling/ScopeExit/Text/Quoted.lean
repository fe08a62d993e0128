import ScopeExit.Text
import ScopeExit.Text.Printable
/-!
Quoted texts: how listings and error messages show a text.

The text stands between single quotes, or between double quotes when it holds a single quote and no
double one.  Backslashes, the quote in use, line breaks, tabs and every code point that is not
printable are escaped, so a quoted text never breaks a line.
-/
namespace ScopeExit.Text

/-- A number in lower-case hexadecimal with at least the given number of digits. -/
def hexDigits (width n : Nat) : List Char :=
  let ds := Nat.toDigits 16 n
  List.replicate (width - ds.length) '0' ++ ds

/-- The escape of a code point that is not printable: the shortest of the three hexadecimal forms. -/
def hexEscape (n : Nat) : List Char :=
  if n ≤ 0xFF then '\\' :: 'x' :: hexDigits 2 n
  else if n ≤ 0xFFFF then '\\' :: 'u' :: hexDigits 4 n
  else '\\' :: 'U' :: hexDigits 8 n

/-- A code point as it stands between quotes of the given kind. -/
def quotedCode (quote : Char) (c : CodePoint) : Text :=
  if c.val = quote.toNat || c.val = '\\'.toNat then ofChars ['\\'] ++ single c
  else if c.val = '\n'.toNat then ofChars ['\\', 'n']
  else if c.val = '\r'.toNat then ofChars ['\\', 'r']
  else if c.val = '\t'.toNat then ofChars ['\\', 't']
  else if c.isPrintable then single c
  else ofChars (hexEscape c.val)

/-- The quotes that a text is put between. -/
def quoteFor (t : Text) : Char :=
  let holds (q : Char) := t.codes.any fun c => c.val = q.toNat
  if holds '\'' && !holds '"' then '"' else '\''

/-- The quoted form of a text. -/
def quoted (t : Text) : Text :=
  let q := t.quoteFor
  ofChars [q] ++ concat (t.codes.map (quotedCode q)) ++ ofChars [q]

end ScopeExit.Text
