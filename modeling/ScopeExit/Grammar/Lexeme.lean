import ScopeExit.Grammar.Character
/-!
Lexemes: the classes of tokens whose spelling is not fixed.

Each class has a scanner, which takes the longest spelling of the class off the front of a text and
gives it with what follows, or gives nothing if none stands there.
-/
namespace ScopeExit.Grammar

/-- A spelling and the text behind it. -/
abbrev Scanned := List Char × List Char

/-- The number of bytes of characters. -/
def byteCount : List Char → Nat → Nat
  | [], n => n
  | c :: rest, n => byteCount rest (n + c.utf8Size)

theorem byteCount_eq_add (chars : List Char) (n : Nat) :
    byteCount chars n = n + byteCount chars 0 := by
  induction chars generalizing n with
  | nil => simp [byteCount]
  | cons c rest ih =>
    rw [byteCount, byteCount, ih, ih (0 + c.utf8Size)]
    omega

theorem byteCount_append (a b : List Char) (n : Nat) :
    byteCount (a ++ b) n = byteCount b (byteCount a n) := by
  induction a generalizing n with
  | nil => rfl
  | cons c rest ih => simp [byteCount, ih]

/-- The first character belongs to a class. -/
def startsWith (p : Char → Bool) : List Char → Bool
  | c :: _ => p c
  | [] => false

/-- A spelling that may not be empty. -/
def nonempty : Scanned → Option Scanned
  | ([], _) => none
  | s => some s

/-- A spelling with characters in front. -/
def Scanned.after (taken : List Char) (s : Scanned) : Scanned := (taken ++ s.1, s.2)

/-! ### Comments -/

/-- The rest of a comment that ends with its line. -/
def scanLineComment (chars : List Char) : Scanned :=
  chars.span fun c => !endsLineComment c && !isNull c

/-- The rest of a comment with both ends marked. -/
def scanBlockComment : List Char → Option Scanned
  | '*' :: '/' :: rest => some (['*', '/'], rest)
  | c :: rest => if isNull c then none else (scanBlockComment rest).map (Scanned.after [c])
  | [] => none

/-- A comment. -/
def scanComment : List Char → Option Scanned
  | '/' :: '/' :: rest => some ((scanLineComment rest).after ['/', '/'])
  | '/' :: '*' :: rest => (scanBlockComment rest).map (Scanned.after ['/', '*'])
  | _ => none

/-- The line at the start of a program that says how to run it. -/
def scanRunLine : List Char → Option Scanned
  | '#' :: '!' :: rest =>
    some (Scanned.after ['#', '!'] (rest.span fun c => c != '\n' && !isNull c))
  | _ => none

/-! ### Names -/

/-- Whether a scan of a name stands inside an escape in braces. -/
inductive NamePlace where
  | plain | escaped

/-- The characters of a name and what follows it.  A broken escape is an error. -/
def scanNameParts : NamePlace → List Char → Option Scanned
  | .plain, '\\' :: 'u' :: '\x7b' :: d :: rest =>
    if isHexDigit d then do
      let (taken, rest) ← scanNameParts .escaped rest
      pure ('\\' :: 'u' :: '\x7b' :: d :: taken, rest)
    else none
  | .plain, '\\' :: 'u' :: a :: b :: c :: d :: rest =>
    if [a, b, c, d].all isHexDigit then do
      let (taken, rest) ← scanNameParts .plain rest
      pure ('\\' :: 'u' :: a :: b :: c :: d :: taken, rest)
    else none
  | .plain, c :: rest =>
    if isNamePart c then do
      let (taken, rest) ← scanNameParts .plain rest
      pure (c :: taken, rest)
    else if c = '\\' then none
    else some ([], c :: rest)
  | .plain, [] => some ([], [])
  | .escaped, c :: rest =>
    if isHexDigit c then do
      let (taken, rest) ← scanNameParts .escaped rest
      pure (c :: taken, rest)
    else if c = '\x7d' then do
      let (taken, rest) ← scanNameParts .plain rest
      pure (c :: taken, rest)
    else none
  | .escaped, [] => none

/-- A name. -/
def scanName (chars : List Char) : Option Scanned :=
  if startsWith (fun c => isNameStart c || c = '\\') chars then
    (scanNameParts .plain chars).bind nonempty
  else none

/-- A name after a number sign. -/
def scanPrivateName : List Char → Option Scanned
  | '#' :: rest => (scanName rest).map (Scanned.after ['#'])
  | _ => none

/-- A character of the name of a markup element that a hyphen may join to others. -/
def isTagPart (c : Char) : Bool := c.isAlphanum || c = '_' || c = '$'

/-- A name of a markup element with a hyphen in it. -/
def scanTagName (chars : List Char) : Option Scanned :=
  let (head, rest) := chars.span isTagPart
  match rest with
  | '-' :: rest =>
    if startsWith (fun c => isTagPart c && !isDigit c) head then
      let (tail, rest) := rest.span fun c => isTagPart c || c = '-'
      some (head ++ '-' :: tail, rest)
    else none
  | _ => none

/-! ### Numbers -/

/-- Digits of a class with single underscores between them, and what follows. -/
def scanDigits (isDigit : Char → Bool) : List Char → Scanned
  | '_' :: d :: rest =>
    if isDigit d then
      let (taken, rest) := scanDigits isDigit rest
      ('_' :: d :: taken, rest)
    else ([], '_' :: d :: rest)
  | d :: rest =>
    if isDigit d then
      let (taken, rest) := scanDigits isDigit rest
      (d :: taken, rest)
    else ([], d :: rest)
  | [] => ([], [])

/-- The exponent of a decimal number, or nothing. -/
def scanExponent (chars : List Char) : Scanned :=
  match chars with
  | e :: rest =>
    let (sign, digits) := match rest with
      | '+' :: r => (['+'], r)
      | '-' :: r => (['-'], r)
      | r => ([], r)
    if (e = 'e' || e = 'E') && startsWith isDigit digits then
      (scanDigits isDigit digits).after (e :: sign)
    else ([], chars)
  | [] => ([], [])

/-- The mark of an unbounded integer, or nothing. -/
def scanIntegerMark : List Char → Scanned
  | 'n' :: rest => (['n'], rest)
  | rest => ([], rest)

/-- Decimal digits that may be followed by a fraction: no zero stands before others, except one
before a digit that is not zero. -/
def takesFraction : List Char → Bool
  | ['0'] => true
  | '0' :: d :: _ => isDigit d && d != '0'
  | d :: _ => isDigit d
  | [] => false

/-- The fraction of a number, with its point, or nothing. -/
def scanFraction : List Char → Scanned
  | '.' :: rest =>
    let (taken, rest) := if startsWith isDigit rest then scanDigits isDigit rest else ([], rest)
    ('.' :: taken, rest)
  | rest => ([], rest)

/-- A decimal number. -/
def scanDecimal (chars : List Char) : Scanned :=
  let (whole, rest) := if startsWith isDigit chars then scanDigits isDigit chars else ([], chars)
  if startsWith (· = 'n') rest then (scanIntegerMark rest).after whole
  else if whole.isEmpty || takesFraction whole then
    let (fraction, rest) := scanFraction rest
    let (exponent, rest) := scanExponent rest
    (whole ++ fraction ++ exponent, rest)
  else (whole, rest)

/-- The digits of a base that is given by a letter. -/
def baseDigits? (c : Char) : Option (Char → Bool) :=
  if c = 'x' || c = 'X' then some isHexDigit
  else if c = 'o' || c = 'O' then some isOctalDigit
  else if c = 'b' || c = 'B' then some isBinaryDigit
  else none

/-- A number: in a base given by its second character, or decimal. -/
def scanNumberParts (chars : List Char) : Scanned :=
  match chars with
  | '0' :: base :: rest =>
    match baseDigits? base with
    | some isDigit =>
      if startsWith isDigit rest then
        let (taken, rest) := scanDigits isDigit rest
        (scanIntegerMark rest).after ('0' :: base :: taken)
      else scanDecimal chars
    | none => scanDecimal chars
  | _ => scanDecimal chars

/-- A number. -/
def scanNumber (chars : List Char) : Option Scanned :=
  match chars with
  | '.' :: d :: _ => if isDigit d then some (scanNumberParts chars) else none
  | d :: _ => if isDigit d then some (scanNumberParts chars) else none
  | [] => none

/-! ### Strings -/

/-- The number of characters of an escape of up to three octal digits. -/
def octalLength (chars : List Char) : Nat := ((chars.take 3).takeWhile isOctalDigit).length

/-- A character that another one before it, a carriage return or a question mark, draws into an
escape. -/
def drawsIn (c : Char) : Bool := c = '\r' || c = '?'

/-- The number of characters of the escape at the start of a text, backslash included. -/
def escapeLength? : List Char → Option Nat
  | '\\' :: 'x' :: a :: b :: _ => if [a, b].all isHexDigit then some 4 else none
  | '\\' :: 'u' :: '\x7b' :: rest =>
    let digits := rest.takeWhile isHexDigit
    if !digits.isEmpty && startsWith (· = '\x7d') (rest.drop digits.length)
    then some (digits.length + 4) else none
  | '\\' :: 'u' :: a :: b :: c :: d :: _ => if [a, b, c, d].all isHexDigit then some 6 else none
  | '\\' :: c :: rest =>
    if c = 'x' || c = 'u' || isNull c then none
    else if isOctalDigit c then some (1 + octalLength (c :: rest))
    else if drawsIn c && startsWith isLineBreak rest then some 3
    else some 2
  | _ => none

/-- An escape. -/
def scanEscape (chars : List Char) : Option Scanned :=
  (escapeLength? chars).map chars.splitAt

/-- Characters that stand for themselves in a string with the given quote. -/
def scanFragment (quote : Char) (chars : List Char) : Option Scanned :=
  nonempty (chars.span fun c => !(c = quote || c = '\\' || c = '\r' || c = '\n' || isNull c))

/-! ### Regular expressions -/

/-- The rest of a set of characters in brackets. -/
def scanCharacterSet : List Char → Option Scanned
  | ']' :: rest => some ([']'], rest)
  | '\\' :: c :: rest =>
    if c = '\n' || isNull c then none else (scanCharacterSet rest).map (Scanned.after ['\\', c])
  | c :: rest =>
    if c = '\n' || c = '\\' || isNull c then none
    else (scanCharacterSet rest).map (Scanned.after [c])
  | [] => none

/-- The body of a regular expression.  Inside brackets a slash stands for itself; `fuel` bounds the
number of pieces. -/
def scanRegexParts : Nat → List Char → Scanned
  | 0, chars => ([], chars)
  | fuel + 1, '[' :: rest =>
    match scanCharacterSet rest with
    | some (taken, rest) => (scanRegexParts fuel rest).after ('[' :: taken)
    | none => ([], '[' :: rest)
  | fuel + 1, '\\' :: c :: rest =>
    if c = '\n' || isNull c then ([], '\\' :: c :: rest)
    else (scanRegexParts fuel rest).after ['\\', c]
  | fuel + 1, c :: rest =>
    if c = '/' || c = '\\' || c = '\n' || isNull c then ([], c :: rest)
    else (scanRegexParts fuel rest).after [c]
  | _ + 1, [] => ([], [])

/-! ### Markup -/

/-- Characters that stand for themselves in an attribute with the given quote.  An ampersand does
unless it starts a reference. -/
def scanAttributeText (quote : Char) : List Char → Scanned
  | '&' :: c :: rest =>
    if c = '#' || c.isAlpha || isNull c then ([], '&' :: c :: rest)
    else (scanAttributeText quote rest).after ['&', c]
  | c :: rest =>
    if c = quote || c = '&' || isNull c then ([], c :: rest)
    else (scanAttributeText quote rest).after [c]
  | [] => ([], [])

/-- Up to a number of characters of a class, at least one, and a semicolon. -/
def scanReferenceEnd (p : Char → Bool) (limit : Nat) (chars : List Char) : Option Scanned :=
  let (taken, rest) := chars.span p
  match rest with
  | ';' :: rest => if taken.isEmpty || taken.length > limit then none else some (taken ++ [';'], rest)
  | _ => none

/-- A reference to a character by name or number. -/
def scanReference : List Char → Option Scanned
  | '&' :: '#' :: 'x' :: rest =>
    (scanReferenceEnd isHexDigit 6 rest).map (Scanned.after ['&', '#', 'x'])
  | '&' :: '#' :: 'X' :: rest =>
    (scanReferenceEnd isHexDigit 6 rest).map (Scanned.after ['&', '#', 'X'])
  | '&' :: '#' :: rest => (scanReferenceEnd isDigit 5 rest).map (Scanned.after ['&', '#'])
  | '&' :: rest => (scanReferenceEnd Char.isAlpha 30 rest).map (Scanned.after ['&'])
  | _ => none

/-! ### Classes -/

/-- The two words `static get` with the end of a line behind them. -/
def scanStaticGet (chars : List Char) : Option Scanned :=
  let (first, rest) := chars.splitAt 6
  let (gap, rest) := rest.span isGap
  let (second, rest) := rest.splitAt 3
  let (tail, rest) := rest.span isGap
  let line := (tail.reverse.dropWhile (· != '\n')).reverse
  if first == "static".toList && !gap.isEmpty && second == "get".toList && !line.isEmpty then
    some (first ++ gap ++ second ++ line, tail.drop line.length ++ rest)
  else none

/-- The classes of lexemes. -/
inductive Lexeme where
  | comment | runLine
  | name | privateName | number
  | escape
  /-- Raw text of a string with the given quote. -/
  | fragment (quote : Char)
  | regexBody
  /-- The slash behind the body of a regular expression. -/
  | regexEnd
  | regexFlags
  | tagName
  /-- Raw text of an attribute with the given quote. -/
  | attributeText (quote : Char)
  /-- A reference to a character in markup. -/
  | reference
  | staticGet
  deriving DecidableEq

namespace Lexeme

/-- The longest spelling of a class at the start of a text. -/
def scan : Lexeme → List Char → Option Scanned
  | .comment, chars => scanComment chars
  | .runLine, chars => scanRunLine chars
  | .name, chars => scanName chars
  | .privateName, chars => scanPrivateName chars
  | .number, chars => scanNumber chars
  | .escape, chars => scanEscape chars
  | .fragment quote, chars => scanFragment quote chars
  | .regexBody, chars => nonempty (scanRegexParts chars.length chars)
  | .regexEnd, '/' :: rest => some (['/'], rest)
  | .regexEnd, _ => none
  | .regexFlags, chars => nonempty (chars.span fun c => 'a' ≤ c && c ≤ 'z')
  | .tagName, chars => scanTagName chars
  | .attributeText quote, chars => nonempty (scanAttributeText quote chars)
  | .reference, chars => scanReference chars
  | .staticGet, chars => scanStaticGet chars

/-- Lexemes that continue the token before them: no blank may stand in front. -/
def isAttached : Lexeme → Bool
  | .escape | .fragment _ | .regexBody | .regexEnd | .regexFlags | .attributeText _ => true
  | _ => false

end Lexeme

end ScopeExit.Grammar
