import ScopeExit.Number.Binary64
import ScopeExit.Text.Blank
import ScopeExit.Text.Digit
/-!
Numbers read from texts.

Decimal digits of every script count, white space around a numeral is skipped and an underscore may
stand between two digits.  Integers are read in a given base or in the base that their first two
characters name; floats are decimal, with a point and an exponent, or one of the names of an infinity
or of the value that is not a number.
-/
namespace ScopeExit.Number

/-- Integers of more digits in base ten are not read or written. -/
def maxDigits : Nat := 4300

/-! ### Characters of a numeral -/

/-- A code point as the ASCII character that it counts as in a numeral: every decimal digit is the
ASCII digit of its value, and white space above ASCII is a space. -/
def numeralChar (c : CodePoint) : Char :=
  if c.val < 0x7F then Char.ofNat c.val
  else if c.isBlank then ' '
  else
    match c.decimalValue? with
    | some d => Char.ofNat (0x30 + d)
    | none => '?'

/-- White space around a numeral. -/
def isPad (c : Char) : Bool :=
  c = ' ' || (0x09 ≤ c.toNat && c.toNat ≤ 0x0D)

/-- The characters of a numeral, without white space at the ends. -/
def numeralChars (t : Text) : List Char :=
  (((t.codes.map numeralChar).dropWhile isPad).reverse.dropWhile isPad).reverse

/-- The value of a digit in bases up to 36. -/
def digitValue? (c : Char) : Option Nat :=
  if '0' ≤ c && c ≤ '9' then some (c.toNat - '0'.toNat)
  else if 'a' ≤ c && c ≤ 'z' then some (c.toNat - 'a'.toNat + 10)
  else if 'A' ≤ c && c ≤ 'Z' then some (c.toNat - 'A'.toNat + 10)
  else none

/-- A digit of a base. -/
def isDigitOf (base : Nat) (c : Char) : Bool :=
  match digitValue? c with
  | some d => d < base
  | none => false

/-- The number that digits of a base stand for. -/
def ofDigits (base : Nat) (cs : List Char) : Nat :=
  cs.foldl (fun n c => n * base + (digitValue? c).getD 0) 0

/-- The digits of a numeral without the underscores, each of which must stand between two digits.
`after` says whether a digit stands directly before. -/
def dropUnderscores (isDig : Char → Bool) : Bool → List Char → Option (List Char)
  | _, [] => some []
  | after, '_' :: rest =>
    match rest with
    | c :: _ => if after && isDig c then dropUnderscores isDig false rest else none
    | [] => none
  | _, c :: rest => (dropUnderscores isDig (isDig c) rest).map (c :: ·)

/-! ### Integers -/

/-- A sign in front of a numeral: whether it is a minus, and what follows. -/
def splitSign : List Char → Bool × List Char
  | '+' :: rest => (false, rest)
  | '-' :: rest => (true, rest)
  | cs => (false, cs)

/-- One or more digits of a base, with underscores between them. -/
def readDigits? (base : Nat) (cs : List Char) : Option Nat := do
  let ds ← dropUnderscores (isDigitOf base) false cs
  if ds.isEmpty || !ds.all (isDigitOf base) then none
  else if base = 10 && ds.length > maxDigits then none
  else some (ofDigits base ds)

/-- The base that the letter after a leading zero names. -/
def baseOfLetter? (c : Char) : Option Nat :=
  if c = 'x' || c = 'X' then some 16
  else if c = 'o' || c = 'O' then some 8
  else if c = 'b' || c = 'B' then some 2
  else none

/-- The digits after a base mark; one underscore may follow the mark. -/
def readMarked? (base : Nat) : List Char → Option Nat
  | '_' :: rest => readDigits? base rest
  | cs => readDigits? base cs

/-- An unsigned integer whose base is named by its first two characters, and is ten otherwise.  A
decimal numeral with a leading zero must be zero. -/
def readUnsigned? : List Char → Option Nat
  | '0' :: c :: rest =>
    match baseOfLetter? c with
    | some base => readMarked? base rest
    | none =>
      match readDigits? 10 ('0' :: c :: rest) with
      | some 0 => some 0
      | _ => none
  | cs => readDigits? 10 cs

/-- The integer of a magnitude. -/
def withSign (negative : Bool) (n : Nat) : Int := if negative then -(n : Int) else n

/-- An integer whose base is named by its first two characters, and is ten otherwise. -/
def readInt? (t : Text) : Option Int :=
  let (negative, cs) := splitSign (numeralChars t)
  (readUnsigned? cs).map (withSign negative)

/-- An integer in base ten. -/
def readDecimalInt? (t : Text) : Option Int :=
  let (negative, cs) := splitSign (numeralChars t)
  (readDigits? 10 cs).map (withSign negative)

/-- An integer in base sixteen; the mark of the base may stand in front. -/
def readHexInt? (t : Text) : Option Int :=
  let (negative, cs) := splitSign (numeralChars t)
  let n := match cs with
    | '0' :: 'x' :: rest => readMarked? 16 rest
    | '0' :: 'X' :: rest => readMarked? 16 rest
    | _ => readDigits? 16 cs
  n.map (withSign negative)

/-! ### Floats -/

/-- The parts of a decimal numeral. -/
structure Numeral where
  /-- The digits before the point. -/
  whole : List Char
  /-- The digits after the point. -/
  fraction : List Char
  /-- The exponent. -/
  exponent : Int

/-- The exponent at the end of a numeral: nothing, or a letter, a sign and digits. -/
def readExponent? : List Char → Option Int
  | [] => some 0
  | c :: rest =>
    if c = 'e' || c = 'E' then
      let (negative, ds) := splitSign rest
      if ds.isEmpty || !ds.all Char.isDigit then none
      else some (withSign negative (ofDigits 10 ds))
    else none

/-- A decimal numeral without sign and underscores; a digit stands before or after the point. -/
def readNumeral? (cs : List Char) : Option Numeral := do
  let whole := cs.takeWhile Char.isDigit
  let rest := cs.dropWhile Char.isDigit
  let (fraction, rest) :=
    match rest with
    | '.' :: more => (more.takeWhile Char.isDigit, more.dropWhile Char.isDigit)
    | _ => ([], rest)
  if whole.isEmpty && fraction.isEmpty then none
  else
    let exponent ← readExponent? rest
    some ⟨whole, fraction, exponent⟩

/-- The float nearest to a numeral.  Beyond 400 digits before or after the point the value is out of
the range of floats, whatever the digits are. -/
def Numeral.toFloat (negative : Bool) (n : Numeral) : Float :=
  let digits := (n.whole ++ n.fraction).dropWhile (· = '0')
  let m := ofDigits 10 digits
  let power := n.exponent - n.fraction.length
  if m = 0 then ofRatio negative 0 1
  else if power + digits.length > 400 then infinityOf negative
  else if power + digits.length < -400 then ofRatio negative 0 1
  else ofRatio negative (m * pow10 power.toNat) (pow10 (-power).toNat)

/-- The names of the floats that have no numeral, in lower case. -/
def namedFloat? (negative : Bool) (name : String) : Option Float :=
  if name = "inf" || name = "infinity" then some (infinityOf negative)
  else if name = "nan" then some notANumber
  else none

/-- A float: a decimal numeral or a name, with an optional sign. -/
def readFloat? (t : Text) : Option Float := do
  let cs ← dropUnderscores Char.isDigit false (numeralChars t)
  let (negative, rest) := splitSign cs
  match namedFloat? negative (String.ofList (rest.map Char.toLower)) with
  | some x => some x
  | none => (readNumeral? rest).map (Numeral.toFloat negative)

/-! ### Literals -/

/-- A text without its underscores. -/
def withoutUnderscores (t : Text) : Text := ⟨t.codes.filter (·.val ≠ '_'.toNat)⟩

/-- A hexadecimal digit. -/
def isHexDigit (c : CodePoint) : Bool := c.val < 0x80 && isDigitOf 16 (Char.ofNat c.val)

/-- A numeral that starts with the mark of a base and goes on with hexadecimal digits only. -/
def hasBaseMark (t : Text) : Bool :=
  match t.codes with
  | z :: l :: d :: rest =>
    z.val = '0'.toNat && l.val < 0x80 && (baseOfLetter? (Char.ofNat l.val)).isSome &&
      isHexDigit d && rest.all isHexDigit
  | _ => false

/-- A text of one or more decimal digits. -/
def isDecimalDigits (t : Text) : Bool :=
  !t.isEmpty && t.codes.all fun c => c.decimalValue?.isSome

/-- A numeric literal of a source text: an integer with an `n` behind it, an integer with the mark of
a base, decimal digits, or a float.  Underscores are ignored. -/
def readLiteral? (t : Text) : Option Number :=
  let t := withoutUnderscores t
  match t.codes.reverse with
  | last :: front =>
    if last.val = 'n'.toNat then (readInt? ⟨front.reverse⟩).map .int
    else if hasBaseMark t then (readInt? t).map .int
    else if isDecimalDigits t then (readDecimalInt? t).map .int
    else (readFloat? t).map .float
  | [] => none

end ScopeExit.Number
