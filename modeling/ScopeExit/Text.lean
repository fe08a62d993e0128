/-!
Texts as the scripts see them.

A script string is a sequence of code points in which surrogates may stand alone or in any order, so
it is not a `String`.  `Text` is that sequence.  Everything a script can name, build or print is a
`Text`; a `String` becomes one by `Text.ofString`, which is also a coercion, and a text comes back as
a `String` exactly when it holds no surrogate (`Text.toString?`).
-/
namespace ScopeExit

/-- A Unicode code point, surrogates included. -/
structure CodePoint where
  /-- The number of the code point. -/
  val : Nat
  /-- Code points end at U+10FFFF. -/
  isLt : val < 0x110000
  deriving DecidableEq

namespace CodePoint

/-- The code point of a character. -/
def ofChar (c : Char) : CodePoint where
  val := c.toNat
  isLt := by
    rcases c.valid with h | ⟨_, h⟩
    · exact Nat.lt_trans h (by decide)
    · exact h

/-- The code point with a given number, if there is one. -/
def ofNat? (n : Nat) : Option CodePoint :=
  if h : n < 0x110000 then some ⟨n, h⟩ else none

instance : Inhabited CodePoint := ⟨⟨0, by decide⟩⟩

/-- Surrogates are the code points that no character has. -/
def isSurrogate (c : CodePoint) : Bool :=
  0xD800 ≤ c.val && c.val ≤ 0xDFFF

/-- The character of a code point that is no surrogate. -/
def toChar? (c : CodePoint) : Option Char :=
  if c.isSurrogate then none else some (Char.ofNat c.val)

end CodePoint

/-- A sequence of code points. -/
structure Text where
  /-- The code points in order. -/
  codes : List CodePoint
  deriving DecidableEq, Inhabited

namespace Text

/-- The text of a list of characters. -/
def ofChars (cs : List Char) : Text := ⟨cs.map CodePoint.ofChar⟩

/-- The text of a string. -/
def ofString (s : String) : Text := ofChars s.toList

instance : Coe String Text := ⟨ofString⟩

/-- The text without code points. -/
def empty : Text := ⟨[]⟩

/-- One text after the other. -/
def append (a b : Text) : Text := ⟨a.codes ++ b.codes⟩

instance : Append Text := ⟨append⟩

/-- The texts of a list, one after the other. -/
def concat (ts : List Text) : Text := ⟨ts.flatMap Text.codes⟩

/-- The texts of a list with `sep` between neighbours. -/
def join (sep : Text) (ts : List Text) : Text := ⟨sep.codes.intercalate (ts.map Text.codes)⟩

/-- The number of code points. -/
def length (t : Text) : Nat := t.codes.length

/-- A text without code points. -/
def isEmpty (t : Text) : Bool := t.codes.isEmpty

/-- The text of one code point. -/
def single (c : CodePoint) : Text := ⟨[c]⟩

/-- The code point at a position, as a text. -/
def get? (t : Text) (i : Nat) : Option Text := t.codes[i]?.map single

/-- The string of a text that holds no surrogate. -/
def toString? (t : Text) : Option String :=
  (t.codes.mapM CodePoint.toChar?).map String.ofList

/-- Code points are compared one by one; a text comes before its extensions. -/
def ltCodes : List CodePoint → List CodePoint → Bool
  | _, [] => false
  | [], _ :: _ => true
  | a :: as, b :: bs => if a.val = b.val then ltCodes as bs else decide (a.val < b.val)

/-- The order of texts. -/
def lt (a b : Text) : Bool := ltCodes a.codes b.codes

/-- A text that ends in the given one. -/
def endsWith (t s : Text) : Bool := s.codes.isSuffixOf t.codes

/-- The text of a natural number in decimal digits. -/
def ofNat (n : Nat) : Text := ofString (Nat.repr n)

/-- The text of an integer in decimal digits. -/
def ofInt (n : Int) : Text := if n < 0 then ofString "-" ++ ofNat n.natAbs else ofNat n.natAbs

/-! ### Laws -/

theorem ext {a b : Text} (h : a.codes = b.codes) : a = b := by
  cases a; cases b; simp_all

@[simp] theorem codes_append (a b : Text) : (a ++ b).codes = a.codes ++ b.codes := rfl

@[simp] theorem codes_empty : empty.codes = [] := rfl

theorem append_assoc (a b c : Text) : a ++ b ++ c = a ++ (b ++ c) := by
  apply ext; simp

@[simp] theorem length_append (a b : Text) : (a ++ b).length = a.length + b.length := by
  simp [length]

theorem concat_cons (t : Text) (ts : List Text) : concat (t :: ts) = t ++ concat ts := by
  apply ext; simp [concat]

end Text

end ScopeExit
