import ScopeExit.Text
import ScopeExit.Text.Ranges
/-!
White space and its removal from both ends of a text.

White space are the code points of the Unicode property `White_Space` and the four information
separators U+001C to U+001F.
-/
namespace ScopeExit

/-- The ranges of white space. -/
def Text.blanks : Text.Ranges := [
  (0x9, 0xD), (0x1C, 0x20), (0x85, 0x85), (0xA0, 0xA0), (0x1680, 0x1680), (0x2000, 0x200A),
  (0x2028, 0x2029), (0x202F, 0x202F), (0x205F, 0x205F), (0x3000, 0x3000)]

/-- White space. -/
def CodePoint.isBlank (c : CodePoint) : Bool := Text.blanks.contains c.val

/-- A text without the white space at its two ends. -/
def Text.strip (t : Text) : Text :=
  ⟨((t.codes.dropWhile CodePoint.isBlank).reverse.dropWhile CodePoint.isBlank).reverse⟩

example : Text.blanks.ordered = true := by decide

theorem Text.strip_empty : Text.empty.strip = Text.empty := rfl

end ScopeExit
