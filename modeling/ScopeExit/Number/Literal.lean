import ScopeExit.Number.Shortest
import ScopeExit.Number.Reading
import ScopeExit.Text
/-!
Numbers as texts.

There are two spellings.  A listing keeps the kinds apart: a float always shows a point, an exponent
or a name.  A script sees only the value: an integral float is written like the integer it is.
-/
namespace ScopeExit.Number

/-- An integer in decimal digits, unless there are too many of them. -/
def intText (n : Int) : Except NumberError Text :=
  if pow10 maxDigits ≤ n.natAbs then .error .tooManyDigits else .ok (Text.ofInt n)

/-- A number as listings show it. -/
def literal : Number → Except NumberError Text
  | .int n => intText n
  | .float x => .ok (floatLiteral x)

/-- A number as scripts see it. -/
def render : Number → Except NumberError Text
  | .int n => intText n
  | .float x =>
    match Exact.ofFloat x with
    | .nan => .ok "NaN"
    | .infinite s => .ok (if s then "-Infinity" else "Infinity")
    | v =>
      match v.toInt? with
      | some n => intText n
      | none => .ok (floatLiteral x)

end ScopeExit.Number
