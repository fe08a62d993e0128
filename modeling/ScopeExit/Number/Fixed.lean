import ScopeExit.Number.Binary64
/-!
Floats with a fixed number of decimal places.

The exact value is rounded to the last place, a tie going to the even digit, so the text depends only
on the value of the float.
-/
namespace ScopeExit.Number

/-- The digits of a value of `n` units of the last place, with a point before the last `places`. -/
def pointed (places n : Nat) : String :=
  let whole := Nat.repr (n / pow10 places)
  if places = 0 then whole
  else
    let fraction := Nat.repr (n % pow10 places)
    whole ++ "." ++ "".pushn '0' (places - fraction.length) ++ fraction

/-- A float with a fixed number of decimal places. -/
def fixed (places : Nat) (x : Float) : String :=
  match Exact.ofFloat x with
  | .nan => "nan"
  | .infinite s => if s then "-inf" else "inf"
  | .finite s m e =>
    let n := roundEven (m * pow2 e.toNat * pow10 places) (pow2 (-e).toNat)
    (if s then "-" else "") ++ pointed places n

/-- The float nearest to a float's text with a fixed number of decimal places. -/
def roundedTo (places : Nat) (x : Float) : Float :=
  match Exact.ofFloat x with
  | .finite s m e =>
    ofRatio s (roundEven (m * pow2 e.toNat * pow10 places) (pow2 (-e).toNat)) (pow10 places)
  | _ => x

end ScopeExit.Number
