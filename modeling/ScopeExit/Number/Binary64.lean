import ScopeExit.Number
import ScopeExit.Number.Scale
/-!
Binary64 floats as exact values.

A finite float is `± m · 2 ^ e`; `Exact.ofFloat` reads `m` and `e` off the bits and `ofRatio` goes back,
rounding a quotient of naturals to the nearest float, a tie to the even mantissa.  All arithmetic of
the library that is not plain integer arithmetic happens on exact values and is rounded once.
-/
namespace ScopeExit.Number

/-- The exact value of a float. -/
inductive Exact where
  /-- Not a number. -/
  | nan
  /-- An infinity. -/
  | infinite (negative : Bool)
  /-- The value `m · pow2 e`, or its opposite.  Zero keeps its sign. -/
  | finite (negative : Bool) (m : Nat) (e : Int)

/-- The smallest exponent of a finite float. -/
def minExponent : Int := -1074

/-- The largest exponent of a finite float with a mantissa of 53 bits. -/
def maxExponent : Int := 971

/-- The exact value that the bits of a float stand for. -/
def Exact.ofBits (bits : Nat) : Exact :=
  let negative := bits / pow2 63 % 2 = 1
  let exponent : Nat := bits / pow2 52 % pow2 11
  let fraction : Nat := bits % pow2 52
  if exponent = 2047 then
    if fraction = 0 then .infinite negative else .nan
  else if exponent = 0 then .finite negative fraction minExponent
  else .finite negative (fraction + pow2 52) ((exponent : Int) - 1075)

/-- The exact value of a float. -/
def Exact.ofFloat (x : Float) : Exact := Exact.ofBits x.toBits.toNat

/-- The number `num / den` rounded to an integer, a tie going to the even neighbour. -/
def roundEven (num den : Nat) : Nat :=
  let q := num / den
  let r := 2 * (num % den)
  if r < den then q else if den < r then q + 1 else q + q % 2

/-- The exponent of the float next to `num / den`: the one that leaves 53 bits before the point, but
never below the smallest. -/
def exponentFor (num den : Nat) : Int :=
  let guess : Int := (num.log2 : Int) - (den.log2 : Int) - 52
  -- The quotient lies between 2 ^ (guess + 51) and 2 ^ (guess + 53).
  let small :=
    if guess ≤ 0 then num * pow2 guess.natAbs < pow2 52 * den else num < pow2 (52 + guess.natAbs) * den
  max (if small then guess - 1 else guess) minExponent

/-- The quotient `num / den` in units of `2 ^ e`, rounded. -/
def mantissaFor (num den : Nat) (e : Int) : Nat :=
  if e ≤ 0 then roundEven (num * pow2 e.natAbs) den else roundEven num (den * pow2 e.natAbs)

/-- The bits of `± m · 2 ^ e`, where `m` has at most 53 bits, and all 53 unless `e` is the smallest
exponent. -/
def packBits (negative : Bool) (m : Nat) (e : Int) : Nat :=
  let sign := if negative then pow2 63 else 0
  if e > maxExponent then sign + 2047 * pow2 52
  else if m < pow2 52 then sign + m
  else sign + (e + 1075).toNat * pow2 52 + (m - pow2 52)

/-- The float nearest to `± num / den`; a quotient beyond the largest float gives an infinity. -/
def ofRatio (negative : Bool) (num den : Nat) : Float :=
  let bits :=
    if num = 0 then packBits negative 0 minExponent
    else
      let e := exponentFor num den
      let m := mantissaFor num den e
      if m = pow2 53 then packBits negative (pow2 52) (e + 1) else packBits negative m e
  Float.ofBits bits.toUInt64

/-- Positive infinity. -/
def infinity : Float := Float.ofBits 0x7FF0000000000000

/-- Negative infinity. -/
def negativeInfinity : Float := Float.ofBits 0xFFF0000000000000

/-- The value that is not a number. -/
def notANumber : Float := Float.ofBits 0x7FF8000000000000

/-- The infinity of a sign. -/
def infinityOf (negative : Bool) : Float := if negative then negativeInfinity else infinity

namespace Exact

/-- The float of an exact value of a float. -/
def toFloat : Exact → Float
  | .nan => notANumber
  | .infinite negative => infinityOf negative
  | .finite negative m e =>
    if e ≤ 0 then ofRatio negative m (pow2 e.natAbs) else ofRatio negative (m * pow2 e.natAbs) 1

/-- A value with its sign turned. -/
def neg : Exact → Exact
  | .nan => .nan
  | .infinite s => .infinite (!s)
  | .finite s m e => .finite (!s) m e

/-- Not a number. -/
def isNaN : Exact → Bool
  | .nan => true
  | _ => false

/-- The integer in units of `2 ^ e` of a signed mantissa. -/
def signed (negative : Bool) (m : Nat) : Int := if negative then -(m : Int) else m

/-- The integer that a finite value is, if it is one. -/
def toInt? : Exact → Option Int
  | .finite s m e =>
    if 0 ≤ e then some (signed s (m * pow2 e.natAbs))
    else if m % pow2 e.natAbs = 0 then some (signed s (m / pow2 e.natAbs)) else none
  | _ => none

/-- The integer part of a finite value, fractions cut off toward zero. -/
def truncate? : Exact → Option Int
  | .finite s m e =>
    some (signed s (if 0 ≤ e then m * pow2 e.natAbs else m / pow2 e.natAbs))
  | _ => none

/-- The exact value of an integer. -/
def ofInt (n : Int) : Exact := .finite (n < 0) n.natAbs 0

/-- Two finite values brought to the smaller of their exponents. -/
def align (m : Int) (e : Int) (m' : Int) (e' : Int) : Int × Int × Int :=
  if e ≤ e' then (m, m' * pow2 (e' - e).toNat, e) else (m * pow2 (e - e').toNat, m', e')

/-- How two values compare; nothing compares with a value that is not a number. -/
def compare? : Exact → Exact → Option Ordering
  | .nan, _ | _, .nan => none
  | .infinite s, .infinite s' => some (if s = s' then .eq else if s then .lt else .gt)
  | .infinite s, .finite .. => some (if s then .lt else .gt)
  | .finite .., .infinite s => some (if s then .gt else .lt)
  | .finite s m e, .finite s' m' e' =>
    let (a, b, _) := align (signed s m) e (signed s' m') e'
    some (if a < b then .lt else if a = b then .eq else .gt)

end Exact

/-- The float of an integer, unless the integer is beyond the largest float. -/
def floatOfInt (n : Int) : Except NumberError Float :=
  let x := ofRatio (n < 0) n.natAbs 1
  match Exact.ofFloat x with
  | .finite .. => .ok x
  | _ => .error .tooLarge

/-- The exact value of a number. -/
def exact : Number → Exact
  | .int n => .ofInt n
  | .float x => .ofFloat x

/-- The exact value of a number after it has become a float. -/
def rounded : Number → Except NumberError Exact
  | .int n => (floatOfInt n).map Exact.ofFloat
  | .float x => .ok (.ofFloat x)

/-- An integral float as the integer that it is; every other number is kept. -/
def normalize : Number → Number
  | .int n => .int n
  | .float x =>
    match (Exact.ofFloat x).toInt? with
    | some n => .int n
    | none => .float x

/-- Not a number; integers too large for a float cannot be asked. -/
def isNaN (x : Number) : Except NumberError Bool := x.rounded.map Exact.isNaN

/-- An infinity; integers too large for a float cannot be asked. -/
def isInfinite (x : Number) : Except NumberError Bool := do
  match ← x.rounded with
  | .infinite _ => pure true
  | _ => pure false

/-- Equality of the exact values, false when one is not a number. -/
def eqv (x y : Number) : Bool := x.exact.compare? y.exact == some .eq

/-- The order of the exact values, false when one is not a number. -/
def lt (x y : Number) : Bool := x.exact.compare? y.exact == some .lt

/-- The order of the exact values or equality, false when one is not a number. -/
def le (x y : Number) : Bool := x.lt y || x.eqv y

/-- Zero of either kind and sign. -/
def isZero (x : Number) : Bool := x.eqv 0

end ScopeExit.Number
