import ScopeExit.Number.Arithmetic
/-!
Powers.

An integer to a natural power is exact; every other power is a power of floats.  What is beyond the
range of floats is positive infinity, whatever its sign, and so is a negative power of zero.  A
negative float to a power that is not integral is no real number.
-/
namespace ScopeExit.Number

/-- An exact value that is an odd integer. -/
def Exact.isOdd (x : Exact) : Bool :=
  match x.toInt? with
  | some n => n % 2 ≠ 0
  | none => false

/-- A result of the power of two finite floats, where an infinity means that the range is left. -/
def boundedPower (x : Float) : Float :=
  match Exact.ofFloat x with
  | .infinite _ => infinity
  | _ => x

/-- The power of two floats with a positive finite base. -/
def positivePower (base exponent : Float) : Float := boundedPower (base.pow exponent)

/-- The power of an infinite base by a number that is not zero. -/
def powerOfInfinity (negative : Bool) (exponent : Exact) : Float :=
  let odd := exponent.isOdd
  match exponent with
  | .finite false _ _ => infinityOf (negative && odd)
  | _ => ofRatio (negative && odd) 0 1

/-- The power of two floats. -/
def floatPower (base exponent : Float) : Float :=
  match Exact.ofFloat base, Exact.ofFloat exponent with
  | _, .finite _ 0 _ => ofRatio false 1 1
  | .nan, _ => notANumber
  | b, .nan => if b.compare? (.ofInt 1) == some .eq then ofRatio false 1 1 else notANumber
  | .infinite _, .infinite s => if s then ofRatio false 0 1 else infinity
  | .finite _ m e, .infinite s =>
    match Exact.compare? (.finite false m e) (.ofInt 1) with
    | some .eq => ofRatio false 1 1
    | some .gt => if s then ofRatio false 0 1 else infinity
    | _ => if s then infinity else ofRatio false 0 1
  | .infinite s, x => powerOfInfinity s x
  | .finite s 0 _, .finite s' m' e' =>
    if s' then infinity else ofRatio (s && Exact.isOdd (.finite s' m' e')) 0 1
  | .finite false _ _, .finite .. => positivePower base exponent
  | .finite true m e, .finite s' m' e' =>
    let magnitude := (Exact.finite false m e).toFloat
    let power := positivePower magnitude exponent
    match (Exact.finite s' m' e').toInt? with
    | none =>
      match Exact.ofFloat power with
      | .infinite _ => infinity
      | _ => notANumber
    | some n =>
      match Exact.ofFloat power with
      | .infinite _ => infinity
      | p => if n % 2 ≠ 0 then p.neg.toFloat else power

/-- An integer to a natural power.  The powers of zero and of one need no multiplication, whatever the
exponent. -/
def intPower (base : Int) (n : Nat) : Int :=
  let magnitude :=
    if n = 0 || base.natAbs = 1 then 1 else if base = 0 then 0 else Nat.pow base.natAbs n
  if base < 0 && n % 2 ≠ 0 then -magnitude else magnitude

/-- The power.  An integer that is too large to become a float counts as beyond the range. -/
def pow : Number → Number → Number
  | .int a, .int (.ofNat n) => .int (intPower a n)
  | x, y =>
    match x.rounded, y.rounded with
    | .ok a, .ok b => normalize (.float (floatPower a.toFloat b.toFloat))
    | _, _ => .float infinity

end ScopeExit.Number
