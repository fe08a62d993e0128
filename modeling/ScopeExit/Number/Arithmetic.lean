import ScopeExit.Number.Binary64
/-!
Arithmetic on numbers.

Two integers are combined exactly.  As soon as a float takes part, both operands become floats, the
exact result is rounded once, and a result that is integral is an integer again.  Division of two
integers rounds their exact quotient.
-/
namespace ScopeExit.Number

/-- The float of `m · 2 ^ e`. -/
def ofScaled (m : Int) (e : Int) : Float := Exact.toFloat (.finite (m < 0) m.natAbs e)

/-- The sum of two exact values, rounded. -/
def addExact : Exact → Exact → Float
  | .nan, _ | _, .nan => notANumber
  | .infinite s, .infinite s' => if s = s' then infinityOf s else notANumber
  | .infinite s, .finite .. | .finite .., .infinite s => infinityOf s
  | .finite s m e, .finite s' m' e' =>
    let (a, b, k) := Exact.align (Exact.signed s m) e (Exact.signed s' m') e'
    ofScaled (a + b) k

/-- The product of two exact values, rounded. -/
def mulExact : Exact → Exact → Float
  | .nan, _ | _, .nan => notANumber
  | .infinite s, .infinite s' => infinityOf (s != s')
  | .infinite s, .finite s' m _ | .finite s' m _, .infinite s =>
    if m = 0 then notANumber else infinityOf (s != s')
  | .finite s m e, .finite s' m' e' => Exact.toFloat (.finite (s != s') (m * m') (e + e'))

/-- The quotient of two exact values whose second is not zero, rounded. -/
def divExact : Exact → Exact → Float
  | .nan, _ | _, .nan => notANumber
  | .infinite _, .infinite _ => notANumber
  | .infinite s, .finite s' _ _ => infinityOf (s != s')
  | .finite s _ _, .infinite s' => ofRatio (s != s') 0 1
  | .finite s m e, .finite s' m' e' =>
    let k := e - e'
    ofRatio (s != s') (m * pow2 k.toNat) (m' * pow2 (-k).toNat)

/-- The remainder of a finite value by a value that is not zero; it has the sign of the first. -/
def remExact : Exact → Exact → Float
  | .finite s m e, .finite s' m' e' =>
    let (a, b, k) := Exact.align m e (Exact.signed s' m') e'
    Exact.toFloat (.finite s (a.natAbs % b.natAbs) k)
  | .finite s m e, .infinite _ => Exact.toFloat (.finite s m e)
  | _, _ => notANumber

/-- An operation on floats, applied to numbers. -/
def viaFloats (f : Exact → Exact → Float) (x y : Number) : Except NumberError Number := do
  let a ← x.rounded
  let b ← y.rounded
  pure (normalize (.float (f a b)))

/-- The sum. -/
def add : Number → Number → Except NumberError Number
  | .int a, .int b => .ok (.int (a + b))
  | x, y => viaFloats addExact x y

/-- The difference. -/
def sub : Number → Number → Except NumberError Number
  | .int a, .int b => .ok (.int (a - b))
  | x, y => viaFloats (fun a b => addExact a b.neg) x y

/-- The product. -/
def mul : Number → Number → Except NumberError Number
  | .int a, .int b => .ok (.int (a * b))
  | x, y => viaFloats mulExact x y

/-- The opposite. -/
def neg : Number → Number
  | .int n => .int (-n)
  | .float x => normalize (.float (Exact.ofFloat x).neg.toFloat)

/-- The sign of a number; only floats have a negative zero. -/
def isNegative (x : Number) : Bool :=
  match x.exact with
  | .finite s _ _ | .infinite s => s
  | .nan => false

/-- The quotient of two integers, rounded. -/
def divInts (a b : Int) : Except NumberError Number :=
  let x := ofRatio ((a < 0) != (b < 0)) a.natAbs b.natAbs
  match Exact.ofFloat x with
  | .finite .. => .ok (normalize (.float x))
  | _ => .error .quotientTooLarge

/-- The quotient.  Division by zero gives an infinity, or no number if zero is divided. -/
def div (x y : Number) : Except NumberError Number :=
  if y.isZero then do
    if x.isZero || (← x.isNaN) then pure (.float notANumber)
    else pure (.float (infinityOf (x.isNegative != y.isNegative)))
  else
    match x, y with
    | .int a, .int b => divInts a b
    | x, y => viaFloats divExact x y

/-- The remainder of truncated division of the two floats; integers become floats first. -/
def mod (x y : Number) : Except NumberError Number := do
  if y.isZero then pure (.float notANumber)
  else if ← x.isInfinite then pure (.float notANumber)
  else if ← x.isNaN then pure (.float notANumber)
  else if ← y.isNaN then pure (.float notANumber)
  else viaFloats remExact x y

/-- The value modulo `2 ^ 32` in the range of signed 32-bit integers; zero for what is not finite. -/
def toInt32 (x : Number) : Except NumberError Int := do
  let whole ← match x with
    | .int n => do
      let _ ← x.rounded
      pure n
    | .float f => pure ((Exact.ofFloat f).truncate?.getD 0)
  let r := whole % wordSize
  pure (if r ≥ signBit then r - wordSize else r)

/-- The value modulo `2 ^ 32` in the range of unsigned 32-bit integers. -/
def toUInt32 (x : Number) : Except NumberError Int := do
  let n ← x.toInt32
  pure (n % wordSize)

end ScopeExit.Number
