import ScopeExit.Number.Power
import ScopeExit.Value.Conversion
/-!
The operators of scripts.

Operands are converted as the operator asks and combined; the table at the end names the operators.
Equality without conversion is `Value.strictEquals`.
-/
namespace ScopeExit

namespace Heap

variable (h : Heap)

/-- Equality with conversion.  No value equals only no value; truth values count as numbers, and a
text beside a number counts as a number. -/
def looseEquals (a b : Value) : Bool :=
  if a.isNullish || b.isNullish then a.isNullish && b.isNullish
  else
    match a, b with
    | .bool _, _ | _, .bool _ => (h.number a).eqv (h.number b)
    | .number _, .text _ | .text _, .number _ => (h.number a).eqv (h.number b)
    | a, b => a.strictEquals b

/-- Values that addition joins as texts. -/
def isJoined : Value → Bool
  | .text _ | .array _ | .object _ => true
  | _ => false

/-- Addition of numbers, or joining of texts. -/
def add (a b : Value) : Conversion Value :=
  if isJoined a || isJoined b then do
    let s ← h.text a
    let t ← h.text b
    pure (.text (s ++ t))
  else do pure (.number (← ofNumeric ((h.number a).add (h.number b))))

/-- An operation on the numbers of two values. -/
def numeric (f : Number → Number → Except NumberError Number) (a b : Value) : Conversion Value := do
  pure (.number (← ofNumeric (f (h.number a) (h.number b))))

/-- The four order comparisons. -/
inductive Comparison where
  | less | greater | atMost | atLeast

/-- A comparison of two texts. -/
def Comparison.texts : Comparison → Text → Text → Bool
  | .less, s, t => s.lt t
  | .greater, s, t => t.lt s
  | .atMost, s, t => !t.lt s
  | .atLeast, s, t => !s.lt t

/-- A comparison of two numbers. -/
def Comparison.numbers : Comparison → Number → Number → Bool
  | .less, x, y => x.lt y
  | .greater, x, y => y.lt x
  | .atMost, x, y => x.le y
  | .atLeast, x, y => y.le x

/-- An order comparison: texts as texts, all else as numbers, of which none compares with what is no
number. -/
def compare (c : Comparison) : Value → Value → Conversion Value
  | .text s, .text t => .ok (.bool (c.texts s t))
  | a, b => do
    let x := h.number a
    let y := h.number b
    if ← ofNumeric x.isNaN then pure (.bool false)
    else if ← ofNumeric y.isNaN then pure (.bool false)
    else pure (.bool (c.numbers x y))

/-- The value as a signed 32-bit integer. -/
def int32 (v : Value) : Conversion Int := ofNumeric (h.number v).toInt32

/-- The value as an unsigned 32-bit integer. -/
def uint32 (v : Value) : Conversion Int := ofNumeric (h.number v).toUInt32

/-- An integer modulo `2 ^ 32` in the signed range. -/
def wrap32 (n : Int) : Int :=
  let r := n % Number.wordSize
  if r ≥ Number.signBit then r - Number.wordSize else r

/-- A bitwise operation on two signed 32-bit integers, given by its action on single bits. -/
def bitwise (f : Nat → Nat → Nat) (a b : Value) : Conversion Value := do
  let x ← h.int32 a
  let y ← h.int32 b
  pure (.ofInt (wrap32 (f (x % Number.wordSize).toNat (y % Number.wordSize).toNat)))

/-- The distance of a shift. -/
def shiftDistance (v : Value) : Conversion Nat := do
  let n ← h.uint32 v
  pure (n % 32).toNat

/-- A shift to the left modulo `2 ^ 32`. -/
def shiftLeft (a b : Value) : Conversion Value := do
  let x ← h.int32 a
  let n ← h.shiftDistance b
  pure (.ofInt (wrap32 (x * Number.pow2 n)))

/-- A shift to the right that keeps the sign. -/
def shiftRight (a b : Value) : Conversion Value := do
  let x ← h.int32 a
  let n ← h.shiftDistance b
  pure (.ofInt (x / Number.pow2 n))

/-- A shift to the right of the unsigned value. -/
def shiftRightUnsigned (a b : Value) : Conversion Value := do
  let x ← h.uint32 a
  let n ← h.shiftDistance b
  pure (.ofInt (x / Number.pow2 n))

/-- Whether an object has a property or an array an element. -/
def hasProperty (key container : Value) : Conversion Value :=
  match container with
  | .object ref => do
    let k ← h.text key
    pure (.bool (h.property? ref k).isSome)
  | .array ref =>
    let isLength := match key with
      | .text t => t == "length"
      | _ => false
    let isElement := match h.number key with
      | .int n => 0 ≤ n && n < (h.elements ref).size
      | .float _ => false
    .ok (.bool (isLength || isElement))
  | _ => do
    let k ← h.text key
    let c ← h.text container
    throw (.typeError
      (Text.concat ["Cannot use 'in' operator to search for '", k, "' in ", c]))

/-- The class name of the errors in general. -/
def errorName : Text := "Error"

/-- Whether an object belongs to the class of a constructor. -/
def instanceOf (value constructor : Value) : Conversion Value :=
  let decide (name : Text) : Conversion Value :=
    match value with
    | .object ref =>
      let o := h.object ref
      .ok (.bool (if name = errorName then o.isError else o.className == name))
    | _ => .ok (.bool false)
  match constructor with
  | .function ref => decide (h.closure ref).name
  | .native n => decide n.builtin.name
  | _ => .error (.typeError "Right-hand side of 'instanceof' is not callable")

/-- An operator that the table does not have. -/
def unsupportedOperator (op : Text) : Failure :=
  .typeError (Text.concat ["Unsupported operator ", op])

/-- A truth value. -/
def yes (b : Bool) : Conversion Value := .ok (.bool b)

/-- The binary operators by name. -/
def binaryNamed? : String → Option (Value → Value → Conversion Value)
  | "+" => some h.add
  | "-" => some (h.numeric Number.sub)
  | "*" => some (h.numeric Number.mul)
  | "/" => some (h.numeric Number.div)
  | "%" => some (h.numeric Number.mod)
  | "**" => some (h.numeric fun x y => .ok (x.pow y))
  | "==" => some fun a b => yes (h.looseEquals a b)
  | "!=" => some fun a b => yes !(h.looseEquals a b)
  | "===" => some fun a b => yes (a.strictEquals b)
  | "!==" => some fun a b => yes !(a.strictEquals b)
  | "<" => some (h.compare .less)
  | ">" => some (h.compare .greater)
  | "<=" => some (h.compare .atMost)
  | ">=" => some (h.compare .atLeast)
  | "&" => some (h.bitwise (· &&& ·))
  | "|" => some (h.bitwise (· ||| ·))
  | "^" => some (h.bitwise (· ^^^ ·))
  | "<<" => some h.shiftLeft
  | ">>" => some h.shiftRight
  | ">>>" => some h.shiftRightUnsigned
  | "in" => some h.hasProperty
  | "instanceof" => some h.instanceOf
  | _ => none

/-- The value of a binary operator. -/
def binary (op : Text) (a b : Value) : Conversion Value :=
  match op.toString?.bind h.binaryNamed? with
  | some f => f a b
  | none => .error (unsupportedOperator op)

/-- The unary operators by name. -/
def unaryNamed? : String → Option (Value → Conversion Value)
  | "!" => some fun v => do pure (.bool !(← v.truthy))
  | "-" => some fun v => .ok (.number (h.number v).neg)
  | "+" => some fun v => .ok (.number (h.number v))
  | "~" => some fun v => do pure (.ofInt (-(← h.int32 v) - 1))
  | "typeof" => some fun v => .ok (.text v.typeName)
  | "void" => some fun _ => .ok .undefined
  | _ => none

/-- The value of a unary operator. -/
def unary (op : Text) (v : Value) : Conversion Value :=
  match op.toString?.bind h.unaryNamed? with
  | some f => f v
  | none => .error (unsupportedOperator op)

end Heap

end ScopeExit
