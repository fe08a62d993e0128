import ScopeExit.Number.Binary64
import ScopeExit.Text
/-!
Script values.

Numbers, texts, booleans, `null` and `undefined` are their own content.  Every other value is a
reference: two of them are the same value exactly when they refer to the same place.
-/
namespace ScopeExit

/-- How a generator is resumed. -/
inductive ResumeMode where
  | next | return | throw
  deriving DecidableEq

/-- The method of a generator that resumes it in a mode. -/
def ResumeMode.name : ResumeMode → String
  | .next => "next"
  | .return => "return"
  | .throw => "throw"

/-- What a built-in function does. -/
inductive Builtin where
  | log | tick | sleep | toText
  /-- The constructor of a class of errors. -/
  | makeError (className : Text)
  /-- The constructor of errors that suppress another one. -/
  | makeSuppressed
  /-- The method of an array that appends to it. -/
  | push (array : Nat)
  /-- The method of an array that joins its elements. -/
  | join (array : Nat)
  /-- A method of a generator. -/
  | resume (generator : Nat) (mode : ResumeMode)
  /-- A function of which only the name is known. -/
  | named (name : Text)
  deriving DecidableEq

/-- The class of errors that suppress another one. -/
def suppressedErrorName : Text := "SuppressedError"

/-- The name of a built-in function. -/
def Builtin.name : Builtin → Text
  | .log => "log"
  | .tick => "tick"
  | .sleep => "sleep"
  | .toText => "String"
  | .makeError className => className
  | .makeSuppressed => suppressedErrorName
  | .push _ => "push"
  | .join _ => "join"
  | .resume _ mode => mode.name
  | .named name => name

/-- A built-in function.  Those that are methods are made anew whenever they are looked up, so a
function has an identity of its own. -/
structure Native where
  id : Nat
  builtin : Builtin
  deriving DecidableEq

/-- A script value. -/
inductive Value where
  | undefined
  | null
  | bool (b : Bool)
  | number (n : Number)
  | text (t : Text)
  | array (ref : Nat)
  | object (ref : Nat)
  | function (ref : Nat)
  | native (n : Native)
  | generator (ref : Nat)
  | promise (ref : Nat)

instance : Inhabited Value := ⟨.undefined⟩

namespace Value

/-- The value of an integer. -/
def ofInt (n : Int) : Value := .number (.int n)

/-- The value of a float. -/
def ofFloat (x : Float) : Value := .number (.float x)

/-- The two values that stand for no value. -/
def isNullish : Value → Bool
  | .undefined | .null => true
  | _ => false

/-- The value `undefined`. -/
def isUndefined : Value → Bool
  | .undefined => true
  | _ => false

/-- The kind of a value in scripts. -/
def typeName : Value → String
  | .undefined => "undefined"
  | .bool _ => "boolean"
  | .number _ => "number"
  | .text _ => "string"
  | .function _ | .native _ => "function"
  | _ => "object"

/-- Functions of either sort. -/
def isFunction : Value → Bool
  | .function _ | .native _ => true
  | _ => false

/-- Equality without conversion: numbers by value, references by place. -/
def strictEquals : Value → Value → Bool
  | .undefined, .undefined => true
  | .null, .null => true
  | .bool a, .bool b => a == b
  | .number a, .number b => a.eqv b
  | .text a, .text b => a == b
  | .array a, .array b => a == b
  | .object a, .object b => a == b
  | .function a, .function b => a == b
  | .native a, .native b => a.id == b.id
  | .generator a, .generator b => a == b
  | .promise a, .promise b => a == b
  | _, _ => false

end Value

end ScopeExit
