import ScopeExit.Number.Literal
import ScopeExit.Text.Quoted
/-!
Script values seen from outside.

A `Datum` is the unfolding of a value into a tree: what goes into a program as a literal and what a
report shows of a value.  Objects have no identity here unless they are `named`; a part that is
already open on the path from the root is shown as a cycle.
-/
namespace ScopeExit

/-- A value as a tree. -/
inductive Datum where
  /-- The value `null`, which also stands for an absent value. -/
  | null
  | undefined
  | bool (b : Bool)
  | number (n : Number)
  | text (t : Text)
  | array (items : List Datum)
  /-- An object of a class with its properties in the order of their creation. -/
  | object (className : Text) (properties : List (Text × Datum))
  | function (name : Text) (params : List Datum) (isAsync isGenerator : Bool)
  /-- A built-in function. -/
  | native (name : Text)
  | generator (name : Text)
  | promise
  /-- An array or another object that is open on the path from the root. -/
  | cycle (isArray : Bool)
  /-- The object of a name: the same object wherever the name stands. -/
  | named (key : Nat) (value : Datum)

instance : Inhabited Datum := ⟨.null⟩

namespace Datum

/-- No value. -/
def isNull : Datum → Bool
  | .null => true
  | _ => false

/-- Arrays and objects, which have an identity when a program holds them. -/
def isComposite : Datum → Bool
  | .array _ | .object .. | .function .. | .native _ | .generator _ => true
  | _ => false

mutual

/-- A value as listings show it. -/
def listing : Datum → Except NumberError Text
  | .null => .ok "None"
  | .undefined => .ok "undefined"
  | .bool b => .ok (if b then "True" else "False")
  | .number n => n.literal
  | .text t => .ok t.quoted
  | .array items => do pure (Text.concat ["[", Text.join ", " (← listings items), "]"])
  | .object className properties => do
    pure (Text.concat ["JSObject(properties=\x7b", Text.join ", " (← entries properties),
      "\x7d, class_name=", className.quoted, ")"])
  | .function name _ _ _ => .ok (Text.concat ["<function ", name, ">"])
  | .native name => .ok (Text.concat ["<native ", name, ">"])
  | .generator name => .ok (Text.concat ["<generator ", name, ">"])
  | .promise => .ok "<promise>"
  | .cycle isArray => .ok (if isArray then "[...]" else "...")
  | .named _ value => listing value

/-- The listings of several values. -/
def listings : List Datum → Except NumberError (List Text)
  | [] => .ok []
  | d :: ds => do
    let t ← listing d
    pure (t :: (← listings ds))

/-- The properties of an object as its listing shows them. -/
def entries : List (Text × Datum) → Except NumberError (List Text)
  | [] => .ok []
  | (k, d) :: ds => do
    let t ← listing d
    pure (Text.concat [k.quoted, ": ", t] :: (← entries ds))

end

/-- A value inside a message: a text stands for itself, all else as in a listing. -/
def inMessage : Datum → Except NumberError Text
  | .text t => .ok t
  | .named _ (.text t) => .ok t
  | d => d.listing

end Datum

end ScopeExit
