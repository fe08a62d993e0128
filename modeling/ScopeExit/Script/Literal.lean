import ScopeExit.Tree.Node
/-!
The identity of literals.

A literal of an array or an object is one object of the program: every evaluation of the node gives
the same one.  Before a program runs, such literals get names of their own, so that loading their data
twice gives the same object.
-/
namespace ScopeExit.Node

mutual

/-- A number above all names of objects in data. -/
def nextKeyOf : Datum → Nat
  | .named key d => max (key + 1) (nextKeyOf d)
  | .array items => nextKeyOfAll items
  | .object _ properties => nextKeyOfEntries properties
  | _ => 0

/-- A number above all names of objects in several data. -/
def nextKeyOfAll : List Datum → Nat
  | [] => 0
  | d :: ds => max (nextKeyOf d) (nextKeyOfAll ds)

/-- A number above all names of objects in the properties of an object. -/
def nextKeyOfEntries : List (Text × Datum) → Nat
  | [] => 0
  | (_, d) :: ds => max (nextKeyOf d) (nextKeyOfEntries ds)

end

mutual

/-- A number above the names of all literals of a tree. -/
def freshKey : Node → Nat
  | ⟨_, value, _, params, children, _, _, _, _⟩ =>
    max (nextKeyOf value) (max (freshKeyAll params) (freshKeyAll children))

/-- A number above the names of all literals of several trees. -/
def freshKeyAll : List Node → Nat
  | [] => 0
  | n :: ns => max (freshKey n) (freshKeyAll ns)

end

mutual

/-- A tree whose literals of arrays and objects have names, and the next free name. -/
def nameLiterals : Nat → Node → Node × Nat
  | key, ⟨kind, value, label, params, children, a, g, l, span⟩ =>
    let (value, key) := if value.isComposite then (.named key value, key + 1) else (value, key)
    let (params, key) := nameAllLiterals key params
    let (children, key) := nameAllLiterals key children
    (⟨kind, value, label, params, children, a, g, l, span⟩, key)

/-- Several trees whose literals have names. -/
def nameAllLiterals : Nat → List Node → List Node × Nat
  | key, [] => ([], key)
  | key, n :: ns =>
    let (n, key) := nameLiterals key n
    let (ns, key) := nameAllLiterals key ns
    (n :: ns, key)

end

/-- A program whose literals of arrays and objects have an identity. -/
def withIdentities (program : Node) : Node := (program.nameLiterals program.freshKey).1

end ScopeExit.Node
