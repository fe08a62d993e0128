import ScopeExit.Heap
/-!
Lexical scopes: where names are bound.

Scopes are handed out in order and refer to the scope around them, which is always older.  Functions
refer to the scope that they were made in, so all closures of a scope see the same bindings.
-/
namespace ScopeExit

/-- A scope. -/
structure Scope where
  /-- The scope around it. -/
  parent : Option Nat := none
  /-- The activation whose code runs in it; the outermost scope has none. -/
  activation : Option Nat := none
  bindings : List (Text × Value) := []
  /-- The names that may not be assigned. -/
  constants : List Text := []
  /-- The scope of a whole function or of the module. -/
  isFunction : Bool := false
  deriving Inhabited

/-- All scopes. -/
structure Scopes where
  all : Array Scope := #[]
  deriving Inhabited

namespace Scopes

/-- A scope. -/
def get (s : Scopes) (i : Nat) : Scope := s.all.getD i default

/-- A new scope. -/
def add (s : Scopes) (scope : Scope) : Nat × Scopes := (s.all.size, ⟨s.all.push scope⟩)

/-- A new scope inside another one, for the same activation. -/
def child (s : Scopes) (i : Nat) : Nat × Scopes :=
  s.add { parent := some i, activation := (s.get i).activation }

/-- A new scope beside another one, with bindings of its own that start with the same values. -/
def copy (s : Scopes) (i : Nat) : Nat × Scopes := s.add { s.get i with isFunction := false }

/-- The innermost scope around a scope, itself included, that has a property. -/
def findFrom (s : Scopes) (found : Scope → Bool) : Nat → Nat → Option Nat
  | 0, _ => none
  | fuel + 1, i =>
    if found (s.get i) then some i
    else
      match (s.get i).parent with
      | some p => s.findFrom found fuel p
      | none => none

/-- The innermost scope that binds a name. -/
def resolve? (s : Scopes) (i : Nat) (name : Text) : Option Nat :=
  s.findFrom (fun scope => (lookupKey name scope.bindings).isSome) (s.all.size + 1) i

/-- The value of a name in a scope itself. -/
def binding? (s : Scopes) (i : Nat) (name : Text) : Option Value :=
  lookupKey name (s.get i).bindings

/-- The scope of the whole function around a scope. -/
def functionScope (s : Scopes) (i : Nat) : Nat :=
  (s.findFrom (fun scope => scope.isFunction || scope.parent.isNone) (s.all.size + 1) i).getD i

/-- Binds a name in a scope itself. -/
def bind (s : Scopes) (i : Nat) (name : Text) (value : Value) : Scopes :=
  ⟨s.all.modify i fun scope => { scope with bindings := insertKey name value scope.bindings }⟩

/-- Forbids the assignment of a name of a scope. -/
def makeConstant (s : Scopes) (i : Nat) (name : Text) : Scopes :=
  ⟨s.all.modify i fun scope => { scope with constants := name :: scope.constants }⟩

/-- A name of a scope may not be assigned. -/
def isConstant (s : Scopes) (i : Nat) (name : Text) : Bool := (s.get i).constants.contains name

/-- The activation whose code runs in a scope. -/
def activation (s : Scopes) (i : Nat) : Nat := (s.get i).activation.getD 0

end Scopes

end ScopeExit
