import ScopeExit.Proofs.Number.Representation
import ScopeExit.Proofs.Script.Scoping
/-!
What assignments do.

An assignment, a combined assignment and an update come down to one step that puts a value into the binding that a
name means.  If the binding is constant the step raises a failure and changes nothing, otherwise the binding has
the value from then on.
-/
namespace ScopeExit.Script

open World

/-- The failure of an assignment to a constant. -/
def constantFailure : Failure := .typeError "Assignment to constant variable."

/-- A step has a value to put into what a name means in a scope. -/
inductive Running.Puts (name : Text) (scope : Nat) (v : Value) : Running → Prop
  | value {w : World} {stack : Stack} : Puts name scope v ⟨w, .value v, .assignValue (.name name scope) :: stack⟩
  | combined {w : World} {op : Text} {current operand : Value} {stack : Stack}
      (combines : w.heap.binary ⟨op.codes.dropLast⟩ current operand = .ok v) :
      Puts name scope v ⟨w, .value operand, .assignCombined (.name name scope) (some op) current :: stack⟩
  | update {w : World} {node target : Node} {rest : List Node} {current : Value} {stack : Stack}
      (kind : node.kind = .update) (children : node.children = target :: rest)
      (identifier : target.kind = .identifier) (own : target.name = name) (known : w.lookup scope name = .ok current)
      (combines : w.heap.binary (if node.name == "++" then "+" else "-") (.number (w.heap.number current)) (.ofInt 1) =
        .ok v) : Puts name scope v ⟨w, .evaluate node scope, stack⟩

section Puts

variable {w : World} {stack : Stack} {name : Text} {scope i : Nat} {v : Value} {s : Running}

/-- Adding one to a number, or taking one away, always gives a number. -/
theorem combines_one (h : Heap) (up : Bool) (x : Number) :
    ∃ v, h.binary (if up then "+" else "-") (.number x) (.ofInt 1) = .ok v := by
  obtain ⟨one, rounded, -⟩ : ∃ v, (Number.int 1).rounded = .ok v ∧ Number.Whole 1 v := by
    refine Number.Fits.rounded_whole (fun n hn => ?_) rfl
    obtain rfl := Number.int.inj hn
    decide
  have floats : ∀ (f : Number.Exact → Number.Exact → Float) (y : Float),
      ∃ z, Number.viaFloats f (.float y) (.int 1) = .ok z := by
    intro f y
    refine ⟨Number.normalize (.float (f (.ofFloat y) one)), ?_⟩
    rw [Number.viaFloats, rounded]
    rfl
  have sums : ∀ {y : Except NumberError Number} {z : Number}, y = .ok z →
      ∃ v, (do pure (Value.number (← ofNumeric y)) : Conversion Value) = .ok v := by
    rintro _ z rfl
    exact ⟨.number z, rfl⟩
  cases up with
  | true =>
    show ∃ v, h.add (.number x) (.ofInt 1) = .ok v
    cases x with
    | int n => exact ⟨_, rfl⟩
    | float y => exact sums (floats _ y).choose_spec
  | false =>
    show ∃ v, h.numeric Number.sub (.number x) (.ofInt 1) = .ok v
    cases x with
    | int n => exact ⟨_, rfl⟩
    | float y => exact sums (floats _ y).choose_spec

theorem lookup_of_resolves (resolves : w.scopes.resolve? scope name = some i) :
    w.lookup scope name = .ok ((w.scopes.binding? i name).getD .undefined) := by
  rw [World.lookup, resolves]

theorem store_constant (resolves : w.scopes.resolve? scope name = some i)
    (constant : w.scopes.isConstant i name = true) (v result : Value) :
    w.store stack (.name name scope) v result = ⟨w, .raise constantFailure, stack⟩ := by
  simp only [World.store, World.writePlace, World.assign, World.assignable, resolves, constant]
  rfl

theorem store_open (resolves : w.scopes.resolve? scope name = some i)
    (free : w.scopes.isConstant i name = false) (v result : Value) :
    w.store stack (.name name scope) v result = ⟨w.bind i name v, .value result, stack⟩ := by
  simp only [World.store, World.writePlace, World.assign, World.assignable, resolves, free]
  rfl

/-- What a step does that has a value for a name comes down to storing it. -/
theorem Running.Puts.stores (puts : s.Puts name scope v) :
    ∃ result stack, s.step = .next (s.world.store stack (.name name scope) v result) := by
  cases puts with
  | value => exact ⟨v, _, rfl⟩
  | @combined w op current operand stack combines =>
    refine ⟨v, stack, ?_⟩
    simp only [Running.step, World.onValue, World.assignCombined, combines]
    rfl
  | @update w node target rest current stack kind children identifier own known combines =>
    refine ⟨if node.isLeading then v else .number (w.heap.number current), stack, ?_⟩
    simp only [Running.step, World.evaluate, kind, children, World.findPlace, identifier, own, World.usePlace,
      World.update, World.readPlace, known, World.attempt, World.perform, combines]
    rfl

/-- A constant stays as it is, and the attempt to assign it fails. -/
theorem Running.Puts.constant (puts : s.Puts name scope v) (resolves : s.world.scopes.resolve? scope name = some i)
    (constant : s.world.scopes.isConstant i name = true) :
    ∃ stack, s.step = .next ⟨s.world, .raise constantFailure, stack⟩ := by
  obtain ⟨result, stack, e⟩ := puts.stores
  exact ⟨stack, by rw [e, store_constant resolves constant]⟩

/-- A variable has the value from then on, and nothing else changes. -/
theorem Running.Puts.free (puts : s.Puts name scope v) (resolves : s.world.scopes.resolve? scope name = some i)
    (free : s.world.scopes.isConstant i name = false) :
    ∃ result stack, s.step = .next ⟨s.world.bind i name v, .value result, stack⟩ := by
  obtain ⟨result, stack, e⟩ := puts.stores
  exact ⟨result, stack, by rw [e, store_open resolves free]⟩

/-- A step that assigns a name has a value for it, unless it combines operands and the operator fails on them. -/
theorem Running.Assigns.puts (assigns : s.Assigns name scope) (resolves : s.world.scopes.resolve? scope name = some i) :
    (∃ v, s.Puts name scope v) ∨ ∃ w v op current stack failure,
      s = ⟨w, .value v, .assignCombined (.name name scope) op current :: stack⟩ ∧
        s.step = .next ⟨w, .raise failure, stack⟩ := by
  cases assigns with
  | @update w node target rest stack kind children identifier own =>
    obtain ⟨v, combines⟩ := combines_one w.heap (node.name == "++")
      (w.heap.number ((w.scopes.binding? i name).getD .undefined))
    exact .inl ⟨v, .update kind children identifier own (lookup_of_resolves resolves) combines⟩
  | @value w v stack => exact .inl ⟨v, .value⟩
  | @combined w operand current op? stack =>
    cases op? with
    | none => exact .inr ⟨w, operand, none, current, stack, _, rfl, rfl⟩
    | some op =>
      cases combines : w.heap.binary ⟨op.codes.dropLast⟩ current operand with
      | ok v => exact .inl ⟨v, .combined combines⟩
      | error failure =>
        refine .inr ⟨w, operand, some op, current, stack, failure, rfl, ?_⟩
        simp only [Running.step, World.onValue, World.assignCombined, combines]
        rfl

end Puts

end ScopeExit.Script
