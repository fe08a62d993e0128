import ScopeExit.Failure
/-!
The arena: the deferred actions of all frames of one activation.

A frame has no list of its own.  It remembers how long the arena was when it was entered, its mark,
and while it is the innermost frame its actions are those above the mark.
-/
namespace ScopeExit

/-! ### Places counted from either end -/

/-- The place in a list that a number means: a negative number counts from the end and stops at the
start. -/
def signedPosition {α : Type} (xs : List α) (n : Int) : Nat :=
  if 0 ≤ n then n.toNat else xs.length - n.natAbs

/-- The elements before a place. -/
def takeSigned {α : Type} (n : Int) (xs : List α) : List α := xs.take (signedPosition xs n)

/-- The element at a place. -/
def signedGet? {α : Type} (xs : List α) (n : Int) : Option α := xs[signedPosition xs n]?

/-! ### Arenas -/

/-- The actions in the order of their registration. -/
structure Arena (α : Type) where
  actions : List α
  deriving DecidableEq

namespace Arena

variable {α : Type}

/-- An arena without actions. -/
def empty : Arena α := ⟨[]⟩

instance : Inhabited (Arena α) := ⟨empty⟩

/-- The number of actions, which is the mark of a frame entered now. -/
def size (a : Arena α) : Nat := a.actions.length

/-- The arena with one more action. -/
def push (a : Arena α) (x : α) : Arena α := ⟨a.actions ++ [x]⟩

/-- The actions above a mark, in the order of their registration. -/
def above (a : Arena α) (mark : Nat) : List α := a.actions.drop mark

/-- The arena without the actions above a mark. -/
def truncate (a : Arena α) (mark : Nat) : Arena α := ⟨a.actions.take mark⟩

/-- The most recent action above a mark, taken off. -/
def pop? (a : Arena α) (mark : Nat) : Option (α × Arena α) :=
  if a.size ≤ mark then none
  else a.actions.getLast?.map fun x => (x, ⟨a.actions.dropLast⟩)

/-- The place that a number means as a mark; a negative number counts from the end. -/
def place (a : Arena α) (mark : Int) : Nat := signedPosition a.actions mark

/-- The most recent action above a number, taken off.  Every action is above a negative number, and
one is demanded there. -/
def popAbove (a : Arena α) (mark : Int) : Except Failure (Option α × Arena α) :=
  match a.pop? mark.toNat with
  | some (x, rest) => .ok (some x, rest)
  | none => if mark < 0 then .error (.host .index) else .ok (none, a)

/-! ### Laws -/

@[simp] theorem size_empty : (empty : Arena α).size = 0 := rfl

@[simp] theorem size_push (a : Arena α) (x : α) : (a.push x).size = a.size + 1 := by
  simp [size, push]

@[simp] theorem above_size (a : Arena α) : a.above a.size = [] := by
  simp [above, size]

theorem above_push (a : Arena α) (x : α) {mark : Nat} (h : mark ≤ a.size) :
    (a.push x).above mark = a.above mark ++ [x] := by
  simp only [size] at h
  simp [above, push, List.drop_append_of_le_length h]

@[simp] theorem truncate_size (a : Arena α) : a.truncate a.size = a := by
  simp [truncate, size]

theorem pop?_eq_none_iff (a : Arena α) (mark : Nat) : a.pop? mark = none ↔ a.size ≤ mark := by
  constructor
  · intro h
    by_cases hle : a.size ≤ mark
    · exact hle
    · simp only [pop?, hle, if_false, Option.map_eq_none_iff, List.getLast?_eq_none_iff] at h
      simp [size, h] at hle
  · intro h; simp [pop?, h]

theorem pop?_push (a : Arena α) (x : α) {mark : Nat} (h : mark ≤ a.size) :
    (a.push x).pop? mark = some (x, a) := by
  have : ¬ (a.push x).size ≤ mark := by simp; omega
  simp only [pop?, this, if_false]
  simp [push]

end Arena

end ScopeExit
