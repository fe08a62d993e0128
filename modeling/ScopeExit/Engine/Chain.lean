import ScopeExit.ExitReason
/-!
Folding the failures of one drain.

A drain starts with an exit reason and meets failures one by one.  Each new failure becomes the head
of a chain that suppresses the earlier ones, down to the failure that was pending at the start.  As
long as no action failed, the exit reason stays the very one that was pending.
-/
namespace ScopeExit

/-- A chain of failures, the most recent first. -/
structure FailureChain where
  /-- The most recent failure. -/
  primary : Failure
  /-- The earlier failures, most recent first. -/
  suppressed : List Failure

namespace FailureChain

/-- The failures of a chain, most recent first. -/
def errors (c : FailureChain) : List Failure := c.primary :: c.suppressed

/-- The number of failures. -/
def length (c : FailureChain) : Nat := c.errors.length

/-- A failure on top of those that are there already. -/
def record (existing : Option FailureChain) (error : Failure) : FailureChain :=
  match existing with
  | none => ⟨error, []⟩
  | some c => ⟨error, c.errors⟩

/-- The failure that a list of failures amounts to: each one suppresses those after it. -/
def fold (primary : Failure) : List Failure → Failure
  | [] => primary
  | next :: rest => .suppressing suppressionMessage primary (fold next rest)

/-- The chain as one failure. -/
def toFailure (c : FailureChain) : Failure := fold c.primary c.suppressed

theorem leaves_fold (primary : Failure) (rest : List Failure) :
    (fold primary rest).leaves = (primary :: rest).flatMap Failure.leaves := by
  induction rest generalizing primary with
  | nil => simp [fold]
  | cons next rest ih => simp [fold, Failure.leaves, ih]

/-- No failure of a chain is lost, and none is counted twice. -/
theorem leaves_toFailure (c : FailureChain) :
    c.toFailure.leaves = c.errors.flatMap Failure.leaves := leaves_fold c.primary c.suppressed

end FailureChain

/-- The failures of one drain against the exit reason that it started with. -/
structure Aggregator where
  /-- The exit reason at the start. -/
  pending : ExitReason
  /-- All failures so far, the pending one included. -/
  chain? : Option FailureChain
  /-- How many actions failed. -/
  failures : Nat

namespace Aggregator

/-- No action has failed yet. -/
def start (pending : ExitReason) : Aggregator where
  pending := pending
  chain? := pending.error?.map fun error => ⟨error, []⟩
  failures := 0

/-- One more action failed. -/
def record (a : Aggregator) (error : Failure) : Aggregator :=
  { a with chain? := some (FailureChain.record a.chain? error), failures := a.failures + 1 }

/-- The chain that the drain built, if an action failed. -/
def built? (a : Aggregator) : Option FailureChain :=
  if a.failures = 0 then none else a.chain?

/-- The exit reason that propagates after the drain. -/
def resolve (a : Aggregator) : ExitReason :=
  match a.built? with
  | none => a.pending
  | some c => .throwing (some c.toFailure)

@[simp] theorem failures_start (p : ExitReason) : (start p).failures = 0 := rfl

@[simp] theorem failures_record (a : Aggregator) (e : Failure) :
    (a.record e).failures = a.failures + 1 := rfl

@[simp] theorem pending_record (a : Aggregator) (e : Failure) :
    (a.record e).pending = a.pending := rfl

theorem resolve_start (p : ExitReason) : (start p).resolve = p := by
  rfl

end Aggregator

end ScopeExit
