/-!
Machines: small steps, run for as long as the fuel lasts.

A step gives the next state or a result.  Running out of fuel is no result: the state is kept, and
running on from it is the same as having had more fuel at the start.
-/
namespace ScopeExit

/-- What one step of a machine comes to. -/
inductive Transition (σ ρ : Type) where
  | next (state : σ)
  | halt (result : ρ)

/-- What a run of a machine comes to. -/
inductive RunResult (σ ρ : Type) where
  /-- The fuel ran out in this state. -/
  | exhausted (state : σ)
  | halted (result : ρ)

variable {σ ρ : Type}

/-- Runs a machine for at most `fuel` steps. -/
def Transition.run (step : σ → Transition σ ρ) : Nat → σ → RunResult σ ρ
  | 0, state => .exhausted state
  | fuel + 1, state =>
    match step state with
    | .next state => run step fuel state
    | .halt result => .halted result

/-- Runs a machine on from where a run ended. -/
def RunResult.resume (step : σ → Transition σ ρ) (fuel : Nat) : RunResult σ ρ → RunResult σ ρ
  | .exhausted state => Transition.run step fuel state
  | .halted result => .halted result

/-- Fuel may be spent in two portions. -/
theorem Transition.run_add (step : σ → Transition σ ρ) (first second : Nat) (state : σ) :
    run step (first + second) state = (run step first state).resume step second := by
  induction first generalizing state with
  | zero => simp [run, RunResult.resume]
  | succ first ih =>
    cases h : step state with
    | halt result => simp [run, RunResult.resume, h, Nat.succ_add]
    | next state => simpa [run, h, Nat.succ_add] using ih state

/-- More fuel does not change a result. -/
theorem Transition.run_halted {step : σ → Transition σ ρ} {fuel : Nat} {state : σ} {result : ρ}
    (h : run step fuel state = .halted result) (extra : Nat) :
    run step (fuel + extra) state = .halted result := by
  rw [run_add, h]; rfl

end ScopeExit
