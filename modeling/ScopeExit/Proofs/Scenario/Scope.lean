import ScopeExit.Scenario.Run
import ScopeExit.Proofs.Engine.Scope
/-!
How a scenario leaves a scope.

A scenario is a machine with an explicit stack, and leaving a scope takes as many steps of it as the
callbacks take, during which other tasks may run.  Here the body of a callback is what the machine makes
of its instructions: whatever is below them on the stack, the machine comes back there with an answer or
a failure.  Then the whole of leaving is `DeferScope.Leaves`, with the drain of the frame as the part of
the stack that waits while a callback runs.
-/
namespace ScopeExit.Scenario

/-- Some steps of the machine. -/
abbrev Running.Steps : Running → Running → Prop :=
  Relation.ReflTransGen fun a b => a.step = .next b

/-- The control with which code comes to an end, and its failure. -/
inductive Control.Ends : Control → Option Failure → Prop
  | answer (a : Answer) : Ends (.answer a) none
  | raise (e : Failure) : Ends (.raise e) (some e)

variable {σ : Type}

/-- The machine runs the callbacks of a scope as the bodies say: the code of a callback comes to an end,
and it leaves the scope as it was, except for its registry.  A state of the world around the bodies tells
the world of the machine. -/
def Realises (i : Nat) (world : σ → World) (body : BodyRuns Callback σ) : Prop :=
  ∀ ⦃c x r failure? x' r'⦄, body c x r failure? x' r' →
    i < (world x').scopes.size ∧ (world x').scope i = { (world x).scope i with registry := r' } ∧
      ∀ stack, ∃ control : Control, control.Ends failure? ∧
        Running.Steps (((world x).setRegistry (.scope i) r).runCallback stack c)
          ⟨world x', control, stack⟩

/-- What the code around sees after a scope was left: the failure that goes on, or what came out of the
code in the scope. -/
inductive Sees (failure? : Option Failure) : Sequel → Option Failure → Control → Prop
  | raised {sequel : Sequel} (e : Failure) : Sees failure? sequel (some e) (.raise e)
  /-- The scope does not stop the failure, which goes on by itself. -/
  | passed : Sees failure? .scope failure? (.answer (.truth false))
  | returned (v : Value) (e : failure? = none) :
      Sees failure? (.call (.ok v)) none (.answer (.value v))

/-- What follows the drain fits the outcome of the code in the scope. -/
def Sequel.Follows (failure? : Option Failure) : Sequel → Prop
  | .scope => True
  | .call (.ok _) => failure? = none
  | .call (.error e) => failure? = some e
  | .answer _ => False

namespace World

/-! ### The scopes of a world -/

variable {w : World} {i : Nat}

theorem scope_setScope (hi : i < w.scopes.size) (s : DeferScope Callback) :
    (w.setScope i s).scope i = s := by
  simp [scope, setScope, Array.getD, hi]

theorem scope_setRegistry (hi : i < w.scopes.size) (r : Registry Callback) :
    (w.setRegistry (.scope i) r).scope i = { w.scope i with registry := r } := by
  simp [scope, setRegistry, Array.getD, hi, Array.getElem_modify]

/-- Giving up its frame does not change the registry of a scope. -/
theorem registry_detached (hi : i < w.scopes.size) :
    (w.setScope i (w.scope i).detached).registry (.scope i) = (w.scope i).registry := by
  show ((w.setScope i (w.scope i).detached).scope i).registry = _
  rw [scope_setScope hi]
  rfl

@[simp] theorem size_setScope (s : DeferScope Callback) :
    (w.setScope i s).scopes.size = w.scopes.size := by
  simp [setScope]

@[simp] theorem size_setRegistry (r : Registry Callback) :
    (w.setRegistry (.scope i) r).scopes.size = w.scopes.size := by
  simp [setRegistry]

/-- Only a scope that is there can be active. -/
theorem lt_of_active {h : FrameHandle} (active : (w.scope i).handle? = some h) :
    i < w.scopes.size := by
  by_contra hi
  rw [scope, Array.getD, dif_neg hi] at active
  contradiction

/-! ### Leaving a scope -/

/-- A drain goes on as one of the same frame. -/
theorem advance_handle {d d' : Drain} {r r' : Registry Callback} {a : Action Callback}
    (e : d.advance r = (.run a d', r')) : d'.handle = d.handle := by
  rcases d.advance_cases r with ⟨_, _, h⟩ | ⟨_, h⟩ | ⟨_, _, h⟩
  · rw [h] at e
    simp only [Prod.mk.injEq, DrainStep.run.injEq] at e
    rw [← e.1.2]
  · simp [h] at e
  · simp [h] at e

theorem settle_handle {d d' : Drain} {r r' : Registry Callback} {a : Action Callback}
    {failure? : Option Failure} (e : d.settle r failure? = (.run a d', r')) :
    d'.handle = d.handle := by
  rcases d.settle_cases r failure? with h | ⟨_, _, h⟩
  · rw [h] at e
    exact (advance_handle e).trans (Drain.take_handle d failure?)
  · simp [h] at e

theorem start_handle {r r' : Registry Callback} {h : FrameHandle} {mode : ActionMode}
    {reason : ExitReason} {d : Drain} (e : Drain.start r h mode reason = .ok (d, r')) :
    d.handle = h := by
  obtain ⟨f, rfl⟩ := Drain.eq_of_start e
  rfl

/-- The machine runs a drain as its owner should. -/
theorem proceed_steps {world : σ → World} {body : BodyRuns Callback σ} (realises : Realises i world body)
    {stack : Stack} {h : FrameHandle} {sequel : Sequel} {step : DrainStep Callback × Registry Callback}
    {x x' : σ} {r' : Registry Callback} {ran : List (Action Callback × Option Failure)}
    {result : Except Failure DrainOutcome} (runs : Drain.Runs body step x ran result x' r')
    (there : i < (world x).scopes.size) (hstep : ∀ a d r, step = (.run a d, r) → d.handle = h) :
    Running.Steps ((world x).proceed stack (.scope i) h sequel step)
        (((world x').setRegistry (.scope i) r').afterDrain stack (.scope i) h sequel result) ∧
      i < (world x').scopes.size ∧
      ∃ r, (world x').scope i = { (world x).scope i with registry := r } := by
  induction runs with
  | ended => exact ⟨.refl, there, _, rfl⟩
  | @run a d r₁ r₂ _ x x₁ _ failure? _ _ hb hrest ih =>
    obtain ⟨there₁, hscope, hcode⟩ := realises hb
    obtain rfl := hstep _ _ _ rfl
    obtain ⟨hsteps, there', r, hsame⟩ := ih there₁ fun _ _ _ e => settle_handle e
    refine ⟨?_, there', r, by rw [hsame, hscope]⟩
    obtain ⟨control, hends, hrun⟩ := hcode (.draining (.scope i) d sequel :: stack)
    refine hrun.trans (.head ?_ hsteps)
    -- the drain takes in how the callback has ended
    have hregistry : (world x₁).registry (.scope i) = r₂ := congrArg DeferScope.registry hscope
    rw [← hregistry]
    cases hends with
    | answer => rfl
    | raise => rfl

/-- After its drain the frame is left, and the failure goes on that is the outgoing one. -/
theorem afterDrain_sees {v : World} (there : i < v.scopes.size) (stack : Stack) {h : FrameHandle}
    {sequel : Sequel} {failure? raised? : Option Failure} (follows : sequel.Follows failure?)
    {result : Except Failure DrainOutcome} {o : Dispatched Callback}
    (leave : (v.scope i).registry.leave h result = o)
    (goes : o.outgoing? result failure? = raised?) :
    ∃ control v', v.afterDrain stack (.scope i) h sequel result = ⟨v', control, stack⟩ ∧
      Sees failure? sequel raised? control ∧
      v'.scope i = { v.scope i with registry := o.registry } := by
  have after : ∀ go : World → Running, (∀ v', ∃ control, go v' = ⟨v', control, stack⟩ ∧
        Sees failure? sequel failure? control) →
      ∃ control, v.afterScope stack (.scope i) h result go =
          ⟨v.setRegistry (.scope i) o.registry, control, stack⟩ ∧
        Sees failure? sequel raised? control := by
    intro go hgo
    have hleave : (v.registry (.scope i)).leave h result = o := leave
    subst goes
    simp only [afterScope, hleave, Dispatched.outgoing?]
    cases o.result with
    | error e => exact ⟨_, rfl, .raised e⟩
    | ok reason =>
      cases result with
      | error e => exact ⟨_, rfl, .raised e⟩
      | ok outcome =>
        cases hraised : outcome.raised? with
        | some e =>
          simp only [hraised, Option.some_or]
          exact ⟨_, rfl, .raised e⟩
        | none =>
          simp only [hraised, Option.none_or]
          exact hgo _
  cases sequel with
  | answer => exact follows.elim
  | scope =>
    obtain ⟨control, hafter, sees⟩ :=
      after (fun w => w.give stack (.truth false)) fun _ => ⟨_, rfl, .passed⟩
    exact ⟨control, _, hafter, sees, scope_setRegistry there _⟩
  | call outcome =>
    obtain ⟨control, hafter, sees⟩ :=
      after (fun w => w.attempt stack outcome fun v => w.give stack (.value v)) fun v' => by
        cases outcome with
        | ok value =>
          obtain rfl : failure? = none := follows
          exact ⟨_, rfl, .returned value rfl⟩
        | error e =>
          obtain rfl : failure? = some e := follows
          exact ⟨_, rfl, .raised e⟩
    exact ⟨control, _, hafter, sees, scope_setRegistry there _⟩

theorem leaveScope_eq {h : FrameHandle} (active : (w.scope i).handle? = some h) (stack : Stack)
    (canWait : Bool) (failure? : Option Failure) (sequel : Sequel) :
    w.leaveScope stack i canWait failure? sequel =
      (w.setScope i (w.scope i).detached).attempt stack ((w.scope i).leavingMode h canWait) fun mode =>
        (w.setScope i (w.scope i).detached).drain stack (.scope i) h mode (.ofBody failure?) sequel := by
  simp only [leaveScope, active, DeferScope.leavingMode]
  cases canWait with
  | false => rfl
  | true =>
    simp only [if_true]
    cases (w.scope i).registry.hasAsyncActions h with
    | error e => rfl
    | ok hasAsync => cases hasAsync <;> rfl

/-- **Main result.**  Leaving a scope, the machine gets to where the scope is left as `DeferScope.Leaves`
tells, and the code around goes on with the failure that comes out of it. -/
theorem leaveScope_steps {world : σ → World} {body : BodyRuns Callback σ}
    (realises : Realises i world body) {stack : Stack} {canWait : Bool}
    {failure? raised? : Option Failure} {sequel : Sequel} (follows : sequel.Follows failure?)
    {ran : List (Action Callback × Option Failure)} {s' : DeferScope Callback} {x x' : σ}
    (hx : world x = w.setScope i (w.scope i).detached)
    (leaves : DeferScope.Leaves body canWait failure? (w.scope i) x ran raised? s' x') :
    ∃ control w'', Sees failure? sequel raised? control ∧ w''.scope i = s' ∧
      Running.Steps (w.leaveScope stack i canWait failure? sequel) ⟨w'', control, stack⟩ := by
  cases leaves with
  | lost active way =>
    rw [leaveScope_eq active, way]
    exact ⟨_, _, .raised _, scope_setScope (lt_of_active active) _, .refl⟩
  | @refused h _ _ e o _ active way start leave goes =>
    have there := lt_of_active active
    have hscope := scope_setScope there (w.scope i).detached
    rw [leaveScope_eq active, way]
    obtain ⟨control, w'', hafter, sees, hleft⟩ :=
      afterDrain_sees (v := w.setScope i (w.scope i).detached) (i := i) (by simpa using there) stack
        follows (by rw [hscope]; exact leave) goes
    refine ⟨control, w'', sees, by rw [hleft, hscope], ?_⟩
    simp only [attempt, drain, registry_detached there, start, hafter]
    exact .refl
  | @drained h mode d r₁ r₂ _ _ _ result o _ active way start runs leave goes =>
    have there := lt_of_active active
    have hscope := scope_setScope there (w.scope i).detached
    rw [leaveScope_eq active, way]
    obtain ⟨hsteps, there', _, hsame⟩ := proceed_steps realises runs (by simpa [hx] using there)
      fun a d' r e => (advance_handle e).trans (start_handle start)
    rw [hx] at hsteps hsame
    have hdrained := scope_setRegistry there' r₂
    obtain ⟨control, w'', hafter, sees, hleft⟩ :=
      afterDrain_sees (v := (world x').setRegistry (.scope i) r₂) (i := i) (by simpa using there') stack
        follows (by rw [hdrained]; exact leave) goes
    refine ⟨control, w'', sees, by rw [hleft, hdrained, hsame, hscope], ?_⟩
    simp only [attempt, drain, registry_detached there, start]
    rw [← hafter]
    exact hsteps

end World

end ScopeExit.Scenario
