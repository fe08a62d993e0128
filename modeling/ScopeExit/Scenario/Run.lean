import ScopeExit.Machine
import ScopeExit.Scenario.Step
/-!
Running a scenario: one step after the other, each to its end, with a report after each.

The steps belong to one task.  Tasks that bodies spawn run whenever that task waits, and what they log
appears in the report of the step during which they ran.
-/
namespace ScopeExit.Scenario

namespace World

variable (w : World) (stack : Stack)

/-! ### Reports -/

/-- The result of a step as reports show it. -/
def resultOf (step : Step) : Except Failure Answer → Except Failure Answer
  | .error (.single (.host .stopIteration message)) =>
    if step.isCall then .ok (.stopped ((message.map Value.text).getD .null))
    else .error (.single (.host .stopIteration message))
  | r => r

/-- What is visible after a step. -/
def report (step : Step) (result : Except Failure Answer) : Report :=
  let r := w.registry (.registry step.registry)
  { result := resultOf step result
    log := w.log.reverse
    records := w.records.reverse
    depth := r.depth
    arena := r.arena.size
    pending? := do
      let i ← w.scopeNames.lookup (← step.scope?)
      (w.scope i).pending.toOption }

/-- Ends a step. -/
def endStep (step : Step) (result : Except Failure Answer) : World :=
  { w with reports := w.reports.push (w.report step result), log := [], records := [] }

/-- Begins the next step, or ends the scenario. -/
def nextStep : Transition Running (Array Report) :=
  match w.steps with
  | [] => .halt w.reports
  | step :: steps => .next ⟨{ w with steps }, .perform step, [.stepEnd step]⟩

/-! ### Frames -/

/-- A frame takes an answer; `stack` is what is below the frame. -/
def onAnswer (a : Answer) : Frame → Running
  | .body [] => w.give stack .nothing
  | .body (i :: rest) => w.execute (.body rest :: stack) i
  | .pausing 0 => w.give stack .nothing
  | .pausing (turns + 1) =>
    w.park (w.loop.giveWay w.current (.pausing turns :: stack) (.ok .null))
  | .yielded _ step =>
    match a with
    | .value v => (w.writeTo step (.sent v)).give stack .nothing
    | _ => w.give stack .nothing
  | .logged => (w.write (.answer (.ok a))).give stack .nothing
  | .popped id => w.give stack (.text id)
  | .draining owner drain sequel =>
    w.proceed stack owner drain.handle sequel (drain.settle (w.registry owner) none)
  | .function i =>
    w.leaveScope stack i (w.function.form == .coroutine) none (.call (.ok .null))
  | .generator =>
    let v := match a with
      | .value v => v
      | _ => .null
    { w with generator := .done }.give stack (.stopped v)
  | .closing =>
    match a with
    | .value _ => w.fail stack (.host .runtime)
    | _ => w.give stack .nothing
  | .taskEnd p => w.park (w.loop.settle p (.ok .null))
  | .suspendable | .stepEnd _ => w.give stack a

/-- A frame takes the return of a function; `stack` is what is below the frame. -/
def onReturned (v : Value) : Frame → Running
  | .function i => w.leaveScope stack i (w.function.form == .coroutine) none (.call (.ok v))
  | _ => ⟨w, .returned v, stack⟩

/-- A frame takes a failure; `stack` is what is below the frame. -/
def onRaise (failure : Failure) : Frame → Running
  | .yielded catches _ =>
    if catches && failure.isException then (w.write (.caught failure)).give stack .nothing
    else w.fail stack failure
  | .suspendable => w.fail stack (contained failure)
  | .logged => (w.write (.answer (.error failure))).give stack .nothing
  | .draining owner drain sequel =>
    w.proceed stack owner drain.handle sequel (drain.settle (w.registry owner) (some failure))
  | .function i =>
    w.leaveScope stack i (w.function.form == .coroutine) (some failure) (.call (.error failure))
  | .generator => { w with generator := .done }.fail stack failure
  | .closing =>
    match failure with
    | .single (.closing _) => w.give stack .nothing
    | _ => w.fail stack failure
  | .taskEnd p => w.park (w.loop.settle p (.error failure))
  | _ => w.fail stack failure

/-- The generator hands out a value and keeps its code. -/
def suspendGenerator (v : Value) : Running :=
  let isEnd : Frame → Bool
    | .generator => true
    | _ => false
  let code := stack.takeWhile fun f => !isEnd f
  let rest := (stack.dropWhile fun f => !isEnd f).drop 1
  { w with generator := .suspended code }.give rest (.value v)

end World

/-- The control after a wake-up. -/
def Control.ofOutcome : Outcome → Control
  | .ok _ => .answer .nothing
  | .error failure => .raise failure

/-- One step of the machine. -/
def Running.step : Running → Transition Running (Array Report)
  | ⟨w, .perform step, stack⟩ => .next (w.perform stack step)
  | ⟨w, .yield v, stack⟩ => .next (w.suspendGenerator stack v)
  | ⟨w, .answer a, .stepEnd step :: _⟩ => (w.endStep step (.ok a)).nextStep
  | ⟨w, .raise failure, .stepEnd step :: _⟩ => (w.endStep step (.error failure)).nextStep
  | ⟨w, .answer a, frame :: stack⟩ => .next (w.onAnswer stack a frame)
  | ⟨w, .returned v, frame :: stack⟩ => .next (w.onReturned stack v frame)
  | ⟨w, .raise failure, frame :: stack⟩ => .next (w.onRaise stack failure frame)
  | ⟨w, _, _⟩ =>
    match w.loop.next with
    | .resume task code outcome loop =>
      .next ⟨{ w with loop, current := task }, .ofOutcome outcome, code⟩
    | .internal loop => .next ⟨{ w with loop }, .parked, []⟩
    | .idle _ => .halt w.reports

/-- More steps than any scenario takes that ends in a lifetime. -/
def stepLimit : Nat := 1000000000000000000

/-- The reports of a scenario, whose main registry has a name. -/
def run (name : Text) (function : Function) (steps : List Step) : Array Report :=
  let (main, loop) := Loop.add (κ := Stack) {} {}
  let w : World :=
    { registries := [(mainRegistry, { name })], function, steps, loop, current := main }
  match w.nextStep with
  | .halt reports => reports
  | .next start =>
    match Transition.run Running.step stepLimit start with
    | .halted reports => reports
    | .exhausted r => r.world.reports

end ScopeExit.Scenario
