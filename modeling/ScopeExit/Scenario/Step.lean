import ScopeExit.Scenario.Basic
/-!
Steps and instructions of scenarios.

Whatever takes time pushes frames that wait for it; nothing here recurses.
-/
namespace ScopeExit.Scenario

/-- The label of the registry that is there from the start. -/
def mainRegistry : Text := "r"

/-- A failure that signals the end of an iteration becomes another failure where it leaves code that
can suspend. -/
def contained : Failure → Failure
  | .single (.host .stopIteration _) => .host .runtime
  | failure => failure

namespace World

/-! ### Parts of the world -/

/-- The registry of an owner. -/
def registry (w : World) : Owner → Registry Callback
  | .registry label => (w.registries.lookup label).getD default
  | .scope i => (w.scopes.getD i default).registry

/-- Another registry for an owner. -/
def setRegistry (w : World) (owner : Owner) (r : Registry Callback) : World :=
  match owner with
  | .registry label => { w with registries := (label, r) :: w.registries.filter (·.1 != label) }
  | .scope i => { w with scopes := w.scopes.modify i fun s => { s with registry := r } }

/-- A scope. -/
def scope (w : World) (i : Nat) : DeferScope Callback := w.scopes.getD i default

/-- Another state of a scope. -/
def setScope (w : World) (i : Nat) (s : DeferScope Callback) : World :=
  { w with scopes := w.scopes.setIfInBounds i s }

/-- One more entry of the log. -/
def write (w : World) (e : Entry) : World := { w with log := e :: w.log }

/-- One more entry of the log of a step, which may be over. -/
def writeTo (w : World) (step : Nat) (e : Entry) : World :=
  if step < w.reports.size then
    { w with reports := w.reports.modify step fun r => { r with log := r.log ++ [e] } }
  else w.write e

/-! ### Outcomes -/

variable (w : World) (stack : Stack)

/-- Code ends with an answer. -/
def give (a : Answer) : Running := ⟨w, .answer a, stack⟩

/-- Code ends with a failure. -/
def fail (failure : Failure) : Running := ⟨w, .raise failure, stack⟩

/-- Goes on with a result, or fails. -/
def attempt {α : Type} (r : Except Failure α) (go : α → Running) : Running :=
  match r with
  | .ok x => go x
  | .error failure => w.fail stack failure

/-- The running task waits; `loop` knows for what. -/
def park (loop : Loop Stack) : Running := ⟨{ w with loop }, .parked, []⟩

/-- The running task sleeps. -/
def sleep (milliseconds : Number) : Running :=
  w.attempt stack ((seconds milliseconds).mapError Failure.ofNumberError) fun s =>
    w.park (w.loop.rest w.current stack s)

/-! ### Drains -/

/-- Runs a callback. -/
def runCallback (c : Callback) : Running :=
  w.give (.body c.body :: (if c.isCoroutine then .suspendable :: stack else stack)) .nothing

/-- Goes on after a scope was left: with the failure of its callbacks, if one failed. -/
def afterScope (owner : Owner) (h : FrameHandle) (result : Except Failure DrainOutcome)
    (go : World → Running) : Running :=
  let d := (w.registry owner).leave h result
  let w := w.setRegistry owner d.registry
  match d.result, result with
  | .error failure, _ => w.fail stack failure
  | .ok _, .ok o =>
    match o.raised? with
    | some failure => w.fail stack failure
    | none => go w
  | .ok _, .error failure => w.fail stack failure

/-- Goes on after a drain. -/
def afterDrain (owner : Owner) (h : FrameHandle) (sequel : Sequel)
    (result : Except Failure DrainOutcome) : Running :=
  match sequel with
  | .answer .drain => w.attempt stack result fun o => w.give stack (.chain o.chain?)
  | .answer .unwind => w.attempt stack result fun o => w.give stack (.outcome o)
  | .answer .dispatch =>
    let d := (w.registry owner).leave h result
    let w := { w.setRegistry owner d.registry with records := d.record?.toList ++ w.records }
    w.attempt stack d.result fun reason => w.give stack (.reason reason)
  | .scope => w.afterScope stack owner h result fun w => w.give stack (.truth false)
  | .call outcome =>
    w.afterScope stack owner h result fun w =>
      w.attempt stack outcome fun v => w.give stack (.value v)

/-- Does what a drain asks for. -/
def proceed (owner : Owner) (h : FrameHandle) (sequel : Sequel) :
    DrainStep Callback × Registry Callback → Running
  | (.run action drain, r) =>
    (w.setRegistry owner r).runCallback (.draining owner drain sequel :: stack) action.body
  | (.ended result, r) => (w.setRegistry owner r).afterDrain stack owner h sequel result

/-- Drains a frame. -/
def drain (owner : Owner) (h : FrameHandle) (mode : ActionMode) (reason : ExitReason)
    (sequel : Sequel) : Running :=
  match Drain.start (w.registry owner) h mode reason with
  | .ok (d, r) => w.proceed stack owner h sequel (d.advance r)
  | .error failure => w.afterDrain stack owner h sequel (.error failure)

/-- Leaves a scope: gives up its frame and drains it.  Where waiting is possible, a frame with
asynchronous actions is drained asynchronously. -/
def leaveScope (i : Nat) (canWait : Bool) (failure? : Option Failure) (sequel : Sequel) : Running :=
  let s := w.scope i
  match s.handle? with
  | none => w.fail stack (.host .attribute)
  | some h =>
    let w := w.setScope i s.detached
    let reason := ExitReason.ofBody failure?
    if canWait then
      w.attempt stack (s.registry.hasAsyncActions h) fun hasAsync =>
        w.drain stack (.scope i) h (if hasAsync then .async else .sync) reason sequel
    else w.drain stack (.scope i) h .sync reason sequel

/-- Registers a callback in a scope. -/
def registerIn (i : Nat) (how : Registration) (isCoroutine : Bool) (body : List Instruction)
    (a : Answer) : Running :=
  match (w.scope i).register how { id := "", isCoroutine, body } with
  | .ok s => (w.setScope i s).give stack a
  | .error failure => w.fail stack failure

/-! ### The function -/

/-- Starts a call of the function: its body runs in a new scope. -/
def startCall (arguments : List Value) : Running :=
  let f := w.function
  let i := w.scopes.size
  let s : DeferScope Callback := .new .function f.name
  w.attempt stack (s.enter (f.form == .coroutine)) fun s =>
    let w := { w with scopes := w.scopes.push s, arguments, callScope := i }
    let code : Stack :=
      if f.form = .plain then .body f.body :: .function i :: stack
      else .body f.body :: .suspendable :: .function i :: .suspendable :: stack
    w.give code .nothing

/-- Calls the function.  The call of a generator makes it and runs nothing. -/
def call (arguments : List Value) : Running :=
  if w.function.form = .generator then
    { w with generator := .fresh arguments }.give stack .nothing
  else w.startCall stack arguments

/-- The value is `null`. -/
def isNull : Value → Bool
  | .null => true
  | _ => false

/-- Resumes the generator. -/
def resume (how : Resumption) : Running :=
  match w.generator, how with
  | .fresh arguments, .send v =>
    if isNull v then w.startCall (.generator :: stack) arguments else w.fail stack (.host .type)
  | .fresh _, .throw failure => { w with generator := .done }.fail stack (contained failure)
  | .fresh _, .close => { w with generator := .done }.give stack .nothing
  | .suspended code, .send v => w.give (code ++ .generator :: stack) (.value v)
  | .suspended code, .throw failure => w.fail (code ++ .generator :: stack) failure
  | .suspended code, .close =>
    w.fail (code ++ .generator :: .closing :: stack) (.single (.closing ""))
  | .done, .send _ => w.give stack (.stopped .null)
  | .done, .throw failure => w.fail stack failure
  | .done, .close => w.give stack .nothing

/-! ### Instructions and steps -/

/-- Executes an instruction. -/
def execute : Instruction → Running
  | .note v => (w.write (.note v)).give stack .nothing
  | .noteArguments positional named => (w.write (.arguments positional named)).give stack .nothing
  | .fail failure => w.fail stack failure
  | .pause turns => w.give (.pausing turns :: stack) .nothing
  | .sleep milliseconds => w.sleep stack milliseconds
  | .spawn body =>
    let task := w.loop.promises.size
    let (_, loop) := w.loop.spawn [.body body, .suspendable, .taskEnd task]
    { w with loop }.give stack .nothing
  | .perform step => ⟨w, .perform step, .logged :: stack⟩
  | .defer how isCoroutine body => w.registerIn stack w.callScope how isCoroutine body .nothing
  | .pending =>
    w.attempt stack (w.scope w.callScope).pending fun n =>
      (w.write (.note (.ofInt n))).give stack .nothing
  | .argument i =>
    match w.arguments[i]? with
    | some v => (w.write (.note v)).give stack .nothing
    | none => w.fail stack (.host .index)
  | .return v => ⟨w, .returned v, stack⟩
  | .yield v catches => ⟨w, .yield v, .yielded catches w.reports.size :: stack⟩

/-- Goes on with the handle of a label. -/
def withHandle (label : Text) (go : FrameHandle → Running) : Running :=
  match w.handles.lookup label with
  | some h => go h
  | none => w.fail stack (.host .key)

/-- Goes on with the scope of a label. -/
def withScope (label : Text) (go : Nat → Running) : Running :=
  match w.scopeNames.lookup label with
  | some i => go i
  | none => w.fail stack (.host .key)

/-- Performs a step. -/
def perform : Step → Running
  | .newRegistry label name =>
    (w.setRegistry (.registry label) { name }).give stack (.text name)
  | .enter registry label kind isAsync span =>
    let (h, r) := (w.registry (.registry registry)).enter kind isAsync span
    { w.setRegistry (.registry registry) r with handles := (label, h) :: w.handles }.give stack
      (.handle h)
  | .forge label h => { w with handles := (label, h) :: w.handles }.give stack .nothing
  | .register registry handle id action isCoroutine body =>
    w.withHandle stack handle fun h =>
      let action : Action Callback :=
        { body := { id, isCoroutine, body }, kind := action.kind, mode := action.mode,
          span := action.span, transfers := action.transfers }
      match (w.registry (.registry registry)).register h action with
      | .ok r => (w.setRegistry (.registry registry) r).give stack (.text action.describe)
      | .error failure => w.fail stack failure
  | .exit registry handle =>
    w.withHandle stack handle fun h =>
      w.attempt stack ((w.registry (.registry registry)).exit h) fun r =>
        (w.setRegistry (.registry registry) r).give stack .nothing
  | .begin registry handle =>
    w.withHandle stack handle fun h =>
      w.attempt stack ((w.registry (.registry registry)).beginDrain h) fun (f, r) =>
        (w.setRegistry (.registry registry) r).give stack (.frame f)
  | .finish registry handle =>
    w.withHandle stack handle fun h =>
      w.attempt stack ((w.registry (.registry registry)).finishDrain h) fun r =>
        (w.setRegistry (.registry registry) r).give stack .nothing
  | .frame registry handle =>
    w.withHandle stack handle fun h =>
      w.attempt stack ((w.registry (.registry registry)).frame h) fun f => w.give stack (.frame f)
  | .pop registry handle runs =>
    w.withHandle stack handle fun h =>
      w.attempt stack ((w.registry (.registry registry)).popAction h) fun (action?, r) =>
        let w := w.setRegistry (.registry registry) r
        match action? with
        | none => w.give stack .nothing
        | some action =>
          if runs then w.runCallback (.popped action.body.id :: stack) action.body
          else w.give stack (.text action.body.id)
  | .pending registry handle =>
    w.withHandle stack handle fun h =>
      w.attempt stack ((w.registry (.registry registry)).pending h) fun n => w.give stack (.count n)
  | .pendingActions registry handle =>
    w.withHandle stack handle fun h =>
      w.attempt stack ((w.registry (.registry registry)).pendingActions h) fun actions =>
        w.give stack (.actions (actions.map fun a => a.body.id))
  | .hasAsync registry handle =>
    w.withHandle stack handle fun h =>
      w.attempt stack ((w.registry (.registry registry)).hasAsyncActions h) fun b =>
        w.give stack (.usesAsync b)
  | .innermost registry =>
    match (w.registry (.registry registry)).innermost? with
    | some h => w.give stack (.handle h)
    | none => w.give stack .nothing
  | .lineage registry handle =>
    w.withHandle stack handle fun h =>
      w.give stack (.lineage ((w.registry (.registry registry)).lineage h))
  | .drain registry handle purpose mode reason =>
    w.withHandle stack handle fun h =>
      w.drain stack (.registry registry) h mode reason (.answer purpose)
  | .sleep milliseconds => w.sleep stack milliseconds
  | .newScope label kind name =>
    let s : DeferScope Callback := .new kind name
    { w with scopes := w.scopes.push s, scopeNames := (label, w.scopes.size) :: w.scopeNames }.give
      stack (.scope kind s.registry.name)
  | .enterScope label isAsync =>
    w.withScope stack label fun i =>
      w.attempt stack ((w.scope i).enter isAsync) fun s => (w.setScope i s).give stack (.truth true)
  | .leaveScope label isAsync failure? =>
    w.withScope stack label fun i =>
      let stack := if isAsync then .suspendable :: stack else stack
      w.leaveScope stack i isAsync failure? .scope
  | .deferIn label how isCoroutine body =>
    w.withScope stack label fun i => w.registerIn stack i how isCoroutine body (.truth true)
  | .scopePending label =>
    w.withScope stack label fun i =>
      w.attempt stack (w.scope i).pending fun n => w.give stack (.count n)
  | .call arguments => w.call stack arguments
  | .resume how => w.resume stack how

end World

/-- The label of the registry that a step is about. -/
def Step.registry : Step → Text
  | .enter registry .. | .register registry .. | .exit registry _ | .begin registry _
  | .finish registry _ | .frame registry _ | .pop registry .. | .pending registry _
  | .pendingActions registry _ | .hasAsync registry _ | .innermost registry
  | .lineage registry _ | .drain registry .. => registry
  | _ => mainRegistry

/-- The label of the scope that a step is about. -/
def Step.scope? : Step → Option Text
  | .newScope label .. | .enterScope label _ | .leaveScope label .. | .deferIn label ..
  | .scopePending label => some label
  | _ => none

/-- A step of the function, which may end with the signal that an iteration has ended. -/
def Step.isCall : Step → Bool
  | .call _ | .resume _ => true
  | _ => false

end ScopeExit.Scenario
