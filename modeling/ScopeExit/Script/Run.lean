import ScopeExit.Machine
import ScopeExit.Script.Literal
import ScopeExit.Script.Outcome
/-!
Running a program.

One step does what the control asks for, or hands an outcome to the topmost frame.  When the running
task parks, the event loop says which task goes on.  The run ends when the program has ended and no
background task is waited for, or when a failure that no script can catch leaves the program.
-/
namespace ScopeExit.Script

/-- What a finished run shows. -/
structure Finished where
  world : World
  /-- The failure that ended the program, if one did. -/
  uncaught? : Option Failure

/-- How a run ends: with something to show, or by a failure that is no failure of a script. -/
abbrev RunEnd := Except Failure Finished

namespace World

/-- The names that every program finds. -/
def globalNames : List (Text × Builtin) :=
  [("log", .log), ("tick", .tick), ("sleep", .sleep), ("String", .toText),
    ("Error", .makeError "Error"), ("TypeError", .makeError "TypeError"),
    ("RangeError", .makeError "RangeError"), ("ReferenceError", .makeError "ReferenceError"),
    (suppressedErrorName, .makeSuppressed)]

/-- Binds the built-in functions in a scope. -/
def bindBuiltins (w : World) (scope : Nat) : World :=
  globalNames.foldl
    (fun w (name, builtin) =>
      let (v, w) := w.method builtin
      w.bind scope name v) w

/-- The scope of the built-in names. -/
def outermost : Nat := 0

/-- A world with the built-in names. -/
def initial (config : Config) : World :=
  let (_, scopes) := Scopes.add {} { isFunction := true }
  let w : World := { config, scopes }
  let w := w.bindBuiltins outermost
  let log := (w.scopes.binding? outermost "log").getD .undefined
  let (console, heap) := w.heap.newObject { className := "Console", properties := [("log", log)] }
  let w := { w with heap }
  let w := w.bind outermost "console" console
  let w := w.bind outermost "undefined" .undefined
  let w := w.bind outermost "NaN" (.ofFloat Number.notANumber)
  w.bind outermost "Infinity" (.ofFloat Number.infinity)

/-- The scope of the module. -/
def moduleScope : Nat := 1

/-- The name of the activation of the module. -/
def mainName : Text := "<main>"

/-- Every promise that the program has made is settled. -/
def isSettled (w : World) : Bool := w.tracked.all fun p => !w.loop.isPending p

/-- The failures of promises that nobody has awaited, in the order of the promises. -/
def rejections (w : World) : List Failure :=
  w.tracked.toList.filterMap fun p =>
    match w.loop.outcome? p with
    | some (.error failure) => if w.observed.contains p then none else some failure
    | _ => none

/-- The number of these failures, as the statistics of the run show it. -/
def unhandledRejections (w : World) : Nat := w.rejections.length

/-- The names of the module and their values. -/
def bindings (w : World) : List (Text × Value) := (w.scopes.get moduleScope).bindings

/-- The end of a run, if it is over: the program has ended, and so has what it left behind if that
is waited for. -/
def end? (w : World) : Option RunEnd :=
  match w.ending? with
  | none => none
  | some (some failure) =>
    if !failure.isScript then some (.error failure)
    else if w.config.settleBackground && !w.isSettled then none
    else some (.ok ⟨w, some failure⟩)
  | some none =>
    if w.config.settleBackground && !w.isSettled then none else some (.ok ⟨w, none⟩)

end World

/-! ### Steps -/

/-- The control after a wake-up. -/
def Control.ofOutcome : Outcome → Control
  | .ok v => .value v
  | .error failure => .raise failure

/-- The event loop goes on after the running task has parked. -/
def World.continue (w : World) : Transition Running RunEnd :=
  match w.end? with
  | some result => .halt result
  | none =>
    match w.loop.next with
    | .resume task code outcome loop =>
      .next ⟨{ w with loop, current := task }, .ofOutcome outcome, code⟩
    | .internal loop => .next ⟨{ w with loop }, .parked, []⟩
    | .idle loop => .halt (.ok ⟨{ w with loop }, none⟩)

/-- One step of running code. -/
def Running.step : Running → Transition Running RunEnd
  | ⟨w, .execute node scope, stack⟩ => .next (w.execute stack node scope)
  | ⟨w, .evaluate node scope, stack⟩ => .next (w.evaluate stack node scope)
  | ⟨w, .suspend request, stack⟩ => .next (w.suspend stack request)
  | ⟨w, .parked, _⟩ => w.continue
  | ⟨w, .value v, frame :: stack⟩ => .next (w.onValue stack v frame)
  | ⟨w, .complete reason, frame :: stack⟩ => .next (w.onComplete stack reason frame)
  | ⟨w, .resumed v done, frame :: stack⟩ => .next (w.onResumed stack v done frame)
  | ⟨w, .raise failure, frame :: stack⟩ => .next (w.onRaise stack failure frame)
  | ⟨w, _, []⟩ => w.continue

/-- A program about to run. -/
def Running.start (config : Config) (program : Node) : Running :=
  let w := World.initial config
  let (main, loop) := w.loop.add {}
  let w := { w with loop, current := main }
  let (activation, w) := w.newActivation World.mainName config.allowTopLevelAwait
  let (scope, scopes) := w.scopes.add
    { parent := some World.outermost, activation := some activation, isFunction := true }
  { w with scopes }.enterFrame [.activationEnd activation, .asyncDrive, .programEnd] .module
    program.span scope program.children .normal

/-- More steps than any run takes that ends in a lifetime. -/
def stepLimit : Nat := 1000000000000000000

/-- Runs a program. -/
def run (config : Config) (program : Node) : RunResult Running RunEnd :=
  Transition.run Running.step stepLimit (Running.start config program.withIdentities)

/-- The end of a run; one that has used up its steps shows what it has done so far. -/
def runToEnd (config : Config) (program : Node) : RunEnd :=
  match run config program with
  | .halted result => result
  | .exhausted s => .ok ⟨s.world, none⟩

end ScopeExit.Script
