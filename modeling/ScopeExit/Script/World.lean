import ScopeExit.Engine.Dispatch
import ScopeExit.Loop
import ScopeExit.Script.Scope
import ScopeExit.Value.Description
/-!
The state of a running script.

A `World` holds what outlives a step: the heap, the scopes, the activations with their registries, the
generators, the event loop and what has been observed so far.  The code that is running is a
`Control` on top of a stack of `Frame`s.  A frame says what to do with the outcome of what stands above
it.  Some frames are boundaries: a suspension travels down to the nearest one, which decides what
becomes of the frames above it.
-/
namespace ScopeExit.Script

/-- How a program is run. -/
structure Config where
  allowTopLevelAwait : Bool := true
  settleBackground : Bool := true
  maxCallDepth : Int := 200
  recordTrace : Bool := true

/-- Counts of a run. -/
structure Stats where
  statements : Nat := 0
  activations : Nat := 0
  framesEntered : Nat := 0
  drains : Nat := 0
  actionsExecuted : Nat := 0
  actionFailures : Nat := 0
  deriving Inhabited

/-- The body of a deferred action of a script: a statement and the scope that it runs in. -/
structure Deferred where
  body : Node
  scope : Nat
  deriving Inhabited

/-- One running function body, or the module. -/
structure Activation where
  isAsync : Bool
  registry : Registry Deferred

instance : Inhabited Activation := ⟨⟨false, default⟩⟩

/-- A suspension and what it asks for. -/
inductive Request where
  /-- Go on when the value is settled. -/
  | await (value : Value)
  /-- Hand a value to the caller of the generator. -/
  | yield (value : Value)
  /-- Drain a frame that holds asynchronous actions. -/
  | drain (activation : Nat) (handle : FrameHandle) (reason : ExitReason)

/-- What an assignment or an update goes to. -/
inductive Place where
  | name (name : Text) (scope : Nat)
  | property (object key : Value)

/-- What happens to a place once it is known. -/
inductive PlaceUse where
  | update (op : Text) (isLeading : Bool)
  | assign (op : Option Text) (right : Node) (scope : Nat)

/-- The parts of a `while` or `do` loop. -/
structure PlainLoop where
  condition : Node
  body : Node
  scope : Nat
  labels : List Text

/-- The parts of a `for` loop. -/
structure CountingLoop where
  condition : Node
  step : Node
  body : Node
  labels : List Text
  /-- Every pass has bindings of its own. -/
  perPass : Bool

/-- The parts of a loop over the elements of a value, and how far it has come. -/
structure ElementLoop where
  name : Text
  body : Node
  scope : Nat
  labels : List Text
  iterable : Value
  position : Nat

/-- What a call does: the function, and the name that messages use for it. -/
structure Callee where
  function : Value
  name : Text

/-- What to do with the outcome of the code above. -/
inductive Frame where
  /- Statements -/
  /-- The end of a statement; a forced return that reaches it becomes a completion. -/
  | statementEnd
  | statements (rest : List Node) (scope : Nat)
  | expressionStatement
  | declare (kind name : Text) (rest : List Node) (scope target : Nat)
  /-- A frame of the activation is live. -/
  | scopeBody (activation : Nat) (handle : FrameHandle) (atEnd : ExitReason)
  /-- The frame is drained; its exit reason is on the way. -/
  | scopeEnd
  /-- An action of the drain is running. -/
  | draining (activation : Nat) (drain : Drain)
  | ifCondition (node : Node) (scope : Nat)
  | returnValue
  | throwValue
  /-- A labeled statement; a break that names one of its labels ends there. -/
  | labeled (labels : List (Option Text))
  | whileCondition (loop : PlainLoop)
  | whilePass (loop : PlainLoop)
  | doPass (loop : PlainLoop)
  | doCondition (loop : PlainLoop)
  | forStart (loop : CountingLoop) (scope : Nat)
  | forCondition (loop : CountingLoop) (scope : Nat)
  | forPass (loop : CountingLoop) (scope : Nat)
  | forStep (loop : CountingLoop) (scope : Nat)
  | forOfSubject (node : Node) (scope : Nat) (labels : List Text)
  /-- The generator is asked for its next element. -/
  | forOfNext (loop : ElementLoop)
  | forOfPass (loop : ElementLoop)
  /-- The generator is closed because the loop ends with a completion. -/
  | forOfClose (completion : ExitReason)
  /-- The generator is closed because a pass failed. -/
  | forOfAbort (failure : Failure)
  | switchSubject (node : Node) (scope : Nat) (labels : List Text)
  | switchTest (subject : Value) (clause : Node) (rest : List Node)
      (fallback : Option (List Node)) (scope : Nat)
  | switchEnd (labels : List Text)
  | tryBody (handler finalizer : Node) (scope : Nat)
  | catchBody (finalizer : Node) (scope : Nat)
  | finallyBody (completion : ExitReason)
  /- Expressions -/
  | templatePart (before : List Text) (rest : List Node) (scope : Nat)
  | binaryLeft (op : Text) (right : Option Node) (scope : Nat)
  | binaryRight (op : Text) (left : Value)
  | logicalLeft (op : Text) (right : Option Node) (scope : Nat)
  | unaryOperand (op : Text)
  | placeObject (target : Node) (scope : Nat) (use : PlaceUse)
  | placeKey (object : Value) (use : PlaceUse)
  | assignValue (place : Place)
  | assignCombined (place : Place) (op : Option Text) (current : Value)
  | calleeObject (callee : Node) (arguments : List Node) (scope : Nat)
  | calleeKey (object : Value) (arguments : List Node) (scope : Nat)
  | calleeValue (name : Text) (arguments : List Node) (scope : Nat)
  | argument (callee : Callee) (before : List Value) (rest : List Node) (scope : Nat)
  | newCallee (arguments : List Node) (scope : Nat)
  | newArgument (constructor : Value) (before : List Value) (rest : List Node) (scope : Nat)
  | memberObject (key : Value)
  | indexObject (key : Option Node) (scope : Nat)
  | indexKey (object : Value)
  | arrayElement (before : List Value) (rest : List Node) (scope : Nat)
  | objectProperty (ref : Nat) (key : Text) (rest : List Node) (scope : Nat)
  | awaitOperand
  | yieldOperand
  | conditionalTest (node : Node) (scope : Nat)
  | sequenceElement (rest : List Node) (scope : Nat)
  /- Calls -/
  /-- The default value of a parameter is computed. -/
  | parameter (closure : Nat) (name : Text) (rest : List Node) (arguments : List Value)
      (scope : Nat)
  | functionEnd
  /-- The end of an activation: all its code stands above. -/
  | activationEnd (activation : Nat)
  /-- The end of a call, where the depth of calls goes down again. -/
  | callEnd
  /-- The result of resuming a generator becomes an object. -/
  | iterationResult
  /- Boundaries -/
  /-- Code that may not suspend. -/
  | syncBoundary
  /-- The body of an asynchronous function before its first suspension. -/
  | asyncStart
  /-- Code whose suspensions its task waits for. -/
  | asyncDrive
  | generatorBoundary (generator : Nat)
  /- Tasks -/
  /-- An awaited value is on the way to the code above. -/
  | settling
  /-- The first step of a task that goes on from a suspension. -/
  | taskStart (request : Request)
  /-- A task that sleeps. -/
  | nap (seconds : Float)
  | taskEnd (promise : Nat)
  | programEnd

/-- The frames of running or suspended code, the innermost first. -/
abbrev Stack := List Frame

/-- What the code on top of the stack does. -/
inductive Control where
  /-- Execute a statement. -/
  | execute (node : Node) (scope : Nat)
  /-- Evaluate an expression. -/
  | evaluate (node : Node) (scope : Nat)
  /-- An expression has a value. -/
  | value (value : Value)
  /-- A statement has completed. -/
  | complete (reason : ExitReason)
  /-- A generator has been resumed and gave a value. -/
  | resumed (value : Value) (done : Bool)
  | raise (failure : Failure)
  | suspend (request : Request)
  /-- The running task has nothing more to do for now. -/
  | parked

/-- A generator. -/
inductive GeneratorState where
  /-- Its body has not been started. -/
  | fresh (closure : Nat) (arguments : List Value) (activation : Nat)
  | suspended (stack : Stack)
  | running
  | done

instance : Inhabited GeneratorState := ⟨.done⟩

/-- Everything but the running code. -/
structure World where
  config : Config := {}
  heap : Heap := {}
  scopes : Scopes := {}
  activations : Array Activation := #[]
  generators : Array GeneratorState := #[]
  loop : Loop Stack := {}
  /-- The promises that the program has made, in order. -/
  tracked : Array Nat := #[]
  /-- The promises that were awaited. -/
  observed : List Nat := []
  output : Array Text := #[]
  stats : Stats := {}
  drains : Array DrainRecord := #[]
  /-- How many calls are in progress. -/
  depth : Int := 0
  /-- The task that is running. -/
  current : Nat := 0
  /-- How the program itself has ended, if it has: with a failure or without. -/
  ending? : Option (Option Failure) := none
  deriving Inhabited

/-- Running code in its world. -/
structure Running where
  world : World
  control : Control
  stack : Stack

namespace World

/-- An activation. -/
def activation (w : World) (i : Nat) : Activation := w.activations.getD i default

/-- The registry of an activation. -/
def registry (w : World) (i : Nat) : Registry Deferred := (w.activation i).registry

/-- An activation with another registry. -/
def setRegistry (w : World) (i : Nat) (r : Registry Deferred) : World :=
  { w with activations := w.activations.modify i fun a => { a with registry := r } }

/-- A new activation. -/
def newActivation (w : World) (name : Text) (isAsync : Bool) : Nat × World :=
  (w.activations.size,
    { w with
      activations := w.activations.push { isAsync, registry := { name } }
      stats := { w.stats with activations := w.stats.activations + 1 } })

/-- A generator. -/
def generator (w : World) (g : Nat) : GeneratorState := w.generators.getD g .done

/-- A generator in another state. -/
def setGenerator (w : World) (g : Nat) (state : GeneratorState) : World :=
  { w with generators := w.generators.setIfInBounds g state }

/-- A new scope inside another one. -/
def childScope (w : World) (scope : Nat) : Nat × World :=
  let (i, scopes) := w.scopes.child scope
  (i, { w with scopes })

/-- Binds a name in a scope. -/
def bind (w : World) (scope : Nat) (name : Text) (value : Value) : World :=
  { w with scopes := w.scopes.bind scope name value }

/-- A promise that the program has made. -/
def track (w : World) (p : Nat) : World := { w with tracked := w.tracked.push p }

/-- A new task that the program has made; it ends with the settlement of its promise. -/
def spawn (w : World) (stack : Nat → Stack) : Nat × World :=
  let task := w.loop.promises.size
  let (p, loop) := w.loop.spawn (stack task)
  (p, { w with loop }.track p)

/-- A promise that is settled from the start. -/
def settledPromise (w : World) (outcome : Outcome) : Nat × World :=
  let (p, loop) := w.loop.add { outcome? := some outcome }
  (p, { w with loop }.track p)

/-- Takes the record of a drain into the ledger. -/
def report (w : World) (r : DrainRecord) : World :=
  { w with
    stats := { w.stats with
      drains := w.stats.drains + 1
      actionsExecuted := w.stats.actionsExecuted + r.executed
      actionFailures := w.stats.actionFailures + r.failures }
    drains := if w.config.recordTrace then w.drains.push r else w.drains }

/-- The result of a change of the world, and the world after it.  A change that fails leaves the
world as it was. -/
abbrev Change (α : Type) := Except Failure α × World

/-- Changes the world by what a computation gives, if it gives something. -/
def change {α β : Type} (w : World) (r : Except Failure α) (f : World → α → β × World) : Change β :=
  match r with
  | .ok x =>
    let (y, w) := f w x
    (.ok y, w)
  | .error failure => (.error failure, w)

/-- Goes on after a change, or raises the failure that there is instead. -/
def perform {α : Type} (stack : Stack) (c : Change α) (go : World → α → Running) : Running :=
  match c with
  | (.ok x, w) => go w x
  | (.error failure, w) => ⟨w, .raise failure, stack⟩

/-- Goes on with a result, or raises the failure that there is instead. -/
def attempt {α : Type} (w : World) (stack : Stack) (r : Except Failure α)
    (go : World → α → Running) : Running := perform stack (r, w) go

end World

end ScopeExit.Script
