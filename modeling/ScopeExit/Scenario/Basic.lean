import ScopeExit.DeferScope
import ScopeExit.Loop
/-!
Scenarios: the engine in the hands of a program that is no script.

A scenario is a list of steps.  A step is one operation on a registry, on a scope, or on a function that
brackets its calls with a scope.  The bodies of deferred actions and of the function are lists of
instructions, which may in turn perform steps.  What a step gives, or the failure that it ends with,
is its answer; what the bodies do in the meantime goes to a log.
-/
namespace ScopeExit.Scenario

/-- What the drain of a frame is for. -/
inductive DrainPurpose where
  /-- To run the actions and see the failures. -/
  | drain
  /-- To see all about the drain. -/
  | unwind
  /-- To leave the frame. -/
  | dispatch
  deriving DecidableEq

/-- How a generator is resumed, or closed. -/
inductive Resumption where
  | send (value : Value)
  | throw (failure : Failure)
  | close

mutual

/-- An instruction of a body. -/
inductive Instruction where
  | note (value : Value)
  /-- The callback logs the arguments that it was registered with. -/
  | noteArguments (positional : List Value) (named : List (Text × Value))
  | fail (failure : Failure)
  /-- Gives way for some turns. -/
  | pause (turns : Nat)
  | sleep (milliseconds : Number)
  /-- Starts a task that nobody waits for. -/
  | spawn (body : List Instruction)
  /-- Performs a step and logs its answer. -/
  | perform (step : Step)
  /-- Registers a callback in the scope of the function. -/
  | defer (how : Registration) (isCoroutine : Bool) (body : List Instruction)
  /-- Logs how many callbacks the scope of the function has. -/
  | pending
  /-- Logs an argument of the function. -/
  | argument (position : Nat)
  | return (value : Value)
  /-- Hands out a value.  The value that comes back is logged in the report of the step that the
  other one was handed out in, and a failure that comes back is logged if it is caught. -/
  | yield (value : Value) (catches : Bool)

/-- An operation.  Registries, handles and scopes have names. -/
inductive Step where
  /- Registries -/
  | newRegistry (label name : Text)
  | enter (registry label : Text) (kind : FrameKind) (isAsync : Bool) (span : Span)
  | forge (label : Text) (handle : FrameHandle)
  | register (registry handle id : Text) (action : Action Unit) (isCoroutine : Bool)
      (body : List Instruction)
  | exit (registry handle : Text)
  | begin (registry handle : Text)
  | finish (registry handle : Text)
  | frame (registry handle : Text)
  | pop (registry handle : Text) (runs : Bool)
  | pending (registry handle : Text)
  | pendingActions (registry handle : Text)
  | hasAsync (registry handle : Text)
  | innermost (registry : Text)
  | lineage (registry handle : Text)
  | drain (registry handle : Text) (purpose : DrainPurpose) (mode : ActionMode)
      (pending : ExitReason)
  /-- Lets time pass. -/
  | sleep (milliseconds : Number)
  /- Scopes -/
  | newScope (label : Text) (kind : FrameKind) (name : Text)
  | enterScope (label : Text) (isAsync : Bool)
  | leaveScope (label : Text) (isAsync : Bool) (failure? : Option Failure)
  | deferIn (label : Text) (how : Registration) (isCoroutine : Bool) (body : List Instruction)
  | scopePending (label : Text)
  /- The function -/
  | call (arguments : List Value)
  | resume (how : Resumption)

end

instance : Inhabited Instruction := ⟨.pending⟩

instance : Inhabited Step := ⟨.newRegistry "" ""⟩

/-- The body of a deferred action.  The body of a coroutine may suspend. -/
structure Callback where
  id : Text
  isCoroutine : Bool
  body : List Instruction
  deriving Inhabited

/-- What a function that brackets its calls with a scope is made as. -/
inductive Form where
  | plain | coroutine | generator
  deriving DecidableEq

/-- A function that brackets its calls with a scope. -/
structure Function where
  form : Form := .plain
  name : Text := ""
  body : List Instruction := []
  deriving Inhabited

/-- What a step gives. -/
inductive Answer where
  | nothing
  | truth (b : Bool)
  | count (n : Int)
  | text (t : Text)
  | value (v : Value)
  | handle (h : FrameHandle)
  | frame (f : ScopeFrame)
  | actions (ids : List Text)
  | usesAsync (b : Bool)
  | lineage (frames : List ScopeFrame)
  | chain (c : Option FailureChain)
  | outcome (o : DrainOutcome)
  | reason (r : ExitReason)
  | scope (kind : FrameKind) (name : Text)
  /-- A generator has ended with a value. -/
  | stopped (v : Value)

instance : Inhabited Answer := ⟨.nothing⟩

/-- An entry of the log. -/
inductive Entry where
  | note (v : Value)
  | arguments (positional : List Value) (named : List (Text × Value))
  | answer (result : Except Failure Answer)
  /-- A generator was resumed with a value. -/
  | sent (v : Value)
  /-- A generator has caught a failure. -/
  | caught (failure : Failure)

/-- Where a registry is found. -/
inductive Owner where
  | registry (label : Text)
  | scope (index : Nat)
  deriving DecidableEq

/-- What a drain is followed by. -/
inductive Sequel where
  /-- The step asked for the drain. -/
  | answer (purpose : DrainPurpose)
  /-- A scope is left. -/
  | scope
  /-- The call of a function is over: what its body came to. -/
  | call (result : Except Failure Value)

/-- What to do with the outcome of the code above. -/
inductive Frame where
  /-- The rest of a body. -/
  | body (rest : List Instruction)
  /-- Gives way for some more turns. -/
  | pausing (turns : Nat)
  /-- A generator has handed out a value in the step with this number. -/
  | yielded (catches : Bool) (step : Nat)
  /-- A failure that signals the end of an iteration may not leave code that can suspend. -/
  | suspendable
  /-- The answer of a step inside a body goes to the log. -/
  | logged
  /-- The action that was taken off runs. -/
  | popped (id : Text)
  | draining (owner : Owner) (drain : Drain) (sequel : Sequel)
  /-- The body of a function in its scope. -/
  | function (scope : Nat)
  | generator
  /-- A generator is being closed. -/
  | closing
  | stepEnd (step : Step)
  | taskEnd (promise : Nat)

/-- The frames of running or suspended code, the innermost first. -/
abbrev Stack := List Frame

/-- What the code on top of the stack does. -/
inductive Control where
  | perform (step : Step)
  | answer (a : Answer)
  /-- The body of a function returns. -/
  | returned (v : Value)
  | raise (failure : Failure)
  | yield (v : Value)
  | parked

/-- The generator that the last call made. -/
inductive GeneratorState where
  | fresh (arguments : List Value)
  | suspended (stack : Stack)
  | done

/-- What is visible after a step. -/
structure Report where
  result : Except Failure Answer
  log : List Entry
  /-- The records of drains. -/
  records : List DrainRecord
  /-- The number of live frames of the registry that the step is about. -/
  depth : Nat
  /-- The number of actions in it. -/
  arena : Nat
  /-- The number of callbacks of the scope that the step is about. -/
  pending? : Option Int

/-- Everything but the running code. -/
structure World where
  registries : List (Text × Registry Callback) := []
  handles : List (Text × FrameHandle) := []
  scopes : Array (DeferScope Callback) := #[]
  /-- The scopes that have a name. -/
  scopeNames : List (Text × Nat) := []
  function : Function := {}
  /-- The arguments of the last call. -/
  arguments : List Value := []
  /-- The scope of the last call. -/
  callScope : Nat := 0
  generator : GeneratorState := .done
  /-- The entries since the last report, the latest first. -/
  log : List Entry := []
  /-- The records since the last report, the latest first. -/
  records : List DrainRecord := []
  loop : Loop Stack := {}
  /-- The task that is running. -/
  current : Nat := 0
  /-- The steps that are left. -/
  steps : List Step := []
  reports : Array Report := #[]

/-- Running code in its world. -/
structure Running where
  world : World
  control : Control
  stack : Stack

end ScopeExit.Scenario
