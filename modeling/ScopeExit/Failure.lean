import ScopeExit.Span
import ScopeExit.Value
import ScopeExit.Tree.Node
/-!
Failures.

A `Failure` is a tree: a single fault, or a failure that occurred while another one was pending and
suppresses it.  Faults come in three severities.  An ordinary fault of a deferred action is collected
by the drain that runs the action; a breach of the engine's contract aborts the drain; so does a
fatal fault, which is no failure of the program at all but a request to leave it.
-/
namespace ScopeExit

/-! ### Vocabulary of the engine -/

/-- What a frame belongs to. -/
inductive FrameKind where
  | function | block | loopIterationBody | switchBody | module
  deriving DecidableEq, Inhabited

/-- The name of a kind of frame. -/
def FrameKind.name : FrameKind → String
  | .function => "function"
  | .block => "block"
  | .loopIterationBody => "loop_iteration_body"
  | .switchBody => "switch_body"
  | .module => "module"

/-- All kinds of frames. -/
def FrameKind.all : List FrameKind := [.function, .block, .loopIterationBody, .switchBody, .module]

/-- The kind of frame of a name. -/
def FrameKind.ofName? (s : String) : Option FrameKind := all.find? fun k => k.name == s

theorem FrameKind.ofName?_name (k : FrameKind) : ofName? k.name = some k := by
  cases k <;> decide +kernel

/-- A way to leave a deferred body that is not allowed. -/
inductive Transfer where
  | await | break | continue | return | yield
  deriving DecidableEq

/-- The name of a transfer. -/
def Transfer.name : Transfer → String
  | .await => "await"
  | .break => "break"
  | .continue => "continue"
  | .return => "return"
  | .yield => "yield"

/-- All transfers in the order of their names. -/
def Transfer.all : List Transfer := [.await, .break, .continue, .return, .yield]

/-- The transfer of a name. -/
def Transfer.ofName? (s : String) : Option Transfer := all.find? fun t => t.name == s

/-- Names of transfers as messages list them: sorted, each once. -/
def Transfer.listed (ts : List Transfer) : Text :=
  Text.join ", " ((all.filter ts.contains).map fun t => Text.ofString t.name)

/-! ### Breaches of a contract -/

/-- What an operation wanted to do with a frame that is not the innermost one. -/
inductive FrameVerb where
  | exit | registerInto | drain
  deriving DecidableEq

/-- The words of a message for it. -/
def FrameVerb.words : FrameVerb → String
  | .exit => "exit"
  | .registerInto => "register into"
  | .drain => "drain"

/-- The caller broke the contract of the engine. -/
inductive EngineError where
  | staleHandle (frame : Int)
  | notInnermost (verb : FrameVerb) (frame : Nat) (kind : FrameKind)
  | undrained (frame : Nat) (kind : FrameKind) (pending : Int)
  | notAccepting (frame : Nat) (kind : FrameKind)
  | alreadyDrained (frame : Nat) (kind : FrameKind)
  | notDraining (frame : Nat)
  | holdsAsync
  | scopeInactive
  | scopeActive
  deriving DecidableEq

/-- A frame in a message. -/
def frameText (frame : Nat) (kind : FrameKind) : Text :=
  Text.concat ["Frame ", Text.ofNat frame, " (", kind.name, ")"]

/-- The wording of a breach. -/
def EngineError.message : EngineError → Text
  | .staleHandle frame => Text.concat ["Stale frame handle ", Text.ofInt frame]
  | .notInnermost verb frame kind =>
    Text.concat ["Cannot ", verb.words, " frame ", Text.ofNat frame, " (", kind.name,
      "): it is not the innermost live frame"]
  | .undrained frame kind pending =>
    Text.concat [frameText frame kind, " exited with ", Text.ofInt pending,
      " undrained deferred actions"]
  | .notAccepting frame kind =>
    Text.concat [frameText frame kind, " is no longer accepting deferred actions"]
  | .alreadyDrained frame kind => Text.concat [frameText frame kind, " was already drained"]
  | .notDraining frame => Text.concat ["Frame ", Text.ofNat frame, " is not draining"]
  | .holdsAsync =>
    "Frame holds asynchronous deferred actions; drain it with AsyncSuspensionCoordinator.drain_async"
  | .scopeInactive => "DeferScope is not active; enter it with 'with'"
  | .scopeActive => "DeferScope is already active"

/-- A deferred action or a suspension stands where it may not. -/
inductive PlacementError where
  | asyncGenerator
  | deferAwaitOutsideAsync
  | unbracedLoopBody
  | nestedDefer
  | awaitOutsideAsync
  | yieldOutsideGenerator
  | escapes (transfers : List Transfer)
  deriving DecidableEq

/-- The wording of a misplaced action or suspension. -/
def PlacementError.message : PlacementError → Text
  | .asyncGenerator => "Async generator functions are not supported"
  | .deferAwaitOutsideAsync => "deferAwait is only allowed inside an async function or module"
  | .unbracedLoopBody =>
    "A deferred action cannot be the unbraced body of a loop; wrap it in a block"
  | .nestedDefer => "A deferred action cannot directly contain another; wrap it in a block"
  | .awaitOutsideAsync => "await is only valid in async functions and the top level of modules"
  | .yieldOutsideGenerator => "yield is only valid inside generator functions"
  | .escapes transfers =>
    Text.concat ["A deferred action may not contain ", Transfer.listed transfers,
      " that leaves the action"]

/-- A source text is not a program of the supported language. -/
inductive SourceError where
  | malformed (language : Text)
  | unsupported (what : Text)

/-- The wording of a rejected source text. -/
def SourceError.message : SourceError → Text
  | .malformed language => Text.concat ["Syntax error in ", language, " source"]
  | .unsupported what => Text.concat ["Unsupported syntax: ", what]

/-- The evaluator met a tree that no accepted program has. -/
inductive EvaluatorError where
  | unhandledStatement (kind : NodeKind)
  | unhandledExpression (kind : NodeKind)
  | suspendedInSync (request : Text)
  | suspendedInAsync (request : Text)
  | suspendedGenerator (name request : Text)

/-- The wording of such a failure. -/
def EvaluatorError.message : EvaluatorError → Text
  | .unhandledStatement kind => Text.concat ["Unhandled statement kind ", kind.name]
  | .unhandledExpression kind => Text.concat ["Unhandled expression kind ", kind.name]
  | .suspendedInSync request =>
    Text.concat ["Unexpected suspension in synchronous code: ", request]
  | .suspendedInAsync request => Text.concat ["Unexpected suspension in async code: ", request]
  | .suspendedGenerator name request =>
    Text.concat ["Generator ", name, " suspended on ", request]

/-- The classes of breaches. -/
inductive ContractClass where
  | base | engine | placement | source | evaluator
  deriving DecidableEq

/-- The name of a class of breaches in reports. -/
def ContractClass.name : ContractClass → String
  | .base => "DeferscopeError"
  | .engine => "EngineError"
  | .placement => "StaticSemanticsError"
  | .source => "FrontendError"
  | .evaluator => "EvaluatorError"

/-- A breach of a contract of the library. -/
inductive ContractError where
  | engine (cause : EngineError)
  | placement (cause : PlacementError) (span : Span)
  | source (cause : SourceError) (span : Span)
  | evaluator (cause : EvaluatorError)
  /-- A breach that a caller reports in its own words. -/
  | stated (kind : ContractClass) (message : Text)

namespace ContractError

/-- The class of a breach. -/
def kind : ContractError → ContractClass
  | .engine _ => .engine
  | .placement .. => .placement
  | .source .. => .source
  | .evaluator _ => .evaluator
  | .stated kind _ => kind

/-- The wording of a breach, with its place if that is known. -/
def message : ContractError → Text
  | .engine cause => cause.message
  | .placement cause span => cause.message ++ span.suffix
  | .source cause span => cause.message ++ span.suffix
  | .evaluator cause => cause.message
  | .stated _ message => message

end ContractError

/-! ### Faults and failures -/

/-- Classes of failures of the surrounding program. -/
inductive HostClass where
  | value | runtime | key | type | stopIteration
  | overflow | memory | index | attribute | recursion | decoding | missingFile
  deriving DecidableEq

/-- The name of a class of host failures in reports. -/
def HostClass.name : HostClass → String
  | .value => "ValueError"
  | .runtime => "RuntimeError"
  | .key => "KeyError"
  | .type => "TypeError"
  | .stopIteration => "StopIteration"
  | .overflow => "OverflowError"
  | .memory => "MemoryError"
  | .index => "IndexError"
  | .attribute => "AttributeError"
  | .recursion => "RecursionError"
  | .decoding => "UnicodeDecodeError"
  | .missingFile => "FileNotFoundError"

/-- A single cause of a failure. -/
inductive Fault where
  /-- A value that a script threw. -/
  | thrown (value : Value)
  /-- An error of a script that the evaluator found. -/
  | script (name message : Text)
  /-- A breach of a contract of the library. -/
  | contract (error : ContractError)
  /-- A failure of the surrounding program.  Its wording is known only if a caller gave it. -/
  | host (kind : HostClass) (message : Option Text)
  /-- A request to leave a generator as if it had returned a value. -/
  | forcedReturn (value : Value)
  /-- A request to close a generator. -/
  | closing (message : Text)
  /-- A failure that nothing may handle. -/
  | fatal (message : Text)

/-- How far a fault reaches. -/
inductive Severity where
  | ordinary | contract | fatal
  deriving DecidableEq

/-- The severity of a fault. -/
def Fault.severity : Fault → Severity
  | .thrown _ | .script .. | .host .. => .ordinary
  | .contract _ => .contract
  | .forcedReturn _ | .closing _ | .fatal _ => .fatal

/-- A failure: a fault, or a failure that suppresses an earlier one. -/
inductive Failure where
  | single (fault : Fault)
  | suppressing (message : Text) (error suppressed : Failure)

instance : Coe Fault Failure := ⟨.single⟩

instance : Inhabited Failure := ⟨.single (.fatal "")⟩

/-- The message of a failure that suppresses an earlier one. -/
def suppressionMessage : Text := "A deferred action failed while another failure was pending"

namespace Failure

/-- The severity of a failure; one that suppresses another is ordinary whatever it holds. -/
def severity : Failure → Severity
  | .single fault => fault.severity
  | .suppressing .. => .ordinary

/-- A failure that `catch` clauses and handlers of ordinary failures may take: all but fatal ones. -/
def isException (f : Failure) : Bool := f.severity != .fatal

/-- A failure that a script may catch. -/
def isScript : Failure → Bool
  | .single (.thrown _) | .single (.script ..) | .suppressing .. => true
  | _ => false

/-- The single faults of a failure, the suppressing ones first. -/
def leaves : Failure → List Fault
  | .single fault => [fault]
  | .suppressing _ error suppressed => error.leaves ++ suppressed.leaves

/-- The failures folded into one by suppression, most recent first. -/
def links : Failure → List Failure
  | .single fault => [.single fault]
  | .suppressing _ error suppressed => error :: suppressed.links

/-- The earlier failure that a failure suppresses. -/
def cause? : Failure → Option Failure
  | .suppressing _ _ suppressed => some suppressed
  | _ => none

/-- A failure of the engine. -/
def engine (cause : EngineError) : Failure := .single (.contract (.engine cause))

/-- A misplaced action. -/
def placement (cause : PlacementError) (span : Span) : Failure :=
  .single (.contract (.placement cause span))

/-- A failure of the evaluator. -/
def evaluator (cause : EvaluatorError) : Failure := .single (.contract (.evaluator cause))

/-- A type error of a script. -/
def typeError (message : Text) : Failure := .single (.script "TypeError" message)

/-- A failure of the surrounding program without wording. -/
def host (kind : HostClass) : Failure := .single (.host kind none)

/-- The failure that a numeric operation without a result means for the surrounding program. -/
def ofNumberError : NumberError → Failure
  | .tooLarge => .single (.host .overflow none)
  | .quotientTooLarge => .single (.host .overflow none)
  | .tooManyDigits => .single (.host .value none)

end Failure

end ScopeExit
