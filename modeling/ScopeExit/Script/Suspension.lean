import ScopeExit.Script.Draining
/-!
Suspensions.

A suspension travels down to the nearest boundary, and the boundary decides what becomes of the code
above it.  A synchronous boundary refuses.  A generator keeps the code for its next resumption.  The
start of an asynchronous function makes a task of it.  Code of a task asks the event loop to wait, or
drains a frame itself.
-/
namespace ScopeExit.Script

/-- Frames at which a suspension ends. -/
def Frame.isBoundary : Frame → Bool
  | .syncBoundary | .asyncStart | .asyncDrive | .generatorBoundary _ => true
  | _ => false

/-- The frames above the nearest boundary. -/
def Stack.segment (stack : Stack) : Stack := stack.takeWhile fun f => !f.isBoundary

/-- The nearest boundary and the frames below it. -/
def Stack.fromBoundary (stack : Stack) : Stack := stack.dropWhile fun f => !f.isBoundary

/-- The frames below the code of the running task that drives itself. -/
def Stack.belowDrive : Stack → Stack
  | [] => []
  | .asyncDrive :: rest => rest
  | _ :: rest => belowDrive rest

theorem Stack.segment_append_fromBoundary (stack : Stack) :
    stack.segment ++ stack.fromBoundary = stack :=
  List.takeWhile_append_dropWhile

namespace World

variable (w : World) (stack : Stack)

/-- A request as messages show it. -/
def requestText : Request → Conversion Text
  | .await value => do pure (Text.concat ["AwaitRequest(value=", ← w.heap.listing value, ")"])
  | .yield value => do pure (Text.concat ["YieldRequest(value=", ← w.heap.listing value, ")"])
  | .drain .. => pure "AwaitRequest(value=<drain>)"

/-- Refuses a request. -/
def refuse (request : Request) (cause : Text → EvaluatorError) : Running :=
  w.attempt stack (w.requestText request) fun w text => ⟨w, .raise (.evaluator (cause text)), stack⟩

/-- Waits for a value.  What is no promise costs one turn; a promise that is settled costs nothing; a
task that waits for itself fails. -/
def await (value : Value) : Running :=
  let code := .settling :: stack
  match value with
  | .promise p =>
    let w := { w with observed := p :: w.observed }
    match w.loop.outcome? p with
    | some (.ok v) => ⟨w, .value v, code⟩
    | some (.error failure) => ⟨w, .raise failure, code⟩
    | none =>
      let loop :=
        if p = w.current then w.loop.giveWay w.current code (.error (.host .runtime))
        else w.loop.park w.current code p
      ⟨{ w with loop }, .parked, []⟩
  | v => ⟨{ w with loop := w.loop.giveWay w.current code (.ok v) }, .parked, []⟩

/-- Serves a request of the code of a task. -/
def serve (request : Request) : Running :=
  match request with
  | .await value => w.await stack value
  | .drain a handle reason => w.drain (.settling :: stack) a handle .async reason
  | .yield _ => w.refuse stack.belowDrive request .suspendedInAsync

/-- Suspends running code. -/
def suspend (request : Request) : Running :=
  match stack.fromBoundary with
  | .syncBoundary :: rest => w.refuse rest request .suspendedInSync
  | .generatorBoundary g :: rest =>
    match request with
    | .yield value => ⟨w.setGenerator g (.suspended stack.segment), .resumed value false, rest⟩
    | _ =>
      (w.setGenerator g .done).refuse rest request (.suspendedGenerator (w.heap.generatorName g))
  | .asyncStart :: rest =>
    let (p, w) := w.spawn fun task =>
      .taskStart request :: stack.segment ++ [.asyncDrive, .taskEnd task]
    ⟨w, .value (.promise p), rest⟩
  | _ => w.serve stack request

end World

end ScopeExit.Script
