import ScopeExit.Script.Expression
import ScopeExit.Script.Suspension
/-!
What a frame does with the outcome of the code above it.

There is one table for each sort of outcome: a value, a completion, the step of a generator, a failure.
A frame that has no use for an outcome lets it pass.
-/
namespace ScopeExit.Script.World

variable (w : World) (stack : Stack)

/-! ### Values -/

/-- Goes on if a value is true, or otherwise. -/
def branch (v : Value) (yes no : World → Running) : Running :=
  w.attempt stack v.truthy fun w b => if b then yes w else no w

/-- An operand of an operator, if it is there. -/
def evaluateOperand (operand : Option Node) (scope : Nat) (frame : Frame) : Running :=
  match operand with
  | some operand => ⟨w, .evaluate operand scope, frame :: stack⟩
  | none => ⟨w, .raise (.host .index), stack⟩

/-- The result of a conversion as a value. -/
def give (r : Conversion Value) : Running := w.attempt stack r fun w v => ⟨w, .value v, stack⟩

/-- A frame takes a value; `stack` is what is below the frame. -/
def onValue (v : Value) : Frame → Running
  | .expressionStatement => ⟨w, .complete .normal, stack⟩
  | .declare kind name rest scope target =>
    declare stack kind scope target (w.define kind name target v) rest
  | .ifCondition node scope =>
    w.branch stack v (·.executeChild stack node 1 scope) fun w =>
      match node.child? 2 with
      | some alternative => ⟨w, .execute alternative scope, stack⟩
      | none => ⟨w, .complete .normal, stack⟩
  | .returnValue => ⟨w, .complete (.returning v), stack⟩
  | .throwValue => ⟨w, .raise (w.heap.thrown v), stack⟩
  | .whileCondition loop =>
    w.branch stack v (·.runPass (.whilePass loop :: stack) loop.body loop.scope)
      (⟨·, .complete .normal, stack⟩)
  | .doCondition loop =>
    w.branch stack v (·.runPass (.doPass loop :: stack) loop.body loop.scope)
      (⟨·, .complete .normal, stack⟩)
  | .forCondition loop scope =>
    w.branch stack v (·.runPass (.forPass loop scope :: stack) loop.body scope)
      (⟨·, .complete .normal, stack⟩)
  | .forStep loop scope => w.testFor stack loop scope
  | .forOfSubject node scope labels => w.startForOf stack node scope labels v
  | .switchSubject node scope labels => w.runSwitch stack node scope labels v
  | .switchTest subject clause rest fallback scope =>
    if subject.strictEquals v then
      ⟨w, .complete .normal, .statements (clausesStatements (clause :: rest)) scope :: stack⟩
    else w.testClauses stack subject scope fallback rest
  | .templatePart before rest scope =>
    w.attempt stack (w.heap.text v) fun w t => w.template stack (t :: before) rest scope
  | .binaryLeft op right scope => w.evaluateOperand stack right scope (.binaryRight op v)
  | .binaryRight op left => w.give stack (w.heap.binary op left v)
  | .logicalLeft op right scope => w.logical stack op v right scope
  | .unaryOperand op => w.give stack (w.heap.unary op v)
  | .placeObject target scope use => w.findPlaceIn stack v target scope use
  | .placeKey object use => w.usePlace stack (.property object v) use
  | .assignValue place => w.store stack place v v
  | .assignCombined place op current => w.assignCombined stack place op current v
  | .calleeObject callee rest scope => w.findMethod stack v callee rest scope
  | .calleeKey object rest scope => w.callMethod stack object v rest scope
  | .calleeValue name rest scope => w.arguments stack { function := v, name } [] rest scope
  | .argument callee before rest scope => w.arguments stack callee (v :: before) rest scope
  | .newCallee rest scope => w.newArguments stack v [] rest scope
  | .newArgument callee before rest scope => w.newArguments stack callee (v :: before) rest scope
  | .memberObject key => w.read stack v key
  | .indexObject key scope => w.evaluateOperand stack key scope (.indexKey v)
  | .indexKey object => w.read stack object v
  | .arrayElement before rest scope => w.elements stack (v :: before) rest scope
  | .objectProperty ref key rest scope =>
    { w with heap := w.heap.setProperty ref key v }.properties stack ref rest scope
  | .awaitOperand => ⟨w, .suspend (.await v), stack⟩
  | .yieldOperand => ⟨w, .suspend (.yield v), stack⟩
  | .conditionalTest node scope =>
    w.branch stack v (·.evaluateChild stack node 1 scope) (·.evaluateChild stack node 2 scope)
  | .sequenceElement rest scope => w.sequence stack rest scope v
  | .parameter closure name rest arguments scope =>
    (w.bind scope name v).bindParameters stack closure scope rest arguments
  | .callEnd => ⟨{ w with depth := w.depth - 1 }, .value v, stack⟩
  | .asyncStart =>
    let (p, w) := w.settledPromise (.ok v)
    ⟨w, .value (.promise p), stack⟩
  | .generatorBoundary g => ⟨w.setGenerator g .done, .resumed v true, stack⟩
  | .taskStart request => w.serve stack request
  | .nap seconds => ⟨{ w with loop := w.loop.rest w.current stack seconds }, .parked, []⟩
  | .taskEnd p => ⟨{ w with loop := w.loop.settle p (.ok v) }, .parked, []⟩
  | .programEnd => ⟨{ w with ending? := some none }, .parked, []⟩
  | _ => ⟨w, .value v, stack⟩

/-! ### Completions -/

/-- A frame takes a completion; `stack` is what is below the frame. -/
def onComplete (reason : ExitReason) : Frame → Running
  | .statements rest scope =>
    if reason.isAbrupt then ⟨w, .complete reason, stack⟩
    else
      match rest with
      | [] => ⟨w, .complete .normal, stack⟩
      | s :: rest => ⟨w, .execute s scope, .statements rest scope :: stack⟩
  | .scopeBody a handle atEnd =>
    w.leaveBody stack a handle (if reason.kind = .normal then atEnd else reason)
  | .scopeEnd => w.complete stack reason
  | .draining a drain => w.settleAction stack a drain none
  | .labeled labels => ⟨w, .complete (afterLabeled reason labels), stack⟩
  | .whilePass loop => w.afterPassThen stack reason loop.labels (·.testWhile stack loop)
  | .doPass loop =>
    w.afterPassThen stack reason loop.labels
      (⟨·, .evaluate loop.condition loop.scope, .doCondition loop :: stack⟩)
  | .forStart loop scope =>
    if reason.isAbrupt then ⟨w, .complete reason, stack⟩ else w.startFor stack loop scope
  | .forPass loop scope => w.afterPassThen stack reason loop.labels (·.stepFor stack loop scope)
  | .forOfPass loop =>
    match afterPass reason loop.labels with
    | none => w.nextElement stack loop
    | some reason => w.leaveForOf stack loop reason
  | .switchEnd labels => ⟨w, .complete (afterSwitch reason labels), stack⟩
  | .tryBody _ finalizer scope => w.finish stack finalizer scope reason
  | .catchBody finalizer scope => w.finish stack finalizer scope reason
  | .finallyBody completion =>
    if reason.isAbrupt then ⟨w, .complete reason, stack⟩ else w.complete stack completion
  | .functionEnd =>
    match reason with
    | .returning v => ⟨w, .value v, stack⟩
    | _ => ⟨w, .value .undefined, stack⟩
  | .programEnd => ⟨{ w with ending? := some none }, .parked, []⟩
  | _ => ⟨w, .complete reason, stack⟩

/-! ### Steps of generators -/

/-- A frame takes the step of a generator; `stack` is what is below the frame. -/
def onResumed (v : Value) (done : Bool) : Frame → Running
  | .iterationResult =>
    let (result, heap) := w.heap.newObject { properties := [("value", v), ("done", .bool done)] }
    ⟨{ w with heap }, .value result, stack⟩
  | .forOfNext loop =>
    if done then ⟨w, .complete .normal, stack⟩ else w.runElement stack loop v
  | .forOfClose reason => ⟨w, .complete reason, stack⟩
  | .forOfAbort failure => ⟨w, .raise failure, stack⟩
  | _ => ⟨w, .resumed v done, stack⟩

/-! ### Failures -/

/-- A failure that a frame cannot take passes. -/
def pass (failure : Failure) : Running := ⟨w, .raise failure, stack⟩

/-- A frame takes a failure; `stack` is what is below the frame. -/
def onRaise (failure : Failure) : Frame → Running
  | .statementEnd =>
    match failure with
    | .single (.forcedReturn v) => ⟨w, .complete (.returning v), stack⟩
    | _ => w.pass stack failure
  | .scopeBody a handle _ =>
    match failure with
    | .single (.forcedReturn v) => w.leaveBody stack a handle (.returning v)
    | _ =>
      if failure.isException then w.leaveBody stack a handle (.throwing (some failure))
      else w.pass stack failure
  | .draining a drain => w.settleAction stack a drain (some failure)
  | .forOfPass loop => w.abandonForOf stack loop failure
  | .forOfAbort earlier =>
    if failure.isException then w.pass stack earlier else w.pass stack failure
  | .tryBody handler finalizer scope =>
    if failure.isException then w.handle stack handler finalizer scope failure
    else w.pass stack failure
  | .catchBody finalizer scope =>
    if failure.isException then w.finish stack finalizer scope (.throwing (some failure))
    else w.pass stack failure
  | .callEnd =>
    let failure := match failure with
      | .single (.host .recursion _) => tooDeep
      | failure => failure
    { w with depth := w.depth - 1 }.pass stack failure
  | .asyncStart =>
    if failure.isException then
      let (p, w) := w.settledPromise (.error failure)
      ⟨w, .value (.promise p), stack⟩
    else w.pass stack failure
  | .generatorBoundary g => (w.setGenerator g .done).pass stack failure
  | .settling =>
    w.pass (if failure.isException then stack else Stack.belowDrive stack) failure
  | .taskEnd p => ⟨{ w with loop := w.loop.settle p (.error failure) }, .parked, []⟩
  | .programEnd => ⟨{ w with ending? := some (some failure) }, .parked, []⟩
  | _ => w.pass stack failure

end ScopeExit.Script.World
