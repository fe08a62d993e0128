import ScopeExit.Script.Draining
/-!
Calls: script functions, built-in functions, constructors and the resumption of generators.

A call pushes the frames that wait for its end and then goes on with the body; nothing here recurses.
The body of a synchronous function runs above a boundary that refuses suspensions, the body of an
asynchronous one above a boundary that turns the first suspension into a task.
-/
namespace ScopeExit.Script

namespace World

/-! ### Function bodies -/

/-- Goes on with the body of a function whose parameters are bound. -/
def enterBody (w : World) (stack : Stack) (body : Node) (scope : Nat) : Running :=
  if body.kind = .block then
    w.enterFrame (.functionEnd :: stack) .function body.span scope body.children .normal
  else ⟨w, .evaluate body scope, stack⟩

/-- Binds the parameters of a function and goes on with its body.  A missing argument takes the
default of its parameter, which is evaluated when its turn comes. -/
def bindParameters (w : World) (stack : Stack) (closure scope : Nat) :
    List Node → List Value → Running
  | [], _ => w.enterBody stack (w.heap.closure closure).body scope
  | p :: rest, arguments =>
    let value := arguments.headD .undefined
    match p.child? 0 with
    | some byDefault =>
      if value.isUndefined then
        ⟨w, .evaluate byDefault scope,
          .parameter closure p.name rest (arguments.drop 1) scope :: stack⟩
      else (w.bind scope p.name value).bindParameters stack closure scope rest (arguments.drop 1)
    | none => (w.bind scope p.name value).bindParameters stack closure scope rest (arguments.drop 1)

/-- Starts the body of a function for an activation. -/
def startBody (w : World) (stack : Stack) (closure activation : Nat) (arguments : List Value) :
    Running :=
  let c := w.heap.closure closure
  let (scope, scopes) := w.scopes.add
    { parent := some c.scope, activation := some activation, isFunction := true }
  { w with scopes }.bindParameters (.activationEnd activation :: stack) closure scope c.params
    arguments

/-! ### Generators -/

/-- Resumes a generator.  Its step ends with a value, with a failure, or by a `resumed`. -/
def resume (w : World) (stack : Stack) (g : Nat) (mode : ResumeMode) (value : Value) : Running :=
  match w.generator g with
  | .running => ⟨w, .raise (.typeError "Generator is already running"), stack⟩
  | .done => finished w
  | .fresh closure arguments activation =>
    if mode = .next then
      (w.setGenerator g .running).startBody (.generatorBoundary g :: stack) closure activation
        arguments
    else finished (w.setGenerator g .done)
  | .suspended code =>
    let running (control : Control) : Running :=
      ⟨w.setGenerator g .running, control, code ++ .generatorBoundary g :: stack⟩
    match mode with
    | .next => running (.value value)
    | .return => running (.raise (.single (.forcedReturn value)))
    | .throw =>
      match w.heap.describe value with
      | .ok _ => running (.raise (.single (.thrown value)))
      | .error failure => ⟨w.setGenerator g .done, .raise failure, stack⟩
where
  /-- The answer of a generator that runs no more code. -/
  finished (w : World) : Running :=
    match mode with
    | .next => ⟨w, .resumed .undefined true, stack⟩
    | .return => ⟨w, .resumed value true, stack⟩
    | .throw => ⟨w, .raise (w.heap.thrown value), stack⟩

/-! ### Built-in functions -/

/-- The message that the constructor of an error makes of its argument. -/
def errorMessage (w : World) (argument : Value) : Conversion Text :=
  if argument.isUndefined then pure Text.empty else w.heap.text argument

/-- A value made on the heap. -/
def made (w : World) (r : Value × Heap) : Value × World := (r.1, { w with heap := r.2 })

/-- How long a sleep takes: the argument counts milliseconds, and less than none is none. -/
def sleepSeconds (w : World) (arguments : List Value) : Conversion Float :=
  let ms : Number := match arguments with
    | [] => 0
    | v :: _ => w.heap.number v
  ofNumeric (seconds (if ms.lt 0 then 0 else ms))

/-- A new task that sleeps and ends. -/
def nap (w : World) (seconds : Float) : Value × World :=
  let (p, w) := w.spawn fun task => [.nap seconds, .taskEnd task]
  (.promise p, w)

/-- The elements of an array with a separator between them, which is a comma if none is given. -/
def joinedElements (w : World) (ref : Nat) (separator : Value) : Conversion Text := do
  let separator ← if separator.isUndefined then pure (Text.ofString ",") else w.heap.text separator
  w.heap.joined separator ref

/-- The effect of a built-in function other than the resumption of a generator. -/
def apply (w : World) (builtin : Builtin) (arguments : List Value) : Change Value :=
  let argument (i : Nat) : Value := arguments.getD i .undefined
  match builtin with
  | .log =>
    w.change (arguments.mapM w.heap.text) fun w texts =>
      (.undefined, { w with output := w.output.push (Text.join " " texts) })
  | .tick => w.change (.ok 0) nap
  | .sleep => w.change (w.sleepSeconds arguments) nap
  | .toText =>
    match arguments with
    | [] => (.ok (.text ""), w)
    | v :: _ => (Value.text <$> w.heap.text v, w)
  | .makeError className =>
    w.change (w.errorMessage (argument 0)) fun w message =>
      w.made (w.heap.newError className message)
  | .makeSuppressed =>
    w.change (w.errorMessage (argument 2)) fun w message =>
      w.made (w.heap.newSuppressed (argument 0) (argument 1) message)
  | .push ref =>
    let size := (w.heap.elements ref).size + arguments.length
    (.ok (.ofInt size),
      { w with heap := w.heap.modifyElements ref fun items => items ++ arguments.toArray })
  | .join ref => (Value.text <$> w.joinedElements ref (argument 0), w)
  | .resume .. | .named _ => (.error (.host .type), w)

/-- Calls a built-in function. -/
def callNative (w : World) (stack : Stack) (n : Native) (arguments : List Value) : Running :=
  match n.builtin with
  | .resume g mode => w.resume (.iterationResult :: stack) g mode (arguments.headD .undefined)
  | builtin =>
    perform stack (w.apply builtin arguments) fun w v => ⟨w, .value v, stack⟩

/-! ### Calls -/

/-- The failure of a call that goes too deep. -/
def tooDeep : Failure := .single (.script "RangeError" "Maximum call stack size exceeded")

/-- Calls a script function. -/
def callClosure (w : World) (stack : Stack) (closure : Nat) (arguments : List Value) : Running :=
  if w.depth ≥ w.config.maxCallDepth then ⟨w, .raise tooDeep, stack⟩
  else
    let c := w.heap.closure closure
    let (activation, w) := w.newActivation c.name c.isAsync
    if c.isGenerator then
      let (g, heap) := w.heap.newGenerator c.name
      ⟨{ w with heap, generators := w.generators.push (.fresh closure arguments activation) },
        .value (.generator g), stack⟩
    else
      let boundary := if c.isAsync then Frame.asyncStart else .syncBoundary
      { w with depth := w.depth + 1 }.startBody (boundary :: .callEnd :: stack) closure activation
        arguments

/-- Calls a value. -/
def call (w : World) (stack : Stack) (callee : Callee) (arguments : List Value) : Running :=
  match callee.function with
  | .native n => w.callNative stack n arguments
  | .function closure => w.callClosure stack closure arguments
  | v =>
    w.attempt stack (if callee.name.isEmpty then w.heap.text v else pure callee.name) fun w name =>
      ⟨w, .raise (.typeError (name ++ " is not a function")), stack⟩

/-- Functions that `new` accepts. -/
def isConstructor : Builtin → Bool
  | .makeError _ | .makeSuppressed => true
  | _ => false

/-- Constructs a value. -/
def construct (w : World) (stack : Stack) (constructor : Value) (arguments : List Value) :
    Running :=
  let refused : Running :=
    w.attempt stack (w.heap.text constructor) fun w name =>
      ⟨w, .raise (.typeError (name ++ " is not a constructor")), stack⟩
  match constructor with
  | .native n => if isConstructor n.builtin then w.callNative stack n arguments else refused
  | _ => refused

end World

end ScopeExit.Script
