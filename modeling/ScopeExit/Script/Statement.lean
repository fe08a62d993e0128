import ScopeExit.Script.Call
/-!
The first step of every statement.

A statement that is made of parts starts its first part and leaves a frame that knows the rest.  A
statement whose parts are missing ends with a failure as soon as the missing part is needed.
-/
namespace ScopeExit.Script

/-! ### Jumps -/

/-- What the completion of one pass means for a loop: nothing, if the loop goes on, otherwise the
completion of the loop. -/
def afterPass (reason : ExitReason) (labels : List Text) : Option ExitReason :=
  match reason.kind with
  | .normal | .iterationEnd => none
  | .continue => if reason.targets labels then none else some reason
  | .break => if reason.targets labels then some .normal else some reason
  | _ => some reason

/-- What the completion of a switch body means for the switch. -/
def afterSwitch (reason : ExitReason) (labels : List Text) : ExitReason :=
  if reason.isBreakOf labels then .normal else reason

/-- What the completion of a labeled statement means for the statement. -/
def afterLabeled (reason : ExitReason) (labels : List (Option Text)) : ExitReason :=
  if reason.kind = .break && labels.contains reason.label? then .normal else reason

mutual

/-- The labels in front of a statement, the innermost first, and the statement. -/
def unlabeled (labels : List (Option Text)) : Node → Except Failure (List (Option Text) × Node)
  | ⟨kind, value, label, params, children, a, g, l, span⟩ =>
    if kind = .labeled then firstUnlabeled (label :: labels) children
    else .ok (labels, ⟨kind, value, label, params, children, a, g, l, span⟩)

/-- The same for the first of several statements. -/
def firstUnlabeled (labels : List (Option Text)) :
    List Node → Except Failure (List (Option Text) × Node)
  | [] => .error (.host .index)
  | n :: _ => unlabeled labels n

end

namespace World

variable (w : World) (stack : Stack)

/-- Evaluates the child at a position. -/
def evaluateChild (node : Node) (i scope : Nat) : Running :=
  match node.children[i]? with
  | some child => ⟨w, .evaluate child scope, stack⟩
  | none => ⟨w, .raise (.host .index), stack⟩

/-- Executes the child at a position. -/
def executeChild (node : Node) (i scope : Nat) : Running :=
  match node.children[i]? with
  | some child => ⟨w, .execute child scope, stack⟩
  | none => ⟨w, .raise (.host .index), stack⟩

/-! ### Declarations -/

/-- Gives a declared name its value. -/
def define (kind name : Text) (target : Nat) (value : Value) : World :=
  let w := w.bind target name value
  if kind == "const" then { w with scopes := w.scopes.makeConstant target name } else w

/-- Declares names from left to right.  A variable of the function that is there already keeps its
value if the declaration gives none. -/
def declare (kind : Text) (scope target : Nat) : World → List Node → Running
  | w, [] => ⟨w, .complete .normal, stack⟩
  | w, d :: rest =>
    match d.child? 0 with
    | some initial =>
      ⟨w, .evaluate initial scope, .declare kind d.name rest scope target :: stack⟩
    | none =>
      if kind == "var" && (w.scopes.binding? target d.name).isSome then
        declare kind scope target w rest
      else declare kind scope target (w.define kind d.name target .undefined) rest

/-- Executes a declaration. -/
def executeDeclaration (node : Node) (scope : Nat) : Running :=
  let kind := node.name
  let target := if kind == "var" then w.scopes.functionScope scope else scope
  declare stack kind scope target w node.children

/-! ### Loops -/

/-- Runs one pass of a loop in a frame of its own. -/
def runPass (body : Node) (scope : Nat) : Running :=
  let (inner, w) := w.childScope scope
  let statements := if body.kind = .block then body.children else [body]
  w.enterFrame stack .loopIterationBody body.span inner statements .iterationEnd

/-- Goes on with a loop after a pass, or ends it. -/
def afterPassThen (reason : ExitReason) (labels : List Text) (again : World → Running) : Running :=
  match afterPass reason labels with
  | none => again w
  | some reason => ⟨w, .complete reason, stack⟩

/-- Tests the condition of a `while` loop. -/
def testWhile (loop : PlainLoop) : Running :=
  ⟨w, .evaluate loop.condition loop.scope, .whileCondition loop :: stack⟩

/-- Tests the condition of a `for` loop; a missing condition holds. -/
def testFor (loop : CountingLoop) (scope : Nat) : Running :=
  if loop.condition.isEmpty then w.runPass (.forPass loop scope :: stack) loop.body scope
  else ⟨w, .evaluate loop.condition scope, .forCondition loop scope :: stack⟩

/-- A copy of the bindings of a loop for its next pass, if every pass has its own. -/
def copyScope (loop : CountingLoop) (scope : Nat) : Nat × World :=
  if loop.perPass then
    let (i, scopes) := w.scopes.copy scope
    (i, { w with scopes })
  else (scope, w)

/-- Starts a `for` loop whose start has run. -/
def startFor (loop : CountingLoop) (scope : Nat) : Running :=
  let (scope, w) := w.copyScope loop scope
  w.testFor stack loop scope

/-- Goes on with a `for` loop after a pass. -/
def stepFor (loop : CountingLoop) (scope : Nat) : Running :=
  let (scope, w) := w.copyScope loop scope
  if loop.step.isEmpty then w.testFor stack loop scope
  else ⟨w, .evaluate loop.step scope, .forStep loop scope :: stack⟩

/-- Runs a pass for one element. -/
def runElement (loop : ElementLoop) (value : Value) : Running :=
  let (scope, w) := w.childScope loop.scope
  (w.bind scope loop.name value).runPass (.forOfPass loop :: stack) loop.body scope

/-- Runs a pass for the element at the position of a loop, or ends the loop if there is none. -/
def runFound (loop : ElementLoop) (value? : Option Value) : Running :=
  match value? with
  | some value => w.runElement stack { loop with position := loop.position + 1 } value
  | none => ⟨w, .complete .normal, stack⟩

/-- Takes the next element of what a loop runs over. -/
def nextElement (loop : ElementLoop) : Running :=
  match loop.iterable with
  | .array ref => w.runFound stack loop (w.heap.elements ref)[loop.position]?
  | .text t => w.runFound stack loop ((t.get? loop.position).map Value.text)
  | .generator g => w.resume (.forOfNext loop :: stack) g .next .undefined
  | v =>
    w.attempt stack (w.heap.text v) fun w name =>
      ⟨w, .raise (.typeError (name ++ " is not iterable")), stack⟩

/-- Starts a loop over the elements of a value. -/
def startForOf (node : Node) (scope : Nat) (labels : List Text) (iterable : Value) : Running :=
  match node.children[1]? with
  | none => ⟨w, .raise (.host .index), stack⟩
  | some body =>
    w.nextElement stack { name := node.name, body, scope, labels, iterable, position := 0 }

/-- Ends a loop over elements early; a generator is closed first. -/
def leaveForOf (loop : ElementLoop) (reason : ExitReason) : Running :=
  match loop.iterable with
  | .generator g => w.resume (.forOfClose reason :: stack) g .return .undefined
  | _ => ⟨w, .complete reason, stack⟩

/-- Abandons a loop over elements because a pass failed; a generator is closed first unless the
failure is fatal. -/
def abandonForOf (loop : ElementLoop) (failure : Failure) : Running :=
  match loop.iterable with
  | .generator g =>
    if failure.isException then w.resume (.forOfAbort failure :: stack) g .return .undefined
    else ⟨w, .raise failure, stack⟩
  | _ => ⟨w, .raise failure, stack⟩

/-! ### Switches -/

/-- The statements of a clause. -/
def clauseStatements (clause : Node) : List Node :=
  if clause.kind = .case then clause.children.drop 1 else clause.children

/-- The statements of clauses, one clause after the other. -/
def clausesStatements (clauses : List Node) : List Node := clauses.flatMap clauseStatements

/-- Tests the clauses of a switch in turn.  If none matches, the last default clause is taken. -/
def testClauses (subject : Value) (scope : Nat) :
    Option (List Node) → List Node → Running
  | fallback, [] =>
    ⟨w, .complete .normal, .statements (clausesStatements (fallback.getD [])) scope :: stack⟩
  | fallback, clause :: rest =>
    if clause.kind = .default then testClauses subject scope (some (clause :: rest)) rest
    else w.evaluateChild (.switchTest subject clause rest fallback scope :: stack) clause 0 scope

/-- Runs the body of a switch in a frame of its own. -/
def runSwitch (node : Node) (scope : Nat) (labels : List Text) (subject : Value) : Running :=
  let clauses := node.children.drop 1
  let (scope, w) := w.childScope scope
  w.openFrame (.switchEnd labels :: stack) .switchBody node.span scope (clausesStatements clauses)
    .normal fun w stack => w.testClauses stack subject scope none clauses

/-! ### Attempts -/

/-- Runs the finalizer of an attempt that has come to a completion. -/
def finish (finalizer : Node) (scope : Nat) (reason : ExitReason) : Running :=
  if finalizer.isEmpty then w.complete stack reason
  else ⟨w, .execute finalizer scope, .finallyBody reason :: stack⟩

/-- The block of an attempt has failed: runs the handler if it may take the failure. -/
def handle (handler finalizer : Node) (scope : Nat) (failure : Failure) : Running :=
  if handler.isEmpty || !failure.isScript then
    w.finish stack finalizer scope (.throwing (some failure))
  else
    let (inner, w) := w.childScope scope
    let w :=
      if handler.value.isNull then w
      else
        let (v, heap) := w.heap.failureValue failure
        { w with heap }.bind inner handler.name v
    w.executeChild (.catchBody finalizer scope :: stack) handler 0 inner

/-! ### Statements -/

/-- Starts a loop or a switch that stands behind labels. -/
def executeTarget (node : Node) (scope : Nat) (labels : List Text) : Running :=
  let malformed : Running := ⟨w, .raise (.host .value), stack⟩
  match node.kind, node.children with
  | .whileLoop, [condition, body] => w.testWhile stack { condition, body, scope, labels }
  | .doWhileLoop, [body, condition] =>
    w.runPass (.doPass { condition, body, scope, labels } :: stack) body scope
  | .forLoop, [start, condition, step, body] =>
    let (inner, w) := w.childScope scope
    let loop : CountingLoop :=
      { condition, step, body, labels, perPass := start.kind = .declaration && start.name != "var" }
    if start.isEmpty then w.startFor stack loop inner
    else ⟨w, .execute start inner, .forStart loop inner :: stack⟩
  | .forOfLoop, _ => w.evaluateChild (.forOfSubject node scope labels :: stack) node 0 scope
  | .switch, _ => w.evaluateChild (.switchSubject node scope labels :: stack) node 0 scope
  | _, _ => malformed

/-- Starts a labeled statement. -/
def executeLabeled (node : Node) (scope : Nat) : Running :=
  w.attempt stack (unlabeled [] node) fun w (labels, target) =>
    let stack := .labeled labels :: stack
    if target.kind.isLoop || target.kind = .switch then
      w.executeTarget stack target scope (labels.filterMap id)
    else ⟨w, .execute target scope, stack⟩

/-- Starts a statement that is made of parts. -/
def executeCompound (node : Node) (scope : Nat) : Running :=
  match node.kind with
  | .expressionStatement => w.evaluateChild (.expressionStatement :: stack) node 0 scope
  | .declaration => w.executeDeclaration stack node scope
  | .block =>
    let (inner, w) := w.childScope scope
    w.enterFrame stack .block node.span inner node.children .normal
  | .conditionalStatement => w.evaluateChild (.ifCondition node scope :: stack) node 0 scope
  | .return =>
    match node.child? 0 with
    | some value => ⟨w, .evaluate value scope, .returnValue :: stack⟩
    | none => ⟨w, .complete (.returning .undefined), stack⟩
  | .throw => w.evaluateChild (.throwValue :: stack) node 0 scope
  | .try =>
    match node.children with
    | [block, handler, finalizer] =>
      ⟨w, .execute block scope, .tryBody handler finalizer scope :: stack⟩
    | _ => ⟨w, .raise (.host .value), stack⟩
  | .labeled => w.executeLabeled stack node scope
  | _ => w.executeTarget stack node scope []

/-- Kinds of statements that are made of parts. -/
def isCompound : NodeKind → Bool
  | .expressionStatement | .declaration | .block | .conditionalStatement | .whileLoop
  | .doWhileLoop | .forLoop | .forOfLoop | .switch | .return | .throw | .try | .labeled => true
  | _ => false

/-- Starts a statement. -/
def execute (node : Node) (scope : Nat) : Running :=
  let w := { w with stats := { w.stats with statements := w.stats.statements + 1 } }
  match node.kind with
  | .break => ⟨w, .complete (.breaking node.label), stack⟩
  | .continue => ⟨w, .complete (.continuing node.label), stack⟩
  | .function | .empty => ⟨w, .complete .normal, stack⟩
  | .defer =>
    perform stack (w.register node scope) fun w _ => ⟨w, .complete .normal, stack⟩
  | kind =>
    if isCompound kind then w.executeCompound (.statementEnd :: stack) node scope
    else ⟨w, .raise (.evaluator (.unhandledStatement kind)), stack⟩

end World

end ScopeExit.Script
