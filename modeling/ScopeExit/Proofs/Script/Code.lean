import ScopeExit.Proofs.Tree.Shape
import ScopeExit.Proofs.Value.Ordinary
import ScopeExit.Script.Run
/-!
What code and its frames fit together.

The check of a program knows for every node what the function or the deferred action around it allows.
A running program has no functions around its code, only frames.  `Spans` is what is left of the check
at run time: it says through which ports an outcome passes on its way down a stack, and a port inside
the code of an activation knows the activation, what may be done there, whether a frame is open, and, in
the body of a deferred action, which loops, switches and labels further down meet a jump.
Boundaries are where two contexts meet: an action and the code that drains its frame, a function body
and its caller, a generator and whoever resumes it, a task and the event loop.

Along the way a stack leaves marks: one for every live frame that it is going to drain, and one for
every activation whose end is on it.  The marks are all that the registries have to do with a stack.
-/
namespace ScopeExit

/-- What the code of a function may do. -/
def Closure.context (c : Closure) : Node.Context := ⟨c.isAsync, c.isGenerator⟩

namespace Script

/-! ### Regions and ports -/

/-- What is known about the code at a place. -/
structure Region where
  /-- The activation that the code belongs to. -/
  activation : Nat
  /-- What the nearest boundary below allows. -/
  context : Node.Context
  /-- The innermost frame of the activation is open and takes deferred actions. -/
  isOpen : Bool
  /-- What surrounds the code in its deferred action; nothing is known of the code of functions. -/
  targets : Option Node.Targets

namespace Region

/-- What the code of a region may do.  Outside all frames of its body a generator does not yield. -/
def permits (Γ : Region) : Node.Context := ⟨Γ.context.isAsync, Γ.isOpen && Γ.context.isGenerator⟩

theorem isGenerator_of_permits {Γ : Region} (h : Γ.permits = ⟨false, true⟩) :
    Γ.context.isGenerator = true :=
  (Bool.and_eq_true_iff.mp (congrArg Node.Context.isGenerator h)).2

/-- The site of the statements in a region. -/
def site (Γ : Region) : Node.Site := ⟨Γ.permits, Γ.isOpen, Γ.targets⟩

/-- The region inside a frame. -/
def inFrame (Γ : Region) : Region := { Γ with isOpen := true }

/-- What may stand in a frame of a region may stand in the region of the frame. -/
theorem site_inFrame (Γ : Region) : Γ.site.inFrame.AtMost Γ.inFrame.site :=
  ⟨id, fun h => (Bool.and_eq_true_iff.mp h).2, id, rfl⟩

/-- The region above the pass of a loop. -/
def looped (labels : List Text) (Γ : Region) : Region :=
  { Γ with targets := Γ.targets.map (.looped labels) }

/-- The region above the body of a switch. -/
def switched (Γ : Region) : Region := { Γ with targets := Γ.targets.map .switched }

/-- The region above labels. -/
def behind (labels : List Text) (Γ : Region) : Region :=
  { Γ with targets := Γ.targets.map (.behind labels) }

/-- The region above a frame in the code of a region. -/
def above (Γ : Region) : Frame → Region
  | .whilePass loop | .doPass loop => Γ.looped loop.labels
  | .forPass loop _ => Γ.looped loop.labels
  | .forOfPass loop => Γ.looped loop.labels
  | .switchEnd _ => Γ.switched
  | .labeled labels => Γ.behind (labels.filterMap id)
  | _ => Γ

@[simp] theorem above_activation (Γ : Region) (f : Frame) : (Γ.above f).activation = Γ.activation := by
  cases f <;> rfl

@[simp] theorem above_context (Γ : Region) (f : Frame) : (Γ.above f).context = Γ.context := by
  cases f <;> rfl

@[simp] theorem above_isOpen (Γ : Region) (f : Frame) : (Γ.above f).isOpen = Γ.isOpen := by
  cases f <;> rfl

@[simp] theorem above_permits (Γ : Region) (f : Frame) : (Γ.above f).permits = Γ.permits := by
  cases f <;> rfl

/-- Where nothing is known of what surrounds the code, nothing is known above a frame. -/
theorem above_targets {Γ : Region} (h : Γ.targets = none) (f : Frame) : (Γ.above f).targets = none := by
  cases f <;> simp [above, looped, switched, behind, h]

/-- The region of a function body or of the module outside all frames. -/
def outside (a : Nat) (context : Node.Context) : Region := ⟨a, context, false, none⟩

/-- The region of the body of a deferred action. -/
def action (a : Nat) (isAsync : Bool) : Region := ⟨a, ⟨isAsync, false⟩, false, some {}⟩

variable [Node.Strays]

/-- A statement that may stand in a region. -/
def Statement (Γ : Region) (n : Node) : Prop := Node.Shaped Node.Allowed .statement Γ.site n

/-- An expression that may stand in a region. -/
def Expression (Γ : Region) (n : Node) : Prop := Node.Shaped Node.Allowed .expression Γ.site.operand n

/-- An expression or nothing. -/
def Part (Γ : Region) (n : Node) : Prop := Node.Shaped Node.Allowed .part Γ.site.operand n

def Declarator (Γ : Region) (n : Node) : Prop := Node.Shaped Node.Allowed .declarator Γ.site.operand n

def Property (Γ : Region) (n : Node) : Prop := Node.Shaped Node.Allowed .property Γ.site.operand n

def Clause (Γ : Region) (n : Node) : Prop := Node.Shaped Node.Allowed .clause Γ.site n

def Handler (Γ : Region) (n : Node) : Prop := Node.Shaped Node.Allowed .handler Γ.site n

theorem Statement.inFrame {Γ : Region} {n : Node}
    (h : Node.Shaped Node.Allowed .statement Γ.site.inFrame n) : Γ.inFrame.Statement n :=
  h.mono Γ.site_inFrame

end Region

/-- The sorts of outcomes of code. -/
inductive Form where
  | value | completion | step

/-- A place on a stack where outcomes pass. -/
inductive Port where
  /-- Inside the code of an activation. -/
  | code (form : Form) (Γ : Region)
  /-- The body of a deferred action has ended. -/
  | action (a : Nat) (isAsync : Bool)
  /-- An action is over for the drain of a frame of the activation. -/
  | drained (a : Nat)
  /-- The code of an activation has ended. -/
  | ended (context : Node.Context) (form : Form)
  /-- A call has ended. -/
  | called
  /-- The code of a task has ended. -/
  | task (form : Form)
  /-- A task takes its first step. -/
  | woken
  | bottom

/-! ### Marks -/

/-- A live frame as a stack knows it. -/
structure Live where
  handle : FrameHandle
  /-- Its drain is in progress. -/
  isDraining : Bool
  /-- The drain of the frame may wait for its actions. -/
  mayWait : Bool

/-- What a stack has to do with an activation. -/
structure Mark where
  activation : Nat
  /-- A live frame of the activation; no frame marks the end of the activation. -/
  live? : Option Live

/-- The mark of a live frame. -/
def Mark.frame (a : Nat) (handle : FrameHandle) (isDraining mayWait : Bool) : Mark :=
  ⟨a, some ⟨handle, isDraining, mayWait⟩⟩

/-- The mark of the end of an activation. -/
def Mark.ends (a : Nat) : Mark := ⟨a, none⟩

/-! ### What frames hold -/

/-- A scope belongs to an activation. -/
def ScopeIn (w : World) (a scope : Nat) : Prop :=
  scope < w.scopes.all.size ∧ (w.scopes.get scope).activation = some a

/-- A completion that holds no more than clean failures. -/
def CleanReason (r : ExitReason) : Prop := ∀ f ∈ r.error?, f.Clean

section Fits

variable [Node.Strays]

/-- A completion may arrive in a region. -/
structure Region.Completes (Γ : Region) (r : ExitReason) : Prop where
  clean : CleanReason r
  admits : Γ.site.Admits r

/-- A drain in a region that has met no more than clean failures. -/
structure CleanDrain (Γ : Region) (d : Drain) : Prop where
  pending : Γ.Completes d.aggregator.pending
  chain : ∀ c ∈ d.aggregator.chain?, ∀ f ∈ c.errors, f.Clean

/-- The parts of a loop stand where they may. -/
structure PlainLoop.Fits (w : World) (Γ : Region) (loop : PlainLoop) : Prop where
  condition : Γ.Expression loop.condition
  body : (Γ.looped loop.labels).inFrame.Statement loop.body
  scope : ScopeIn w Γ.activation loop.scope

structure CountingLoop.Fits (Γ : Region) (loop : CountingLoop) : Prop where
  condition : Γ.Part loop.condition
  step : Γ.Part loop.step
  body : (Γ.looped loop.labels).inFrame.Statement loop.body

structure ElementLoop.Fits (w : World) (Γ : Region) (loop : ElementLoop) : Prop where
  body : (Γ.looped loop.labels).inFrame.Statement loop.body
  scope : ScopeIn w Γ.activation loop.scope

/-- An expression that denotes a place, as far as its parts are concerned. -/
structure TargetFits (Γ : Region) (target : Node) : Prop where
  scalar : target.value.isScalar = true
  parts : ∀ c ∈ target.children, Γ.Expression c

/-- What happens to a place fits. -/
def PlaceUse.Fits (w : World) (Γ : Region) : PlaceUse → Prop
  | .update .. => True
  | .assign _ right scope => Γ.Expression right ∧ ScopeIn w Γ.activation scope

/-- Operands that are still to be evaluated in a scope. -/
structure Operands (w : World) (Γ : Region) (rest : List Node) (scope : Nat) : Prop where
  each : ∀ n ∈ rest, Γ.Expression n
  scope : ScopeIn w Γ.activation scope

/-- Statements that are still to be executed in a scope. -/
structure Statements (w : World) (Γ : Region) (rest : List Node) (scope : Nat) : Prop where
  each : ∀ n ∈ rest, Γ.Statement n
  scope : ScopeIn w Γ.activation scope

/-- Parameters of a closure that are still to be bound in a scope of an activation. -/
structure Parameters (w : World) (closure : Nat) (a : Nat) (rest : List Node) (scope : Nat) :
    Prop where
  each : ∀ p ∈ rest, Node.Shaped Node.Allowed .param (.within (w.heap.closure closure).context p) p
  known : rest ≠ [] → closure < w.heap.closures.size
  scope : ScopeIn w a scope

/-- A frame inside the code of an activation takes an outcome of one form and gives one of another
form. -/
inductive Frame.Takes (w : World) (Γ : Region) : Frame → Form → Form → Prop
  | statementEnd : Takes w Γ .statementEnd .completion .completion
  | statements {rest scope} (h : Statements w Γ rest scope) :
      Takes w Γ (.statements rest scope) .completion .completion
  | expressionStatement : Takes w Γ .expressionStatement .value .completion
  | declare {kind name rest scope target} (h : ∀ d ∈ rest, Γ.Declarator d)
      (hs : ScopeIn w Γ.activation scope) :
      Takes w Γ (.declare kind name rest scope target) .value .completion
  | scopeEnd : Takes w Γ .scopeEnd .completion .completion
  | ifCondition {node scope condition branches} (children : node.children = condition :: branches)
      (h : Statements w Γ branches scope) : Takes w Γ (.ifCondition node scope) .value .completion
  /-- A deferred body never returns. -/
  | returnValue (free : Γ.targets = none) : Takes w Γ .returnValue .value .completion
  | throwValue : Takes w Γ .throwValue .value .completion
  | labeled {labels} : Takes w Γ (.labeled labels) .completion .completion
  | whileCondition {loop} (h : loop.Fits w Γ) : Takes w Γ (.whileCondition loop) .value .completion
  | whilePass {loop} (h : loop.Fits w Γ) : Takes w Γ (.whilePass loop) .completion .completion
  | doPass {loop} (h : loop.Fits w Γ) : Takes w Γ (.doPass loop) .completion .completion
  | doCondition {loop} (h : loop.Fits w Γ) : Takes w Γ (.doCondition loop) .value .completion
  | forStart {loop scope} (h : loop.Fits Γ) (hs : ScopeIn w Γ.activation scope) :
      Takes w Γ (.forStart loop scope) .completion .completion
  | forCondition {loop scope} (h : loop.Fits Γ) (hs : ScopeIn w Γ.activation scope) :
      Takes w Γ (.forCondition loop scope) .value .completion
  | forPass {loop scope} (h : loop.Fits Γ) (hs : ScopeIn w Γ.activation scope) :
      Takes w Γ (.forPass loop scope) .completion .completion
  | forStep {loop scope} (h : loop.Fits Γ) (hs : ScopeIn w Γ.activation scope) :
      Takes w Γ (.forStep loop scope) .value .completion
  | forOfSubject {node scope labels iterable body} (children : node.children = [iterable, body])
      (h : (Γ.looped labels).inFrame.Statement body) (hs : ScopeIn w Γ.activation scope) :
      Takes w Γ (.forOfSubject node scope labels) .value .completion
  | forOfNext {loop} (h : loop.Fits w Γ) : Takes w Γ (.forOfNext loop) .step .completion
  | forOfPass {loop} (h : loop.Fits w Γ) : Takes w Γ (.forOfPass loop) .completion .completion
  | forOfClose {reason} (h : Γ.Completes reason) :
      Takes w Γ (.forOfClose reason) .step .completion
  | forOfAbort {failure} (h : failure.Clean) : Takes w Γ (.forOfAbort failure) .step .completion
  | switchSubject {node scope labels subject clauses} (children : node.children = subject :: clauses)
      (h : ∀ c ∈ clauses, Γ.switched.inFrame.Clause c) (hs : ScopeIn w Γ.activation scope) :
      Takes w Γ (.switchSubject node scope labels) .value .completion
  | switchTest {subject clause rest fallback scope} (h : ∀ c ∈ clause :: rest, Γ.Clause c)
      (hf : ∀ cs ∈ fallback, ∀ c ∈ cs, Γ.Clause c) (hs : ScopeIn w Γ.activation scope) :
      Takes w Γ (.switchTest subject clause rest fallback scope) .value .completion
  | switchEnd {labels} : Takes w Γ (.switchEnd labels) .completion .completion
  | tryBody {handler finalizer scope} (hh : Γ.Handler handler) (hf : Γ.Statement finalizer)
      (hs : ScopeIn w Γ.activation scope) :
      Takes w Γ (.tryBody handler finalizer scope) .completion .completion
  | catchBody {finalizer scope} (hf : Γ.Statement finalizer) (hs : ScopeIn w Γ.activation scope) :
      Takes w Γ (.catchBody finalizer scope) .completion .completion
  | finallyBody {completion} (h : Γ.Completes completion) :
      Takes w Γ (.finallyBody completion) .completion .completion
  | templatePart {before rest scope} (h : Operands w Γ rest scope) :
      Takes w Γ (.templatePart before rest scope) .value .value
  | binaryLeft {op} {right : Option Node} {scope} (h : Operands w Γ right.toList scope) :
      Takes w Γ (.binaryLeft op right scope) .value .value
  | binaryRight {op left} : Takes w Γ (.binaryRight op left) .value .value
  | logicalLeft {op} {right : Option Node} {scope} (h : Operands w Γ right.toList scope) :
      Takes w Γ (.logicalLeft op right scope) .value .value
  | unaryOperand {op} : Takes w Γ (.unaryOperand op) .value .value
  | placeObject {target scope use} (h : TargetFits Γ target) (hs : ScopeIn w Γ.activation scope)
      (hu : use.Fits w Γ) : Takes w Γ (.placeObject target scope use) .value .value
  | placeKey {object use} (hu : use.Fits w Γ) : Takes w Γ (.placeKey object use) .value .value
  | assignValue {place} : Takes w Γ (.assignValue place) .value .value
  | assignCombined {place op current} : Takes w Γ (.assignCombined place op current) .value .value
  | calleeObject {callee arguments scope} (hc : TargetFits Γ callee)
      (h : Operands w Γ arguments scope) :
      Takes w Γ (.calleeObject callee arguments scope) .value .value
  | calleeKey {object arguments scope} (h : Operands w Γ arguments scope) :
      Takes w Γ (.calleeKey object arguments scope) .value .value
  | calleeValue {name arguments scope} (h : Operands w Γ arguments scope) :
      Takes w Γ (.calleeValue name arguments scope) .value .value
  | argument {callee before rest scope} (h : Operands w Γ rest scope) :
      Takes w Γ (.argument callee before rest scope) .value .value
  | newCallee {arguments scope} (h : Operands w Γ arguments scope) :
      Takes w Γ (.newCallee arguments scope) .value .value
  | newArgument {constructor before rest scope} (h : Operands w Γ rest scope) :
      Takes w Γ (.newArgument constructor before rest scope) .value .value
  | memberObject {key} : Takes w Γ (.memberObject key) .value .value
  | indexObject {key : Option Node} {scope} (h : Operands w Γ key.toList scope) :
      Takes w Γ (.indexObject key scope) .value .value
  | indexKey {object} : Takes w Γ (.indexKey object) .value .value
  | arrayElement {before rest scope} (h : Operands w Γ rest scope) :
      Takes w Γ (.arrayElement before rest scope) .value .value
  | objectProperty {ref key rest scope} (h : ∀ p ∈ rest, Γ.Property p)
      (hs : ScopeIn w Γ.activation scope) :
      Takes w Γ (.objectProperty ref key rest scope) .value .value
  | awaitOperand (h : Γ.context.isAsync = true) : Takes w Γ .awaitOperand .value .value
  | yieldOperand (h : Γ.permits.isGenerator = true) : Takes w Γ .yieldOperand .value .value
  | conditionalTest {node scope} (h : Operands w Γ node.children scope) :
      Takes w Γ (.conditionalTest node scope) .value .value
  | sequenceElement {rest scope} (h : Operands w Γ rest scope) :
      Takes w Γ (.sequenceElement rest scope) .value .value
  | parameter {closure name rest arguments scope}
      (region : Γ = .outside Γ.activation (w.heap.closure closure).context)
      (known : closure < w.heap.closures.size) (h : Parameters w closure Γ.activation rest scope) :
      Takes w Γ (.parameter closure name rest arguments scope) .value .value
  | functionEnd : Takes w Γ .functionEnd .completion .value
  | iterationResult : Takes w Γ .iterationResult .step .value

/-! ### Stacks -/

/-- A stack leads from one port to another, and leaves marks on the way. -/
inductive Spans (w : World) : Port → Stack → List Mark → Port → Prop
  | nil {p} : Spans w p [] [] p
  | frame {Γ f form form' stack marks p} (takes : f.Takes w Γ form form')
      (rest : Spans w (.code form' Γ) stack marks p) :
      Spans w (.code form (Γ.above f)) (f :: stack) marks p
  /-- The body of an action is a statement of its own. -/
  | actionEnd {a isAsync stack marks p} (rest : Spans w (.action a isAsync) stack marks p) :
      Spans w (.code .completion (.action a isAsync)) (.statementEnd :: stack) marks p
  | scopeBody {Γ handle atEnd stack marks p} (clean : Γ.Completes atEnd)
      (rest : Spans w (.code .completion Γ) stack marks p) :
      Spans w (.code .completion Γ.inFrame) (.scopeBody Γ.activation handle atEnd :: stack)
        (.frame Γ.activation handle false Γ.context.isAsync :: marks) p
  | draining {Γ drain stack marks p} (clean : CleanDrain Γ drain)
      (rest : Spans w (.code .completion Γ) stack marks p) :
      Spans w (.drained Γ.activation) (.draining Γ.activation drain :: stack)
        (.frame Γ.activation drain.handle true (drain.mode = .async) :: marks) p
  | settling {Γ form stack marks p} (async : Γ.context.isAsync = true)
      (rest : Spans w (.code form Γ) stack marks p) :
      Spans w (.code form Γ) (.settling :: stack) marks p
  | activationEnd {a context form stack marks p} (outcome : form ≠ .step)
      (async : context.isAsync = true → (w.activation a).isAsync = true)
      (rest : Spans w (.ended context form) stack marks p) :
      Spans w (.code form (.outside a context)) (.activationEnd a :: stack) (.ends a :: marks) p
  | syncAction {a stack marks p} (rest : Spans w (.drained a) stack marks p) :
      Spans w (.action a false) (.syncBoundary :: stack) marks p
  | asyncAction {a stack marks p} (async : (w.activation a).isAsync = true)
      (rest : Spans w (.drained a) stack marks p) :
      Spans w (.action a true) (.asyncDrive :: stack) marks p
  | syncCall {stack marks p} (rest : Spans w .called stack marks p) :
      Spans w (.ended ⟨false, false⟩ .value) (.syncBoundary :: stack) marks p
  | asyncCall {stack marks p} (rest : Spans w .called stack marks p) :
      Spans w (.ended ⟨true, false⟩ .value) (.asyncStart :: stack) marks p
  | asyncTask {isAsync form stack marks p} (rest : Spans w (.task form) stack marks p) :
      Spans w (.ended ⟨isAsync, false⟩ form) (.asyncDrive :: stack) marks p
  | generator {Γ g stack marks p} (rest : Spans w (.code .step Γ) stack marks p) :
      Spans w (.ended ⟨false, true⟩ .value) (.generatorBoundary g :: stack) marks p
  | callEnd {Γ stack marks p} (rest : Spans w (.code .value Γ) stack marks p) :
      Spans w .called (.callEnd :: stack) marks p
  | taskEnd {p} : Spans w (.task .value) [.taskEnd p] [] .bottom
  | programEnd {form} : Spans w (.task form) [.programEnd] [] .bottom
  | nap {seconds p} : Spans w (.task .value) [.nap seconds, .taskEnd p] [] .bottom
  | awaiting {Γ value stack marks p} (async : Γ.context.isAsync = true)
      (rest : Spans w (.code .value Γ) stack marks p) :
      Spans w .woken (.taskStart (.await value) :: stack) marks p
  | closing {Γ handle reason stack marks p} (async : Γ.context.isAsync = true)
      (clean : Γ.Completes reason) (rest : Spans w (.code .completion Γ) stack marks p) :
      Spans w .woken (.taskStart (.drain Γ.activation handle reason) :: stack)
        (.frame Γ.activation handle false Γ.context.isAsync :: marks) p

end Fits

/-! ### Growing worlds -/

/-- Whatever a world knows about scopes, functions and activations is still known later. -/
structure Extends (w w' : World) : Prop where
  scopes : w.scopes.all.size ≤ w'.scopes.all.size
  owners : ∀ i < w.scopes.all.size, (w'.scopes.get i).activation = (w.scopes.get i).activation
  closures : w.heap.closures.size ≤ w'.heap.closures.size
  kept : ∀ i < w.heap.closures.size, w'.heap.closure i = w.heap.closure i
  activations : w.activations.size ≤ w'.activations.size
  async : ∀ a < w.activations.size, (w'.activation a).isAsync = (w.activation a).isAsync

/-- An activation that does not exist is not asynchronous. -/
theorem World.lt_of_isAsync {w : World} {a : Nat} (h : (w.activation a).isAsync = true) :
    a < w.activations.size := by
  by_cases hlt : a < w.activations.size
  · exact hlt
  · simp [World.activation, Array.getD_eq_getD_getElem?, Array.getElem?_eq_none (Nat.le_of_not_lt hlt), default] at h

namespace Extends

variable {w w' w'' : World}

theorem refl (w : World) : Extends w w :=
  ⟨Nat.le_refl _, fun _ _ => rfl, Nat.le_refl _, fun _ _ => rfl, Nat.le_refl _, fun _ _ => rfl⟩

theorem trans (h : Extends w w') (h' : Extends w' w'') : Extends w w'' where
  scopes := Nat.le_trans h.scopes h'.scopes
  owners i hi := (h'.owners i (Nat.lt_of_lt_of_le hi h.scopes)).trans (h.owners i hi)
  closures := Nat.le_trans h.closures h'.closures
  kept i hi := (h'.kept i (Nat.lt_of_lt_of_le hi h.closures)).trans (h.kept i hi)
  activations := Nat.le_trans h.activations h'.activations
  async a ha := (h'.async a (Nat.lt_of_lt_of_le ha h.activations)).trans (h.async a ha)

theorem isAsync (h : Extends w w') {a : Nat} (ha : (w.activation a).isAsync = true) :
    (w'.activation a).isAsync = true := (h.async a (World.lt_of_isAsync ha)).trans ha

end Extends

theorem ScopeIn.mono {w w' : World} (ext : Extends w w') {a scope : Nat} (h : ScopeIn w a scope) :
    ScopeIn w' a scope :=
  ⟨Nat.lt_of_lt_of_le h.1 ext.scopes, (ext.owners scope h.1).trans h.2⟩

section Mono

variable [Node.Strays] {w w' : World} (ext : Extends w w') {Γ : Region}

include ext

theorem Operands.mono {rest : List Node} {scope : Nat} (h : Operands w Γ rest scope) :
    Operands w' Γ rest scope := ⟨h.each, h.scope.mono ext⟩

theorem Statements.mono {rest : List Node} {scope : Nat} (h : Statements w Γ rest scope) :
    Statements w' Γ rest scope := ⟨h.each, h.scope.mono ext⟩

theorem PlainLoop.Fits.mono {loop : PlainLoop} (h : loop.Fits w Γ) : loop.Fits w' Γ :=
  ⟨h.condition, h.body, h.scope.mono ext⟩

theorem ElementLoop.Fits.mono {loop : ElementLoop} (h : loop.Fits w Γ) : loop.Fits w' Γ :=
  ⟨h.body, h.scope.mono ext⟩

theorem PlaceUse.Fits.mono {use : PlaceUse} (h : use.Fits w Γ) : use.Fits w' Γ := by
  cases use with
  | update => trivial
  | assign => exact ⟨h.1, h.2.mono ext⟩

theorem Parameters.mono {closure a scope : Nat} {rest : List Node}
    (h : Parameters w closure a rest scope) : Parameters w' closure a rest scope where
  each := by
    intro p hp
    rw [ext.kept closure (h.known (List.ne_nil_of_mem hp))]
    exact h.each p hp
  known hr := Nat.lt_of_lt_of_le (h.known hr) ext.closures
  scope := h.scope.mono ext

theorem Frame.Takes.mono {frame : Frame} {form form' : Form} (h : frame.Takes w Γ form form') :
    frame.Takes w' Γ form form' := by
  cases h with
  | statements h => exact .statements (h.mono ext)
  | declare h hs => exact .declare h (hs.mono ext)
  | ifCondition children h => exact .ifCondition children (h.mono ext)
  | whileCondition h => exact .whileCondition (h.mono ext)
  | whilePass h => exact .whilePass (h.mono ext)
  | doPass h => exact .doPass (h.mono ext)
  | doCondition h => exact .doCondition (h.mono ext)
  | forStart h hs => exact .forStart h (hs.mono ext)
  | forCondition h hs => exact .forCondition h (hs.mono ext)
  | forPass h hs => exact .forPass h (hs.mono ext)
  | forStep h hs => exact .forStep h (hs.mono ext)
  | forOfSubject children h hs => exact .forOfSubject children h (hs.mono ext)
  | forOfNext h => exact .forOfNext (h.mono ext)
  | forOfPass h => exact .forOfPass (h.mono ext)
  | switchSubject children h hs => exact .switchSubject children h (hs.mono ext)
  | switchTest h hf hs => exact .switchTest h hf (hs.mono ext)
  | tryBody hh hf hs => exact .tryBody hh hf (hs.mono ext)
  | catchBody hf hs => exact .catchBody hf (hs.mono ext)
  | templatePart h => exact .templatePart (h.mono ext)
  | binaryLeft h => exact .binaryLeft (h.mono ext)
  | logicalLeft h => exact .logicalLeft (h.mono ext)
  | placeObject h hs hu => exact .placeObject h (hs.mono ext) (hu.mono ext)
  | placeKey hu => exact .placeKey (hu.mono ext)
  | calleeObject hc h => exact .calleeObject hc (h.mono ext)
  | calleeKey h => exact .calleeKey (h.mono ext)
  | calleeValue h => exact .calleeValue (h.mono ext)
  | argument h => exact .argument (h.mono ext)
  | newCallee h => exact .newCallee (h.mono ext)
  | newArgument h => exact .newArgument (h.mono ext)
  | indexObject h => exact .indexObject (h.mono ext)
  | arrayElement h => exact .arrayElement (h.mono ext)
  | objectProperty h hs => exact .objectProperty h (hs.mono ext)
  | conditionalTest h => exact .conditionalTest (h.mono ext)
  | sequenceElement h => exact .sequenceElement (h.mono ext)
  | @parameter closure name rest arguments scope region known h =>
    refine .parameter ?_ (Nat.lt_of_lt_of_le known ext.closures) (h.mono ext)
    rw [ext.kept closure known]
    exact region
  | statementEnd => exact .statementEnd
  | expressionStatement => exact .expressionStatement
  | scopeEnd => exact .scopeEnd
  | returnValue free => exact .returnValue free
  | throwValue => exact .throwValue
  | labeled => exact .labeled
  | forOfClose h => exact .forOfClose h
  | forOfAbort h => exact .forOfAbort h
  | switchEnd => exact .switchEnd
  | finallyBody h => exact .finallyBody h
  | binaryRight => exact .binaryRight
  | unaryOperand => exact .unaryOperand
  | assignValue => exact .assignValue
  | assignCombined => exact .assignCombined
  | memberObject => exact .memberObject
  | indexKey => exact .indexKey
  | awaitOperand h => exact .awaitOperand h
  | yieldOperand h => exact .yieldOperand h
  | functionEnd => exact .functionEnd
  | iterationResult => exact .iterationResult

theorem Spans.mono {p q : Port} {stack : Stack} {marks : List Mark} (h : Spans w p stack marks q) :
    Spans w' p stack marks q := by
  induction h with
  | nil => exact .nil
  | frame takes _ ih => exact .frame (takes.mono ext) ih
  | actionEnd _ ih => exact .actionEnd ih
  | scopeBody clean _ ih => exact .scopeBody clean ih
  | draining clean _ ih => exact .draining clean ih
  | settling async _ ih => exact .settling async ih
  | activationEnd outcome async _ ih => exact .activationEnd outcome (fun h => ext.isAsync (async h)) ih
  | syncAction _ ih => exact .syncAction ih
  | asyncAction async _ ih => exact .asyncAction (ext.isAsync async) ih
  | syncCall _ ih => exact .syncCall ih
  | asyncCall _ ih => exact .asyncCall ih
  | asyncTask _ ih => exact .asyncTask ih
  | generator _ ih => exact .generator ih
  | callEnd _ ih => exact .callEnd ih
  | taskEnd => exact .taskEnd
  | programEnd => exact .programEnd
  | nap => exact .nap
  | awaiting async _ ih => exact .awaiting async ih
  | closing async clean _ ih => exact .closing async clean ih

end Mono

/-! ### Parts of stacks -/

/-- The activation and the context of the code at a port. -/
def Port.home? : Port → Option (Nat × Node.Context)
  | .code _ Γ => some (Γ.activation, Γ.context)
  | .action a isAsync => some (a, ⟨isAsync, false⟩)
  | _ => none

/-- Frames do not change where code belongs. -/
theorem Port.home?_above (form form' : Form) (Γ : Region) (f : Frame) :
    (Port.code form (Γ.above f)).home? = (Port.code form' Γ).home? := by simp [Port.home?]

/-- The marks of some live frames of an activation. -/
def FramesOf (a : Nat) (marks : List Mark) : Prop :=
  ∀ m ∈ marks, m.activation = a ∧ m.live? ≠ none

/-- Where the code of an activation meets the nearest boundary, and the marks above it. -/
inductive Meets (a : Nat) (context : Node.Context) : Port → List Mark → Prop
  | action {isAsync : Bool} {marks : List Mark} (hc : context = ⟨isAsync, false⟩) (h : FramesOf a marks) :
      Meets a context (.action a isAsync) marks
  | ended {form : Form} (marks : List Mark) (h : FramesOf a marks) :
      Meets a context (.ended context form) (marks ++ [.ends a])

theorem Meets.cons {a : Nat} {context : Node.Context} {p : Port} {marks : List Mark} {m : Mark}
    (h : Meets a context p marks) (hm : m.activation = a ∧ m.live? ≠ none) :
    Meets a context p (m :: marks) := by
  cases h with
  | action hc h => exact .action hc (List.forall_mem_cons.mpr ⟨hm, h⟩)
  | ended marks h => exact .ended (m :: marks) (List.forall_mem_cons.mpr ⟨hm, h⟩)

section Parts

variable [Node.Strays] {w : World} {p q r : Port} {Γ : Region} {form : Form} {stack rest : Stack}
  {marks marks' : List Mark}

/-- A stack goes on where another one ends. -/
theorem Spans.append (h : Spans w p stack marks q) (h' : Spans w q rest marks' r) :
    Spans w p (stack ++ rest) (marks ++ marks') r := by
  have last : ∀ {r : Port} {stack : Stack} {marks : List Mark}, Spans w .bottom stack marks r →
      stack = [] ∧ marks = [] ∧ r = .bottom := by
    intro r stack marks h
    cases h
    exact ⟨rfl, rfl, rfl⟩
  induction h with
  | nil => exact h'
  | frame takes _ ih => exact .frame takes (ih h')
  | actionEnd _ ih => exact .actionEnd (ih h')
  | scopeBody clean _ ih => exact .scopeBody clean (ih h')
  | draining clean _ ih => exact .draining clean (ih h')
  | settling async _ ih => exact .settling async (ih h')
  | activationEnd outcome async _ ih => exact .activationEnd outcome async (ih h')
  | syncAction _ ih => exact .syncAction (ih h')
  | asyncAction async _ ih => exact .asyncAction async (ih h')
  | syncCall _ ih => exact .syncCall (ih h')
  | asyncCall _ ih => exact .asyncCall (ih h')
  | asyncTask _ ih => exact .asyncTask (ih h')
  | generator _ ih => exact .generator (ih h')
  | callEnd _ ih => exact .callEnd (ih h')
  | taskEnd =>
    obtain ⟨rfl, rfl, rfl⟩ := last h'
    exact .taskEnd
  | programEnd =>
    obtain ⟨rfl, rfl, rfl⟩ := last h'
    exact .programEnd
  | nap =>
    obtain ⟨rfl, rfl, rfl⟩ := last h'
    exact .nap
  | awaiting async _ ih => exact .awaiting async (ih h')
  | closing async clean _ ih => exact .closing async clean (ih h')

/-- Asynchronous code belongs to an asynchronous activation. -/
theorem Spans.async (h : Spans w p stack marks .bottom) {a : Nat} {context : Node.Context}
    (home : p.home? = some (a, context)) (async : context.isAsync = true) :
    (w.activation a).isAsync = true := by
  generalize hq : Port.bottom = q at h
  induction h generalizing a context with
  | nil => subst hq; contradiction
  | frame _ _ ih => exact ih ((Port.home?_above ..).symm.trans home) async hq
  | actionEnd _ ih => exact ih home async hq
  | scopeBody _ _ ih => exact ih home async hq
  | settling _ _ ih => exact ih home async hq
  | activationEnd _ hasync _ _ =>
    obtain ⟨rfl, rfl⟩ := Prod.mk.inj (Option.some.inj home)
    exact hasync async
  | syncAction _ _ =>
    obtain ⟨rfl, rfl⟩ := Prod.mk.inj (Option.some.inj home)
    contradiction
  | asyncAction hasync _ _ =>
    obtain ⟨rfl, rfl⟩ := Prod.mk.inj (Option.some.inj home)
    exact hasync
  | _ => contradiction

/-- Where a frame is open, its mark is the first one. -/
theorem Spans.open_mark (h : Spans w (.code form Γ) stack marks .bottom) (isOpen : Γ.isOpen = true) :
    ∃ handle rest, marks = .frame Γ.activation handle false Γ.context.isAsync :: rest := by
  generalize hp : Port.code form Γ = p at h
  generalize hq : Port.bottom = q at h
  induction h generalizing form Γ with
  | nil => subst hq; contradiction
  | frame _ _ ih =>
    obtain ⟨rfl, rfl⟩ := Port.code.inj hp
    rw [Region.above_isOpen] at isOpen
    rw [Region.above_activation, Region.above_context]
    exact ih isOpen rfl hq
  | actionEnd _ _ =>
    obtain ⟨rfl, rfl⟩ := Port.code.inj hp
    contradiction
  | scopeBody _ _ _ =>
    obtain ⟨rfl, rfl⟩ := Port.code.inj hp
    exact ⟨_, _, rfl⟩
  | settling _ _ ih =>
    obtain ⟨rfl, rfl⟩ := Port.code.inj hp
    exact ih isOpen rfl hq
  | activationEnd _ _ _ _ =>
    obtain ⟨rfl, rfl⟩ := Port.code.inj hp
    contradiction
  | _ => contradiction

/-- What surrounds the code of a generator is not known, so it may be returned from anywhere. -/
theorem Spans.untargeted (h : Spans w (.code form Γ) stack marks .bottom)
    (generator : Γ.context.isGenerator = true) : Γ.targets = none := by
  generalize hp : Port.code form Γ = p at h
  generalize hq : Port.bottom = q at h
  induction h generalizing form Γ with
  | nil => subst hq; contradiction
  | frame _ _ ih =>
    obtain ⟨rfl, rfl⟩ := Port.code.inj hp
    rw [Region.above_context] at generator
    exact Region.above_targets (ih generator rfl hq) _
  | actionEnd _ _ =>
    obtain ⟨rfl, rfl⟩ := Port.code.inj hp
    contradiction
  | @scopeBody Γ' _ _ _ _ _ _ _ ih =>
    obtain ⟨rfl, rfl⟩ := Port.code.inj hp
    show Γ'.targets = none
    exact ih generator rfl hq
  | settling _ _ ih =>
    obtain ⟨rfl, rfl⟩ := Port.code.inj hp
    exact ih generator rfl hq
  | activationEnd _ _ _ _ =>
    obtain ⟨rfl, rfl⟩ := Port.code.inj hp
    rfl
  | _ => contradiction

/-- A boundary divides a stack into what a suspension takes along and what stays. -/
theorem Spans.split (h : Spans w p stack marks .bottom) {a : Nat} {context : Node.Context}
    (home : p.home? = some (a, context)) :
    ∃ q above below, Spans w p stack.segment above q ∧ Spans w q stack.fromBoundary below .bottom ∧
      marks = above ++ below ∧ Meets a context q above := by
  have segment : ∀ {f : Frame} {rest : Stack}, f.isBoundary = false →
      Stack.segment (f :: rest) = f :: rest.segment ∧
        Stack.fromBoundary (f :: rest) = rest.fromBoundary := by
    intro f rest hf
    simp [Stack.segment, Stack.fromBoundary, hf]
  have boundary : ∀ {f : Frame} {rest : Stack}, f.isBoundary = true →
      Stack.segment (f :: rest) = [] ∧ Stack.fromBoundary (f :: rest) = f :: rest := by
    intro f rest hf
    simp [Stack.segment, Stack.fromBoundary, hf]
  generalize hq : Port.bottom = q at h
  induction h generalizing a context with
  | nil => subst hq; contradiction
  | @frame Γ f form form' rest marks _ takes hrest ih =>
    subst hq
    obtain ⟨q, above, below, habove, hbelow, rfl, hm⟩ := ih ((Port.home?_above ..).symm.trans home) rfl
    have hf : f.isBoundary = false := by cases takes <;> rfl
    rw [(segment hf).1, (segment hf).2]
    exact ⟨q, above, below, .frame takes habove, hbelow, rfl, hm⟩
  | actionEnd _ ih =>
    obtain ⟨q, above, below, habove, hbelow, rfl, hm⟩ := ih home hq
    rw [(segment rfl).1, (segment rfl).2]
    exact ⟨q, above, below, .actionEnd habove, hbelow, rfl, hm⟩
  | @scopeBody Γ handle _ _ _ _ clean _ ih =>
    obtain ⟨q, above, below, habove, hbelow, rfl, hm⟩ := ih home hq
    rw [(segment rfl).1, (segment rfl).2]
    obtain ⟨rfl, rfl⟩ := Prod.mk.inj (Option.some.inj home)
    exact ⟨q, _, below, .scopeBody clean habove, hbelow, rfl, hm.cons ⟨rfl, by simp [Mark.frame]⟩⟩
  | settling async _ ih =>
    obtain ⟨q, above, below, habove, hbelow, rfl, hm⟩ := ih home hq
    rw [(segment rfl).1, (segment rfl).2]
    exact ⟨q, above, below, .settling async habove, hbelow, rfl, hm⟩
  | @activationEnd b context form rest marks _ outcome async hrest ih =>
    subst hq
    obtain ⟨rfl, rfl⟩ := Prod.mk.inj (Option.some.inj home)
    have hstop : Stack.segment rest = [] ∧ Stack.fromBoundary rest = rest := by
      cases hrest <;> exact boundary rfl
    rw [(segment rfl).1, (segment rfl).2, hstop.1, hstop.2]
    exact ⟨_, [.ends b], marks, .activationEnd outcome async .nil, hrest, rfl,
      .ended [] (by simp [FramesOf])⟩
  | @syncAction b rest marks _ hrest ih =>
    subst hq
    obtain ⟨rfl, rfl⟩ := Prod.mk.inj (Option.some.inj home)
    rw [(boundary rfl).1, (boundary rfl).2]
    exact ⟨_, [], marks, .nil, .syncAction hrest, rfl, .action rfl (by simp [FramesOf])⟩
  | @asyncAction b rest marks _ async hrest ih =>
    subst hq
    obtain ⟨rfl, rfl⟩ := Prod.mk.inj (Option.some.inj home)
    rw [(boundary rfl).1, (boundary rfl).2]
    exact ⟨_, [], marks, .nil, .asyncAction async hrest, rfl, .action rfl (by simp [FramesOf])⟩
  | _ => contradiction

end Parts

end Script

end ScopeExit
