import ScopeExit.Script.Run
/-!
What running code leaves alone.

A frame knows nothing of the frames below it.  Whatever it does with an outcome, and whatever the first
step of a statement, an expression or a call comes to, the stack below is still there afterwards, with
frames of the new code on top.  Only suspensions and a few frames of tasks look further down.

Each function of the machine has its lemma here.  A generator that is resumed puts back the code that it
has kept, so what may end in a resumption asks that the code of suspended generators is local too.
-/
namespace ScopeExit.Script

/-- Frames that leave to the event loop neither their own code nor the code below: no task starts, waits
or ends there, and no drain waits for its actions. -/
def Frame.isLocal : Frame → Bool
  | .asyncDrive | .settling | .taskStart _ | .nap _ | .taskEnd _ | .programEnd => false
  | .draining _ d => d.mode = .sync
  | _ => true

/-- A stack is still at the bottom, below frames that leave it alone. -/
def Running.Keeps (stack : Stack) (s : Running) : Prop :=
  ∃ upper, s.stack = upper ++ stack ∧ ∀ f ∈ upper, f.isLocal = true

/-- The generators that are suspended have kept nothing but local frames. -/
def World.LocalGenerators (w : World) : Prop :=
  ∀ g code, w.generator g = .suspended code → ∀ f ∈ code, f.isLocal = true

theorem World.LocalGenerators.same {w w' : World} (h : w.LocalGenerators)
    (same : w'.generators = w.generators) : w'.LocalGenerators := by
  intro g code hg
  exact h g code (by simpa [World.generator, same] using hg)

namespace Running.Keeps

variable {w : World} {c : Control} {f : Frame} {stack upper : Stack} {s : Running}

theorem here : Keeps stack ⟨w, c, stack⟩ := ⟨[], rfl, by simp⟩

/-- What keeps a stack keeps all but the local frames on top of it. -/
theorem beneath (h : Keeps (upper ++ stack) s) (isLocal : ∀ f ∈ upper, f.isLocal = true) :
    Keeps stack s := by
  obtain ⟨upper', hs, hupper'⟩ := h
  refine ⟨upper' ++ upper, by rw [hs, List.append_assoc], fun f hf => ?_⟩
  exact (List.mem_append.mp hf).elim (hupper' f) (isLocal f)

theorem under (h : Keeps (f :: stack) s) (isLocal : f.isLocal = true) : Keeps stack s :=
  beneath (show Keeps ([f] ++ stack) s from h) (List.forall_mem_singleton.mpr isLocal)

theorem push (isLocal : f.isLocal = true) : Keeps stack ⟨w, c, f :: stack⟩ := here.under isLocal

theorem perform {α : Type} {change : World.Change α} {go : World → α → Running}
    (h : ∀ x, Keeps stack (go change.2 x)) : Keeps stack (World.perform stack change go) := by
  obtain ⟨result, w⟩ := change
  cases result with
  | ok x => exact h x
  | error failure => exact .here

theorem attempt {α : Type} {r : Except Failure α} {go : World → α → Running}
    (h : ∀ x, Keeps stack (go w x)) : Keeps stack (w.attempt stack r go) := .perform h

end Running.Keeps

namespace World

variable (w : World) (stack : Stack)

/-! ### Frames of the engine -/

theorem keeps_complete (reason : ExitReason) : (w.complete stack reason).Keeps stack := by
  unfold World.complete
  split <;> exact .here

theorem keeps_openFrame (kind : FrameKind) (span : Span) (scope : Nat) (statements : List Node)
    (atEnd : ExitReason) {inside : World → Stack → Running}
    (h : ∀ w stack, (inside w stack).Keeps stack) :
    (w.openFrame stack kind span scope statements atEnd inside).Keeps stack := by
  simp only [World.openFrame]
  split
  · exact (h _ _).under rfl
  · exact .push rfl

theorem keeps_enterFrame (kind : FrameKind) (span : Span) (scope : Nat) (statements : List Node)
    (atEnd : ExitReason) : (w.enterFrame stack kind span scope statements atEnd).Keeps stack :=
  w.keeps_openFrame stack kind span scope statements atEnd fun _ _ => .push rfl

theorem keeps_leaveFrame (a : Nat) (handle : FrameHandle) (result : Except Failure DrainOutcome) :
    (w.leaveFrame stack a handle result).Keeps stack := by
  simp only [World.leaveFrame]
  split <;> exact .here

/-- A synchronous drain runs its actions on top of the stack. -/
theorem keeps_proceed (a : Nat) (handle : FrameHandle) {next : DrainStep Deferred}
    {r : Registry Deferred}
    (sync : ∀ action d, next = .run action d → action.mode = .sync ∧ d.mode = .sync) :
    (w.proceed stack a handle (next, r)).Keeps stack := by
  cases next with
  | run action d =>
    obtain ⟨haction, hd⟩ := sync action d rfl
    simp only [World.proceed, haction, reduceCtorEq, if_false]
    exact .under (.push rfl) (by simp [Frame.isLocal, hd])
  | ended result => exact keeps_leaveFrame ..

/-! ### Calls -/

theorem keeps_enterBody (body : Node) (scope : Nat) : (w.enterBody stack body scope).Keeps stack := by
  unfold World.enterBody
  split
  · exact (keeps_enterFrame ..).under rfl
  · exact .here

theorem keeps_bindParameters (closure scope : Nat) (rest : List Node) (arguments : List Value) :
    (w.bindParameters stack closure scope rest arguments).Keeps stack := by
  induction rest generalizing w arguments with
  | nil => exact keeps_enterBody ..
  | cons p rest ih =>
    simp only [World.bindParameters]
    split
    · split
      · exact .push rfl
      · exact ih ..
    · exact ih ..

theorem keeps_startBody (closure a : Nat) (arguments : List Value) :
    (w.startBody stack closure a arguments).Keeps stack := (keeps_bindParameters ..).under rfl

theorem keeps_finished (mode : ResumeMode) (value : Value) :
    (resume.finished stack mode value w).Keeps stack := by
  unfold resume.finished
  split <;> exact .here

theorem keeps_resume (h : w.LocalGenerators) (g : Nat) (mode : ResumeMode) (value : Value) :
    (w.resume stack g mode value).Keeps stack := by
  unfold World.resume
  split
  · exact .here
  · exact keeps_finished ..
  · split
    · exact (keeps_startBody ..).under rfl
    · exact keeps_finished ..
  · rename_i code hcode
    have resumed : ∀ c,
        Running.Keeps stack ⟨w.setGenerator g .running, c, code ++ .generatorBoundary g :: stack⟩ :=
      fun c => .under (.beneath .here (h g code hcode)) rfl
    split
    · exact resumed _
    · exact resumed _
    · split
      · exact resumed _
      · exact .here

theorem keeps_callNative (h : w.LocalGenerators) (n : Native) (arguments : List Value) :
    (w.callNative stack n arguments).Keeps stack := by
  unfold World.callNative
  split
  · exact (keeps_resume _ _ h ..).under rfl
  · exact .perform fun _ => .here

theorem keeps_callClosure (closure : Nat) (arguments : List Value) :
    (w.callClosure stack closure arguments).Keeps stack := by
  simp only [World.callClosure]
  split
  · exact .here
  · split
    · exact .here
    · refine ((keeps_startBody ..).under ?_).under rfl
      split <;> rfl

theorem keeps_call (h : w.LocalGenerators) (callee : Callee) (arguments : List Value) :
    (w.call stack callee arguments).Keeps stack := by
  unfold World.call
  split
  · exact keeps_callNative _ _ h ..
  · exact keeps_callClosure ..
  · exact .attempt fun _ => .here

theorem keeps_construct (h : w.LocalGenerators) (constructor : Value) (arguments : List Value) :
    (w.construct stack constructor arguments).Keeps stack := by
  have refused : (w.attempt stack (w.heap.text constructor) fun w name =>
      ⟨w, .raise (.typeError (name ++ " is not a constructor")), stack⟩).Keeps stack :=
    .attempt fun _ => .here
  unfold World.construct
  split
  · split
    · exact keeps_callNative _ _ h ..
    · exact refused
  · exact refused

/-! ### Statements -/

theorem keeps_evaluateChild (node : Node) (i scope : Nat) :
    (w.evaluateChild stack node i scope).Keeps stack := by
  unfold World.evaluateChild
  split <;> exact .here

theorem keeps_executeChild (node : Node) (i scope : Nat) :
    (w.executeChild stack node i scope).Keeps stack := by
  unfold World.executeChild
  split <;> exact .here

theorem keeps_declare (kind : Text) (scope target : Nat) (rest : List Node) :
    (declare stack kind scope target w rest).Keeps stack := by
  induction rest generalizing w with
  | nil => exact .here
  | cons d rest ih =>
    unfold World.declare
    split
    · exact .push rfl
    · split
      · exact ih ..
      · exact ih ..

theorem keeps_runPass (body : Node) (scope : Nat) : (w.runPass stack body scope).Keeps stack :=
  keeps_enterFrame ..

theorem keeps_afterPassThen (reason : ExitReason) (labels : List Text) {again : World → Running}
    (h : (again w).Keeps stack) : (w.afterPassThen stack reason labels again).Keeps stack := by
  unfold World.afterPassThen
  split
  · exact h
  · exact .here

theorem keeps_testFor (loop : CountingLoop) (scope : Nat) :
    (w.testFor stack loop scope).Keeps stack := by
  unfold World.testFor
  split
  · exact (keeps_runPass ..).under rfl
  · exact .push rfl

theorem keeps_startFor (loop : CountingLoop) (scope : Nat) :
    (w.startFor stack loop scope).Keeps stack := keeps_testFor ..

theorem keeps_stepFor (loop : CountingLoop) (scope : Nat) :
    (w.stepFor stack loop scope).Keeps stack := by
  simp only [World.stepFor]
  split
  · exact keeps_testFor ..
  · exact .push rfl

theorem keeps_runElement (loop : ElementLoop) (value : Value) :
    (w.runElement stack loop value).Keeps stack := (keeps_runPass ..).under rfl

theorem keeps_runFound (loop : ElementLoop) (value? : Option Value) :
    (w.runFound stack loop value?).Keeps stack := by
  unfold World.runFound
  split
  · exact keeps_runElement ..
  · exact .here

theorem keeps_nextElement (h : w.LocalGenerators) (loop : ElementLoop) :
    (w.nextElement stack loop).Keeps stack := by
  unfold World.nextElement
  split
  · exact keeps_runFound ..
  · exact keeps_runFound ..
  · exact (keeps_resume _ _ h ..).under rfl
  · exact .attempt fun _ => .here

theorem keeps_startForOf (h : w.LocalGenerators) (node : Node) (scope : Nat) (labels : List Text)
    (iterable : Value) : (w.startForOf stack node scope labels iterable).Keeps stack := by
  unfold World.startForOf
  split
  · exact .here
  · exact keeps_nextElement _ _ h _

theorem keeps_leaveForOf (h : w.LocalGenerators) (loop : ElementLoop) (reason : ExitReason) :
    (w.leaveForOf stack loop reason).Keeps stack := by
  unfold World.leaveForOf
  split
  · exact (keeps_resume _ _ h ..).under rfl
  · exact .here

theorem keeps_abandonForOf (h : w.LocalGenerators) (loop : ElementLoop) (failure : Failure) :
    (w.abandonForOf stack loop failure).Keeps stack := by
  unfold World.abandonForOf
  split
  · split
    · exact (keeps_resume _ _ h ..).under rfl
    · exact .here
  · exact .here

theorem keeps_testClauses (subject : Value) (scope : Nat) (fallback : Option (List Node))
    (rest : List Node) : (w.testClauses stack subject scope fallback rest).Keeps stack := by
  induction rest generalizing fallback with
  | nil => exact .push rfl
  | cons clause rest ih =>
    unfold World.testClauses
    split
    · exact ih ..
    · exact (keeps_evaluateChild ..).under rfl

theorem keeps_runSwitch (node : Node) (scope : Nat) (labels : List Text) (subject : Value) :
    (w.runSwitch stack node scope labels subject).Keeps stack :=
  (keeps_openFrame _ _ _ _ _ _ _ fun w stack => w.keeps_testClauses stack ..).under rfl

theorem keeps_finish (finalizer : Node) (scope : Nat) (reason : ExitReason) :
    (w.finish stack finalizer scope reason).Keeps stack := by
  unfold World.finish
  split
  · exact keeps_complete ..
  · exact .push rfl

theorem keeps_handle (handler finalizer : Node) (scope : Nat) (failure : Failure) :
    (w.handle stack handler finalizer scope failure).Keeps stack := by
  simp only [World.handle]
  split
  · exact keeps_finish ..
  · exact (keeps_executeChild ..).under rfl

theorem keeps_executeTarget (node : Node) (scope : Nat) (labels : List Text) :
    (w.executeTarget stack node scope labels).Keeps stack := by
  simp only [World.executeTarget]
  split
  · exact .push rfl
  · exact (keeps_runPass ..).under rfl
  · split
    · exact keeps_startFor ..
    · exact .push rfl
  · exact (keeps_evaluateChild ..).under rfl
  · exact (keeps_evaluateChild ..).under rfl
  · exact .here

theorem keeps_executeLabeled (node : Node) (scope : Nat) :
    (w.executeLabeled stack node scope).Keeps stack := by
  unfold World.executeLabeled
  refine .attempt fun x => ?_
  dsimp only
  split
  · exact (keeps_executeTarget ..).under rfl
  · exact .push rfl

theorem keeps_executeCompound (node : Node) (scope : Nat) :
    (w.executeCompound stack node scope).Keeps stack := by
  unfold World.executeCompound
  split
  · exact (keeps_evaluateChild ..).under rfl
  · exact keeps_declare ..
  · exact keeps_enterFrame ..
  · exact (keeps_evaluateChild ..).under rfl
  · split
    · exact .push rfl
    · exact .here
  · exact (keeps_evaluateChild ..).under rfl
  · split
    · exact .push rfl
    · exact .here
  · exact keeps_executeLabeled ..
  · exact keeps_executeTarget ..

theorem keeps_execute (node : Node) (scope : Nat) : (w.execute stack node scope).Keeps stack := by
  simp only [World.execute]
  split
  · exact .here
  · exact .here
  · exact .here
  · exact .here
  · exact .perform fun _ => .here
  · split
    · exact (keeps_executeCompound ..).under rfl
    · exact .here

/-! ### Expressions -/

theorem keeps_template (before : List Text) (rest : List Node) (scope : Nat) :
    (w.template stack before rest scope).Keeps stack := by
  unfold World.template
  split
  · exact .here
  · exact .push rfl

theorem keeps_arguments (h : w.LocalGenerators) (callee : Callee) (before : List Value)
    (rest : List Node) (scope : Nat) : (w.arguments stack callee before rest scope).Keeps stack := by
  unfold World.arguments
  split
  · exact keeps_call _ _ h ..
  · exact .push rfl

theorem keeps_newArguments (h : w.LocalGenerators) (constructor : Value) (before : List Value)
    (rest : List Node) (scope : Nat) :
    (w.newArguments stack constructor before rest scope).Keeps stack := by
  unfold World.newArguments
  split
  · exact keeps_construct _ _ h ..
  · exact .push rfl

theorem keeps_elements (before : List Value) (rest : List Node) (scope : Nat) :
    (w.elements stack before rest scope).Keeps stack := by
  unfold World.elements
  split
  · exact .here
  · exact .push rfl

theorem keeps_properties (ref : Nat) (rest : List Node) (scope : Nat) :
    (w.properties stack ref rest scope).Keeps stack := by
  unfold World.properties
  split
  · exact .here
  · exact (keeps_evaluateChild ..).under rfl

theorem keeps_sequence (rest : List Node) (scope : Nat) (value : Value) :
    (w.sequence stack rest scope value).Keeps stack := by
  unfold World.sequence
  split
  · exact .here
  · exact .push rfl

theorem keeps_store (place : Place) (value result : Value) :
    (w.store stack place value result).Keeps stack := .perform fun _ => .here

theorem keeps_update (place : Place) (op : Text) (isLeading : Bool) :
    (w.update stack place op isLeading).Keeps stack :=
  .perform fun _ => .attempt fun _ => keeps_store ..

theorem keeps_assignTo (place : Place) (op : Option Text) (right : Node) (scope : Nat) :
    (w.assignTo stack place op right scope).Keeps stack := by
  simp only [World.assignTo]
  split
  · exact .push rfl
  · refine .perform fun current => ?_
    split
    · refine .attempt fun keeps => ?_
      split
      · exact .here
      · exact .push rfl
    · exact .push rfl

theorem keeps_assignCombined (place : Place) (op : Option Text) (current operand : Value) :
    (w.assignCombined stack place op current operand).Keeps stack := by
  unfold World.assignCombined
  split
  · exact .here
  · exact .attempt fun _ => keeps_store ..

theorem keeps_usePlace (place : Place) (use : PlaceUse) :
    (w.usePlace stack place use).Keeps stack := by
  unfold World.usePlace
  split
  · exact keeps_update ..
  · exact keeps_assignTo ..

theorem keeps_findPlace (target : Node) (scope : Nat) (use : PlaceUse) :
    (w.findPlace stack target scope use).Keeps stack := by
  unfold World.findPlace
  split
  · exact keeps_usePlace ..
  · exact (keeps_evaluateChild ..).under rfl

theorem keeps_findPlaceIn (object : Value) (target : Node) (scope : Nat) (use : PlaceUse) :
    (w.findPlaceIn stack object target scope use).Keeps stack := by
  unfold World.findPlaceIn
  split
  · exact keeps_usePlace ..
  · exact (keeps_evaluateChild ..).under rfl

/-- Reading a property leaves the generators alone. -/
theorem generators_getProperty (object key : Value) :
    (w.getProperty object key).2.generators = w.generators := by
  unfold World.getProperty World.change
  split
  · dsimp only
    split <;> rfl
  · rfl

theorem keeps_callMethod (h : w.LocalGenerators) (object key : Value) (rest : List Node)
    (scope : Nat) : (w.callMethod stack object key rest scope).Keeps stack :=
  .perform fun _ => .attempt fun _ =>
    keeps_arguments _ _ (h.same (w.generators_getProperty object key)) ..

theorem keeps_findCallee (callee : Node) (rest : List Node) (scope : Nat) :
    (w.findCallee stack callee rest scope).Keeps stack := by
  unfold World.findCallee
  split
  · exact (keeps_evaluateChild ..).under rfl
  · exact (keeps_evaluateChild ..).under rfl
  · exact .push rfl

theorem keeps_findMethod (h : w.LocalGenerators) (object : Value) (callee : Node) (rest : List Node)
    (scope : Nat) : (w.findMethod stack object callee rest scope).Keeps stack := by
  unfold World.findMethod
  split
  · exact keeps_callMethod (w.memberKey callee).2 _ (h.same rfl) ..
  · exact (keeps_evaluateChild ..).under rfl

theorem keeps_read (object key : Value) : (w.read stack object key).Keeps stack :=
  .perform fun _ => .here

theorem keeps_logical (op : Text) (left : Value) (right : Option Node) (scope : Nat) :
    (w.logical stack op left right scope).Keeps stack := by
  refine .attempt fun decided => ?_
  split
  · exact .here
  · split <;> exact .here

theorem keeps_unary (node : Node) (scope : Nat) : (w.unary stack node scope).Keeps stack := by
  unfold World.unary
  split
  · exact .here
  · split
    · exact .here
    · split
      · exact .here
      · exact .push rfl

theorem keeps_evaluate (node : Node) (scope : Nat) : (w.evaluate stack node scope).Keeps stack := by
  unfold World.evaluate
  split
  · exact .here
  · exact .attempt fun _ => .here
  · exact .perform fun _ => .here
  · exact keeps_template ..
  · split
    · exact .push rfl
    · exact .here
  · exact (keeps_evaluateChild ..).under rfl
  · exact keeps_unary ..
  · split
    · exact keeps_findPlace ..
    · exact .here
  · split
    · exact keeps_findPlace ..
    · exact .here
  · split
    · exact keeps_findCallee ..
    · exact .here
  · exact (keeps_evaluateChild ..).under rfl
  · exact (keeps_evaluateChild ..).under rfl
  · exact keeps_elements ..
  · exact keeps_properties ..
  · split
    · exact .push rfl
    · exact .here
  · exact (keeps_evaluateChild ..).under rfl
  · split
    · exact .push rfl
    · exact .here
  · exact (keeps_evaluateChild ..).under rfl
  · exact keeps_sequence ..
  · exact .here

/-! ### Outcomes -/

theorem keeps_branch (v : Value) {yes no : World → Running} (hyes : (yes w).Keeps stack)
    (hno : (no w).Keeps stack) : (w.branch stack v yes no).Keeps stack := by
  refine .attempt fun b => ?_
  split
  · exact hyes
  · exact hno

theorem keeps_evaluateOperand (operand : Option Node) (scope : Nat) {frame : Frame}
    (isLocal : frame.isLocal = true) :
    (w.evaluateOperand stack operand scope frame).Keeps stack := by
  unfold World.evaluateOperand
  split
  · exact .push isLocal
  · exact .here

theorem keeps_give (r : Conversion Value) : (w.give stack r).Keeps stack := .attempt fun _ => .here

variable {f : Frame}

theorem keeps_onValue (h : w.LocalGenerators) (isLocal : f.isLocal = true) (v : Value) :
    (w.onValue stack v f).Keeps stack := by
  cases f with
  | declare => exact keeps_declare ..
  | ifCondition =>
    refine keeps_branch _ _ _ (keeps_executeChild ..) ?_
    split <;> exact .here
  | whileCondition | doCondition | forCondition =>
    exact keeps_branch _ _ _ ((keeps_runPass ..).under rfl) .here
  | forStep => exact keeps_testFor ..
  | forOfSubject => exact keeps_startForOf _ _ h ..
  | switchSubject => exact keeps_runSwitch ..
  | switchTest =>
    simp only [World.onValue]
    split
    · exact .push rfl
    · exact keeps_testClauses ..
  | templatePart => exact .attempt fun _ => keeps_template ..
  | binaryLeft | indexObject => exact keeps_evaluateOperand _ _ _ _ rfl
  | binaryRight | unaryOperand => exact keeps_give ..
  | logicalLeft => exact keeps_logical ..
  | placeObject => exact keeps_findPlaceIn ..
  | placeKey => exact keeps_usePlace ..
  | assignValue => exact keeps_store ..
  | assignCombined => exact keeps_assignCombined ..
  | calleeObject => exact keeps_findMethod _ _ h ..
  | calleeKey => exact keeps_callMethod _ _ h ..
  | calleeValue | argument => exact keeps_arguments _ _ h ..
  | newCallee | newArgument => exact keeps_newArguments _ _ h ..
  | memberObject | indexKey => exact keeps_read ..
  | arrayElement => exact keeps_elements ..
  | objectProperty => exact keeps_properties ..
  | conditionalTest => exact keeps_branch _ _ _ (keeps_evaluateChild ..) (keeps_evaluateChild ..)
  | sequenceElement => exact keeps_sequence ..
  | parameter => exact keeps_bindParameters ..
  | taskStart | nap | taskEnd | programEnd => contradiction
  | _ => exact .here

theorem keeps_onComplete (h : w.LocalGenerators) (isLocal : f.isLocal = true)
    (leaves : ∀ a handle atEnd reason, f = .scopeBody a handle atEnd →
      (w.leaveBody stack a handle reason).Keeps stack)
    (settles : ∀ a d failure?, f = .draining a d → (w.settleAction stack a d failure?).Keeps stack)
    (reason : ExitReason) : (w.onComplete stack reason f).Keeps stack := by
  cases f with
  | statements =>
    simp only [World.onComplete]
    split
    · exact .here
    · split
      · exact .here
      · exact .push rfl
  | scopeBody => exact leaves _ _ _ _ rfl
  | scopeEnd => exact keeps_complete ..
  | draining => exact settles _ _ _ rfl
  | whilePass => exact keeps_afterPassThen _ _ _ _ (.push rfl)
  | doPass => exact keeps_afterPassThen _ _ _ _ (.push rfl)
  | forStart =>
    simp only [World.onComplete]
    split
    · exact .here
    · exact keeps_startFor ..
  | forPass => exact keeps_afterPassThen _ _ _ _ (keeps_stepFor ..)
  | forOfPass =>
    simp only [World.onComplete]
    split
    · exact keeps_nextElement _ _ h _
    · exact keeps_leaveForOf _ _ h ..
  | tryBody | catchBody => exact keeps_finish ..
  | finallyBody =>
    simp only [World.onComplete]
    split
    · exact .here
    · exact keeps_complete ..
  | functionEnd =>
    simp only [World.onComplete]
    split <;> exact .here
  | programEnd => contradiction
  | _ => exact .here

theorem keeps_onResumed (v : Value) (done : Bool) : (w.onResumed stack v done f).Keeps stack := by
  cases f with
  | forOfNext =>
    simp only [World.onResumed]
    split
    · exact .here
    · exact keeps_runElement ..
  | _ => exact .here

theorem keeps_onRaise (h : w.LocalGenerators) (isLocal : f.isLocal = true)
    (leaves : ∀ a handle atEnd reason, f = .scopeBody a handle atEnd →
      (w.leaveBody stack a handle reason).Keeps stack)
    (settles : ∀ a d failure?, f = .draining a d → (w.settleAction stack a d failure?).Keeps stack)
    (failure : Failure) : (w.onRaise stack failure f).Keeps stack := by
  cases f with
  | statementEnd =>
    simp only [World.onRaise]
    split <;> exact .here
  | scopeBody =>
    simp only [World.onRaise]
    split
    · exact leaves _ _ _ _ rfl
    · split
      · exact leaves _ _ _ _ rfl
      · exact .here
  | draining => exact settles _ _ _ rfl
  | forOfPass => exact keeps_abandonForOf _ _ h ..
  | forOfAbort =>
    simp only [World.onRaise]
    split <;> exact .here
  | tryBody =>
    simp only [World.onRaise]
    split
    · exact keeps_handle ..
    · exact .here
  | catchBody =>
    simp only [World.onRaise]
    split
    · exact keeps_finish ..
    · exact .here
  | asyncStart =>
    simp only [World.onRaise]
    split <;> exact .here
  | settling | taskEnd | programEnd => contradiction
  | _ => exact .here

end World

end ScopeExit.Script
