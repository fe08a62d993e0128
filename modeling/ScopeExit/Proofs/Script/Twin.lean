import ScopeExit.Proofs.Script.Recast
/-!
Running code and its twin under another configuration.

A twin is the recast running code.  One lemma for each function of the machine says that twins come to
twins.  There is one exception: where a call is refused because it goes too deep, the twin may go on.
So two runs under configurations that make no other difference, whose tasks go on in the same order, come
to twins at every moment, and show the same.
-/
namespace ScopeExit.Script

open World

/-- What looking up a method gives, if the name of the method has a text. -/
def World.method? (w : World) (object key : Value) : Option Value :=
  match w.getProperty object key with
  | (.ok function, w) => if (w.heap.text key).isOk then some function else none
  | (.error _, _) => none

/-- The value that the next step calls, if it calls one. -/
def Running.callee? (r : Running) : Option Value :=
  match r.control, r.stack with
  | .value v, .calleeValue _ [] _ :: _ => some v
  | .value _, .argument callee _ [] _ :: _ => some callee.function
  | .value key, .calleeKey object [] _ :: _ => r.world.method? object key
  | .value object, .calleeObject callee [] _ :: _ =>
    if callee.kind = .member then (r.world.memberKey callee).2.method? object (r.world.memberKey callee).1
    else none
  | _, _ => none

/-- The next step calls a function of the script. -/
def Running.CallsFunction (r : Running) : Prop := ∃ closure, r.callee? = some (.function closure)

/-- Calls are refused here because they go too deep, and are not with the other configuration. -/
def World.Narrow (c : Config) (w : World) : Prop :=
  w.config.maxCallDepth ≤ w.depth ∧ w.depth < c.maxCallDepth

/-- The twin of running code is the code recast, unless the two are excused. -/
def Running.Twin (c : Config) (free : Nat → Bool) (excused : Prop) (r r' : Running) : Prop :=
  r' = r.recast c free ∨ excused

section Twin

variable {c : Config} {free : Nat → Bool} {Q : Prop} {w : World} {s : Stack}

/-! ### Changes and computations -/

theorem twin_perform {α : Type} {x x' : Change α} {go go' : World → α → Running}
    (same : x' = Change.recast c free x)
    (next : ∀ v, (go x.2 v).Twin c free Q (go' (x.2.recast c free) v)) :
    (perform s x go).Twin c free Q (perform (Stack.recast free s) x' go') := by
  subst same
  obtain ⟨result, w⟩ := x
  cases result with
  | ok v => exact next v
  | error failure => exact .inl rfl

theorem twin_attempt {α : Type} {r : Except Failure α} {go go' : World → α → Running}
    (next : ∀ v, (go w v).Twin c free Q (go' (w.recast c free) v)) :
    (w.attempt s r go).Twin c free Q ((w.recast c free).attempt (Stack.recast free s) r go') :=
  twin_perform (x := (r, w)) rfl next

theorem twin_give (r : Conversion Value) :
    (w.give s r).Twin c free Q ((w.recast c free).give (Stack.recast free s) r) :=
  twin_attempt fun _ => .inl rfl

theorem twin_branch {yes no yes' no' : World → Running} (v : Value)
    (whenTrue : (yes w).Twin c free Q (yes' (w.recast c free)))
    (whenFalse : (no w).Twin c free Q (no' (w.recast c free))) :
    (w.branch s v yes no).Twin c free Q
      ((w.recast c free).branch (Stack.recast free s) v yes' no') := by
  refine twin_attempt fun b => ?_
  cases b with
  | true => exact whenTrue
  | false => exact whenFalse

theorem twin_evaluateChild (node : Node) (i scope : Nat) :
    (w.evaluateChild s node i scope).Twin c free Q
      ((w.recast c free).evaluateChild (Stack.recast free s) node i scope) := by
  unfold World.evaluateChild
  split <;> exact .inl rfl

theorem twin_executeChild (node : Node) (i scope : Nat) :
    (w.executeChild s node i scope).Twin c free Q
      ((w.recast c free).executeChild (Stack.recast free s) node i scope) := by
  unfold World.executeChild
  split <;> exact .inl rfl

theorem twin_evaluateOperand (operand : Option Node) (scope : Nat) {frame frame' : Frame}
    (same : frame' = frame.recast free) :
    (w.evaluateOperand s operand scope frame).Twin c free Q
      ((w.recast c free).evaluateOperand (Stack.recast free s) operand scope frame') := by
  subst same
  cases operand <;> exact .inl rfl

theorem twin_complete (reason : ExitReason) :
    (w.complete s reason).Twin c free Q
      ((w.recast c free).complete (Stack.recast free s) reason) := by
  cases reason with
  | throwing failure? => cases failure? <;> exact .inl rfl
  | _ => exact .inl rfl

/-! ### Frames of the engine -/

theorem twin_openFrame (ok : w.Recasts c free) (kind : FrameKind) (span : Span) (scope : Nat)
    (statements : List Node) (atEnd : ExitReason) {inside inside' : World → Stack → Running}
    (next : ∀ w s, w.Recasts c free →
      (inside w s).Twin c free Q (inside' (w.recast c free) (Stack.recast free s))) :
    (w.openFrame s kind span scope statements atEnd inside).Twin c free Q
      ((w.recast c free).openFrame (Stack.recast free s) kind span scope statements atEnd
        inside') := by
  obtain ⟨a, ha⟩ : ∃ a, w.scopes.activation scope = a := ⟨_, rfl⟩
  obtain ⟨entered, hentered⟩ : ∃ entered,
      (w.activation a).registry.enter kind (w.activation a).isAsync span = entered := ⟨_, rfl⟩
  have hentered' : ((w.recast c free).activation a).registry.enter kind
      ((w.recast c free).activation a).isAsync span = (entered.1, entered.2.relaxed (free a)) := by
    rw [activation_recast ok, ← hentered]
    exact Registry.enter_relaxed ..
  obtain ⟨w', hw'⟩ : ∃ w', w' = { w.setRegistry a entered.2 with
      stats := { (w.setRegistry a entered.2).stats with
        framesEntered := (w.setRegistry a entered.2).stats.framesEntered + 1 } } := ⟨_, rfl⟩
  have ok' : w'.Recasts c free := by
    rw [hw']
    exact (ok.setRegistry a entered.2).mono rfl (Nat.le_refl _)
  unfold World.openFrame
  have ha' : (w.recast c free).scopes.activation scope = a := ha
  simp only [ha, ha', hentered, hentered', setRegistry_recast]
  have hhoist : World.hoist { (w.setRegistry a entered.2).recast c free with
      stats := { ((w.setRegistry a entered.2).recast c free).stats with
        framesEntered := ((w.setRegistry a entered.2).recast c free).stats.framesEntered + 1 } }
      scope statements = ((w'.hoist scope statements).1.recast c free, (w'.hoist scope statements).2) := by
    rw [hw', ← hoist_recast]
    rfl
  rw [hhoist, ← hw']
  have hminor := minor_hoist (w := w') scope statements
  generalize w'.hoist scope statements = hoisted at hminor ⊢
  obtain ⟨w'', failure?⟩ := hoisted
  cases failure? with
  | none => exact next w'' (.scopeBody a entered.1 atEnd :: s) (ok'.minor hminor)
  | some failure => exact .inl rfl

theorem twin_enterFrame (ok : w.Recasts c free) (kind : FrameKind) (span : Span) (scope : Nat)
    (statements : List Node) (atEnd : ExitReason) :
    (w.enterFrame s kind span scope statements atEnd).Twin c free Q
      ((w.recast c free).enterFrame (Stack.recast free s) kind span scope statements atEnd) :=
  twin_openFrame ok kind span scope statements atEnd fun _ _ _ => .inl rfl

theorem twin_leaveFrame (ok : w.Recasts c free) (a : Nat) (handle : FrameHandle)
    {result result' : Except Failure DrainOutcome}
    (same : result' = result.map (DrainOutcome.relaxed (free a))) :
    (w.leaveFrame s a handle result).Twin c free Q
      ((w.recast c free).leaveFrame (Stack.recast free s) a handle result') := by
  subst same
  unfold World.leaveFrame
  simp only [registry_recast ok, Registry.leave_relaxed, setRegistry_recast]
  generalize (w.registry a).leave handle result = d
  have ok' : (w.setRegistry a d.registry).Recasts c free := ok.setRegistry a d.registry
  cases d.record? with
  | none => cases d.result <;> exact .inl rfl
  | some record =>
    dsimp only
    rw [report_recast ok']
    cases d.result <;> exact .inl rfl

theorem twin_proceed (ok : w.Recasts c free) (a : Nat) (handle : FrameHandle)
    {x x' : DrainStep Deferred × Registry Deferred}
    (same : x' = (x.1.relaxed (free a), x.2.relaxed (free a))) :
    (w.proceed s a handle x).Twin c free Q
      ((w.recast c free).proceed (Stack.recast free s) a handle x') := by
  subst same
  obtain ⟨drainStep, registry⟩ := x
  cases drainStep with
  | run action d =>
    refine .inl ?_
    simp only [World.proceed, DrainStep.relaxed, setRegistry_recast, Running.recast, Stack.recast,
      List.map_cons]
    split <;> rfl
  | ended result =>
    simp only [World.proceed, DrainStep.relaxed, setRegistry_recast]
    exact twin_leaveFrame (ok.setRegistry a registry) a handle rfl

theorem twin_drain (ok : w.Recasts c free) (a : Nat) (handle : FrameHandle) (mode : ActionMode)
    (reason : ExitReason) :
    (w.drain s a handle mode reason).Twin c free Q
      ((w.recast c free).drain (Stack.recast free s) a handle mode reason) := by
  unfold World.drain
  rw [registry_recast ok, Drain.start_relaxed]
  cases Drain.start (w.registry a) handle mode reason with
  | error failure => exact twin_leaveFrame ok a handle rfl
  | ok x => exact twin_proceed ok a handle (x.1.advance_relaxed (free a) x.2)

theorem twin_settleAction (ok : w.Recasts c free) (a : Nat) (d : Drain) (failure? : Option Failure) :
    (w.settleAction s a d failure?).Twin c free Q
      ((w.recast c free).settleAction (Stack.recast free s) a (d.relaxed (free a)) failure?) := by
  unfold World.settleAction
  refine twin_proceed ok a d.handle ?_
  rw [registry_recast ok]
  exact d.settle_relaxed (free a) (w.registry a) failure?

theorem twin_leaveBody (ok : w.Recasts c free) (a : Nat) (handle : FrameHandle) (reason : ExitReason) :
    (w.leaveBody s a handle reason).Twin c free Q
      ((w.recast c free).leaveBody (Stack.recast free s) a handle reason) := by
  unfold World.leaveBody
  rw [registry_recast ok, Registry.hasAsyncActions_relaxed]
  cases (w.registry a).hasAsyncActions handle with
  | error failure => exact .inl rfl
  | ok holds =>
    cases holds with
    | true => exact .inl rfl
    | false => exact twin_drain (s := .scopeEnd :: s) ok a handle .sync reason

/-! ### Calls -/

theorem twin_enterBody (ok : w.Recasts c free) (body : Node) (scope : Nat) :
    (w.enterBody s body scope).Twin c free Q
      ((w.recast c free).enterBody (Stack.recast free s) body scope) := by
  unfold World.enterBody
  by_cases isBlock : body.kind = .block
  · rw [if_pos isBlock, if_pos isBlock]
    exact twin_enterFrame (s := .functionEnd :: s) ok .function body.span scope body.children
      .normal
  · rw [if_neg isBlock, if_neg isBlock]
    exact .inl rfl

theorem twin_bindParameters (ok : w.Recasts c free) (closure scope : Nat) (params : List Node)
    (arguments : List Value) :
    (w.bindParameters s closure scope params arguments).Twin c free Q
      ((w.recast c free).bindParameters (Stack.recast free s) closure scope params arguments) := by
  induction params generalizing w arguments with
  | nil => exact twin_enterBody ok (w.heap.closure closure).body scope
  | cons p rest ih =>
    have hbound := ih (w := w.bind scope p.name (arguments.headD .undefined))
      (ok.minor (minor_bind ..)) (arguments.drop 1)
    simp only [World.bindParameters]
    cases p.child? 0 with
    | none => exact hbound
    | some byDefault =>
      by_cases missing : (arguments.headD .undefined).isUndefined = true
      · simp only [if_pos missing]
        exact .inl rfl
      · simp only [if_neg missing]
        exact hbound

theorem twin_startBody (ok : w.Recasts c free) (closure activation : Nat) (arguments : List Value) :
    (w.startBody s closure activation arguments).Twin c free Q
      ((w.recast c free).startBody (Stack.recast free s) closure activation arguments) :=
  twin_bindParameters (s := .activationEnd activation :: s)
    (ok.minor (minor_addScope
      { parent := some (w.heap.closure closure).scope, activation := some activation, isFunction := true }))
    closure _ (w.heap.closure closure).params arguments

theorem twin_finished (mode : ResumeMode) (value : Value) :
    (World.resume.finished s mode value w).Twin c free Q
      (World.resume.finished (Stack.recast free s) mode value (w.recast c free)) := by
  cases mode <;> exact .inl rfl

theorem twin_resume (ok : w.Recasts c free) (g : Nat) (mode : ResumeMode) (value : Value) :
    (w.resume s g mode value).Twin c free Q
      ((w.recast c free).resume (Stack.recast free s) g mode value) := by
  have ok' (state : GeneratorState) : (w.setGenerator g state).Recasts c free := ok.mono rfl (Nat.le_refl _)
  have hset (state : GeneratorState) :
      (w.recast c free).setGenerator g (state.recast free) = (w.setGenerator g state).recast c free :=
    setGenerator_recast g state
  unfold World.resume
  rw [generator_recast]
  cases w.generator g with
  | running => exact .inl rfl
  | done => exact twin_finished mode value
  | fresh closure arguments activation =>
    have hrunning := hset .running
    have hdone := hset .done
    simp only [GeneratorState.recast] at hrunning hdone ⊢
    rw [hrunning, hdone]
    split
    · exact twin_startBody (s := .generatorBoundary g :: s) (ok' .running) closure activation
        arguments
    · exact twin_finished mode value
  | suspended code =>
    have hrunning := hset .running
    have hdone := hset .done
    have hstack : Stack.recast free (code ++ .generatorBoundary g :: s) =
        Stack.recast free code ++ .generatorBoundary g :: Stack.recast free s :=
      Stack.recast_append free code _
    have goesOn (control : Control) : Running.Twin c free Q
        ⟨w.setGenerator g .running, control, code ++ .generatorBoundary g :: s⟩
        ⟨(w.setGenerator g .running).recast c free, control,
          Stack.recast free code ++ .generatorBoundary g :: Stack.recast free s⟩ :=
      .inl (by rw [Running.recast, hstack])
    simp only [GeneratorState.recast] at hrunning hdone ⊢
    rw [hrunning, hdone]
    cases mode with
    | next => exact goesOn _
    | «return» => exact goesOn _
    | throw =>
      have hdescribe : (w.recast c free).heap.describe value = w.heap.describe value := rfl
      simp only [hdescribe]
      cases w.heap.describe value with
      | ok text => exact goesOn _
      | error failure => exact .inl rfl

theorem twin_callNative (ok : w.Recasts c free) (n : Native) (arguments : List Value) :
    (w.callNative s n arguments).Twin c free Q
      ((w.recast c free).callNative (Stack.recast free s) n arguments) := by
  unfold World.callNative
  cases n.builtin with
  | resume g mode =>
    exact twin_resume (s := .iterationResult :: s) ok g mode (arguments.headD .undefined)
  | _ => exact twin_perform (apply_recast _ _) fun _ => .inl rfl

theorem twin_callClosure (ok : w.Recasts c free) (closure : Nat) (arguments : List Value)
    (refused : w.Narrow c → Q) :
    (w.callClosure s closure arguments).Twin c free Q
      ((w.recast c free).callClosure (Stack.recast free s) closure arguments) := by
  have hlimit := ok.limit
  have hdepth : (w.recast c free).depth = w.depth := rfl
  have hconfig : (w.recast c free).config = c := rfl
  have hheap : (w.recast c free).heap = w.heap := rfl
  unfold World.callClosure
  simp only [hdepth, hconfig, hheap, newActivation_recast ok]
  by_cases deep : w.depth ≥ w.config.maxCallDepth
  · rw [if_pos deep]
    by_cases deep' : w.depth ≥ c.maxCallDepth
    · rw [if_pos deep']
      exact .inl rfl
    · exact .inr (refused ⟨deep, Int.not_le.mp deep'⟩)
  · have shallow : ¬ w.depth ≥ c.maxCallDepth := by omega
    rw [if_neg deep, if_neg shallow]
    generalize w.heap.closure closure = fn
    have ok' : (w.newActivation fn.name fn.isAsync).2.Recasts c free :=
      ok.mono rfl (by simp [World.newActivation])
    generalize w.newActivation fn.name fn.isAsync = made at ok' ⊢
    obtain ⟨activation, w'⟩ := made
    dsimp only
    by_cases isGenerator : fn.isGenerator = true
    · rw [if_pos isGenerator, if_pos isGenerator]
      refine .inl ?_
      simp [Running.recast, World.recast, GeneratorState.recast]
    · rw [if_neg isGenerator, if_neg isGenerator]
      have deeper : World.Recasts c free { w' with depth := w'.depth + 1 } :=
        ok'.mono rfl (Nat.le_refl _)
      split
      · exact twin_startBody (s := .asyncStart :: .callEnd :: s) deeper closure activation arguments
      · exact twin_startBody (s := .syncBoundary :: .callEnd :: s) deeper closure activation arguments

theorem twin_call (ok : w.Recasts c free) (callee : Callee) (arguments : List Value)
    (refused : (∃ closure, callee.function = .function closure) → w.Narrow c → Q) :
    (w.call s callee arguments).Twin c free Q
      ((w.recast c free).call (Stack.recast free s) callee arguments) := by
  unfold World.call
  cases function : callee.function with
  | native n => exact twin_callNative ok n arguments
  | function closure => exact twin_callClosure ok closure arguments (refused ⟨closure, function⟩)
  | _ => exact twin_attempt fun _ => .inl rfl

theorem twin_construct (ok : w.Recasts c free) (constructor : Value) (arguments : List Value) :
    (w.construct s constructor arguments).Twin c free Q
      ((w.recast c free).construct (Stack.recast free s) constructor arguments) := by
  unfold World.construct
  cases constructor with
  | native n =>
    dsimp only
    split
    · exact twin_callNative ok n arguments
    · exact twin_attempt fun _ => .inl rfl
  | _ => exact twin_attempt fun _ => .inl rfl

/-! ### Loops and switches -/

theorem twin_declare (kind : Text) (scope target : Nat) (declarators : List Node) :
    (World.declare s kind scope target w declarators).Twin c free Q
      (World.declare (Stack.recast free s) kind scope target (w.recast c free) declarators) := by
  induction declarators generalizing w with
  | nil => exact .inl rfl
  | cons d rest ih =>
    have hscopes : (w.recast c free).scopes = w.scopes := rfl
    simp only [World.declare, hscopes, define_recast]
    cases d.child? 0 with
    | some initial => exact .inl rfl
    | none =>
      by_cases there : (kind == "var" && (w.scopes.binding? target d.name).isSome) = true
      · simp only [if_pos there]
        exact ih
      · simp only [if_neg there]
        exact ih

theorem twin_executeDeclaration (node : Node) (scope : Nat) :
    (w.executeDeclaration s node scope).Twin c free Q
      ((w.recast c free).executeDeclaration (Stack.recast free s) node scope) :=
  twin_declare ..

theorem twin_runPass (ok : w.Recasts c free) (body : Node) (scope : Nat) :
    (w.runPass s body scope).Twin c free Q
      ((w.recast c free).runPass (Stack.recast free s) body scope) :=
  twin_enterFrame (w := (w.childScope scope).2) (ok.minor (minor_childScope scope)) ..

theorem twin_afterPassThen (reason : ExitReason) (labels : List Text) {again again' : World → Running}
    (next : (again w).Twin c free Q (again' (w.recast c free))) :
    (w.afterPassThen s reason labels again).Twin c free Q
      ((w.recast c free).afterPassThen (Stack.recast free s) reason labels again') := by
  unfold World.afterPassThen
  cases afterPass reason labels with
  | none => exact next
  | some reason => exact .inl rfl

theorem twin_testWhile (loop : PlainLoop) :
    (w.testWhile s loop).Twin c free Q ((w.recast c free).testWhile (Stack.recast free s) loop) :=
  .inl rfl

theorem twin_testFor (ok : w.Recasts c free) (loop : CountingLoop) (scope : Nat) :
    (w.testFor s loop scope).Twin c free Q
      ((w.recast c free).testFor (Stack.recast free s) loop scope) := by
  unfold World.testFor
  split
  · exact twin_runPass (s := .forPass loop scope :: s) ok loop.body scope
  · exact .inl rfl

theorem twin_startFor (ok : w.Recasts c free) (loop : CountingLoop) (scope : Nat) :
    (w.startFor s loop scope).Twin c free Q
      ((w.recast c free).startFor (Stack.recast free s) loop scope) := by
  simp only [World.startFor, copyScope_recast]
  exact twin_testFor (ok.minor (minor_copyScope loop scope)) ..

theorem twin_stepFor (ok : w.Recasts c free) (loop : CountingLoop) (scope : Nat) :
    (w.stepFor s loop scope).Twin c free Q
      ((w.recast c free).stepFor (Stack.recast free s) loop scope) := by
  simp only [World.stepFor, copyScope_recast]
  split
  · exact twin_testFor (ok.minor (minor_copyScope loop scope)) ..
  · exact .inl rfl

theorem twin_runElement (ok : w.Recasts c free) (loop : ElementLoop) (value : Value) :
    (w.runElement s loop value).Twin c free Q
      ((w.recast c free).runElement (Stack.recast free s) loop value) :=
  twin_runPass (s := .forOfPass loop :: s)
    (ok.minor ((minor_childScope loop.scope).trans (minor_bind _ loop.name value))) ..

theorem twin_runFound (ok : w.Recasts c free) (loop : ElementLoop) (value? : Option Value) :
    (w.runFound s loop value?).Twin c free Q
      ((w.recast c free).runFound (Stack.recast free s) loop value?) := by
  cases value? with
  | none => exact .inl rfl
  | some value => exact twin_runElement ok _ value

theorem twin_nextElement (ok : w.Recasts c free) (loop : ElementLoop) :
    (w.nextElement s loop).Twin c free Q
      ((w.recast c free).nextElement (Stack.recast free s) loop) := by
  unfold World.nextElement
  cases loop.iterable with
  | array ref => exact twin_runFound ok ..
  | text t => exact twin_runFound ok ..
  | generator g => exact twin_resume (s := .forOfNext loop :: s) ok g .next .undefined
  | _ => exact twin_attempt fun _ => .inl rfl

theorem twin_startForOf (ok : w.Recasts c free) (node : Node) (scope : Nat) (labels : List Text)
    (iterable : Value) :
    (w.startForOf s node scope labels iterable).Twin c free Q
      ((w.recast c free).startForOf (Stack.recast free s) node scope labels iterable) := by
  unfold World.startForOf
  split
  · exact .inl rfl
  · exact twin_nextElement ok _

theorem twin_leaveForOf (ok : w.Recasts c free) (loop : ElementLoop) (reason : ExitReason) :
    (w.leaveForOf s loop reason).Twin c free Q
      ((w.recast c free).leaveForOf (Stack.recast free s) loop reason) := by
  unfold World.leaveForOf
  split
  · exact twin_resume (s := .forOfClose reason :: s) ok _ .return .undefined
  · exact .inl rfl

theorem twin_abandonForOf (ok : w.Recasts c free) (loop : ElementLoop) (failure : Failure) :
    (w.abandonForOf s loop failure).Twin c free Q
      ((w.recast c free).abandonForOf (Stack.recast free s) loop failure) := by
  unfold World.abandonForOf
  split
  · split
    · exact twin_resume (s := .forOfAbort failure :: s) ok _ .return .undefined
    · exact .inl rfl
  · exact .inl rfl

theorem twin_testClauses (subject : Value) (scope : Nat) (fallback : Option (List Node))
    (clauses : List Node) :
    (w.testClauses s subject scope fallback clauses).Twin c free Q
      ((w.recast c free).testClauses (Stack.recast free s) subject scope fallback clauses) := by
  induction clauses generalizing fallback with
  | nil => exact .inl rfl
  | cons clause rest ih =>
    simp only [World.testClauses]
    by_cases isDefault : clause.kind = .default
    · simp only [if_pos isDefault]
      exact ih _
    · simp only [if_neg isDefault]
      exact twin_evaluateChild (s := .switchTest subject clause rest fallback scope :: s) clause 0
        scope

theorem twin_runSwitch (ok : w.Recasts c free) (node : Node) (scope : Nat) (labels : List Text)
    (subject : Value) :
    (w.runSwitch s node scope labels subject).Twin c free Q
      ((w.recast c free).runSwitch (Stack.recast free s) node scope labels subject) := by
  unfold World.runSwitch
  exact twin_openFrame (w := (w.childScope scope).2) (s := .switchEnd labels :: s)
    (ok.minor (minor_childScope scope)) .switchBody node.span _ _ .normal
    fun w s _ => twin_testClauses (w := w) (s := s) subject _ none (node.children.drop 1)

/-! ### Attempts and statements -/

theorem twin_finish (finalizer : Node) (scope : Nat) (reason : ExitReason) :
    (w.finish s finalizer scope reason).Twin c free Q
      ((w.recast c free).finish (Stack.recast free s) finalizer scope reason) := by
  unfold World.finish
  split
  · exact twin_complete reason
  · exact .inl rfl

theorem twin_handle (handler finalizer : Node) (scope : Nat) (failure : Failure) :
    (w.handle s handler finalizer scope failure).Twin c free Q
      ((w.recast c free).handle (Stack.recast free s) handler finalizer scope failure) := by
  unfold World.handle
  split
  · exact twin_finish finalizer scope _
  · by_cases unbound : handler.value.isNull = true
    · simp only [if_pos unbound]
      exact twin_executeChild (w := (w.childScope scope).2) (s := .catchBody finalizer scope :: s)
        handler 0 _
    · simp only [if_neg unbound]
      exact twin_executeChild (w := World.bind { (w.childScope scope).2 with
        heap := ((w.childScope scope).2.heap.failureValue failure).2 } _ handler.name
        ((w.childScope scope).2.heap.failureValue failure).1)
        (s := .catchBody finalizer scope :: s) handler 0 _

theorem twin_executeTarget (ok : w.Recasts c free) (node : Node) (scope : Nat) (labels : List Text) :
    (w.executeTarget s node scope labels).Twin c free Q
      ((w.recast c free).executeTarget (Stack.recast free s) node scope labels) := by
  unfold World.executeTarget
  split
  · exact twin_testWhile _
  · exact twin_runPass (s := .doPass _ :: s) ok _ scope
  · have ok' : (w.childScope scope).2.Recasts c free := ok.minor (minor_childScope scope)
    dsimp only
    split
    · exact twin_startFor (w := (w.childScope scope).2) ok' ..
    · exact .inl rfl
  · exact twin_evaluateChild (s := .forOfSubject node scope labels :: s) node 0 scope
  · exact twin_evaluateChild (s := .switchSubject node scope labels :: s) node 0 scope
  · exact .inl rfl

theorem twin_executeLabeled (ok : w.Recasts c free) (node : Node) (scope : Nat) :
    (w.executeLabeled s node scope).Twin c free Q
      ((w.recast c free).executeLabeled (Stack.recast free s) node scope) := by
  refine twin_attempt fun x => ?_
  obtain ⟨labels, target⟩ := x
  dsimp only
  split
  · exact twin_executeTarget (s := .labeled labels :: s) ok target scope (labels.filterMap id)
  · exact .inl rfl

theorem twin_executeCompound (ok : w.Recasts c free) (node : Node) (scope : Nat) :
    (w.executeCompound s node scope).Twin c free Q
      ((w.recast c free).executeCompound (Stack.recast free s) node scope) := by
  unfold World.executeCompound
  split
  · exact twin_evaluateChild (s := .expressionStatement :: s) node 0 scope
  · exact twin_executeDeclaration node scope
  · exact twin_enterFrame (w := (w.childScope scope).2) (ok.minor (minor_childScope scope)) ..
  · exact twin_evaluateChild (s := .ifCondition node scope :: s) node 0 scope
  · split <;> exact .inl rfl
  · exact twin_evaluateChild (s := .throwValue :: s) node 0 scope
  · split <;> exact .inl rfl
  · exact twin_executeLabeled ok node scope
  · exact twin_executeTarget ok node scope []

theorem twin_execute (ok : w.Recasts c free) (node : Node) (scope : Nat)
    (sync : free (w.scopes.activation scope) = true → node.kind = .defer → node.isAsync = false) :
    (w.execute s node scope).Twin c free Q
      ((w.recast c free).execute (Stack.recast free s) node scope) := by
  obtain ⟨w', hw'⟩ : ∃ w', w' = { w with
    stats := { w.stats with statements := w.stats.statements + 1 } } := ⟨_, rfl⟩
  have ok' : w'.Recasts c free := hw' ▸ ok.minor (minor_stats _)
  have hrecast : { w.recast c free with stats := { (w.recast c free).stats with
      statements := (w.recast c free).stats.statements + 1 } } = w'.recast c free := by
    rw [hw']
    rfl
  have hscopes : w'.scopes = w.scopes := by rw [hw']
  unfold World.execute
  rw [hrecast, ← hw']
  split
  · exact .inl rfl
  · exact .inl rfl
  · exact .inl rfl
  · exact .inl rfl
  · rename_i isDefer
    exact twin_perform (register_recast ok' node scope fun h => sync (hscopes ▸ h) isDefer) fun _ => .inl rfl
  · split
    · exact twin_executeCompound (s := .statementEnd :: s) ok' node scope
    · exact .inl rfl

/-! ### Expressions -/

theorem twin_template (before : List Text) (rest : List Node) (scope : Nat) :
    (w.template s before rest scope).Twin c free Q
      ((w.recast c free).template (Stack.recast free s) before rest scope) := by
  cases rest <;> exact .inl rfl

theorem twin_arguments (ok : w.Recasts c free) (callee : Callee) (before : List Value) (rest : List Node)
    (scope : Nat) (refused : rest = [] → (∃ closure, callee.function = .function closure) → w.Narrow c → Q) :
    (w.arguments s callee before rest scope).Twin c free Q
      ((w.recast c free).arguments (Stack.recast free s) callee before rest scope) := by
  cases rest with
  | nil => exact twin_call ok callee before.reverse (refused rfl)
  | cons a rest => exact .inl rfl

theorem twin_newArguments (ok : w.Recasts c free) (constructor : Value) (before : List Value)
    (rest : List Node) (scope : Nat) :
    (w.newArguments s constructor before rest scope).Twin c free Q
      ((w.recast c free).newArguments (Stack.recast free s) constructor before rest scope) := by
  cases rest with
  | nil => exact twin_construct ok constructor before.reverse
  | cons a rest => exact .inl rfl

theorem twin_elements (before : List Value) (rest : List Node) (scope : Nat) :
    (w.elements s before rest scope).Twin c free Q
      ((w.recast c free).elements (Stack.recast free s) before rest scope) := by
  cases rest <;> exact .inl rfl

theorem twin_properties (ref : Nat) (rest : List Node) (scope : Nat) :
    (w.properties s ref rest scope).Twin c free Q
      ((w.recast c free).properties (Stack.recast free s) ref rest scope) := by
  cases rest with
  | nil => exact .inl rfl
  | cons p rest =>
    exact twin_evaluateChild (s := .objectProperty ref p.name rest scope :: s) p 0 scope

theorem twin_sequence (rest : List Node) (scope : Nat) (value : Value) :
    (w.sequence s rest scope value).Twin c free Q
      ((w.recast c free).sequence (Stack.recast free s) rest scope value) := by
  cases rest <;> exact .inl rfl

theorem twin_store (place : Place) (value result : Value) :
    (w.store s place value result).Twin c free Q
      ((w.recast c free).store (Stack.recast free s) place value result) :=
  twin_perform (writePlace_recast place value) fun _ => .inl rfl

theorem twin_update (place : Place) (op : Text) (isLeading : Bool) :
    (w.update s place op isLeading).Twin c free Q
      ((w.recast c free).update (Stack.recast free s) place op isLeading) := by
  refine twin_perform (readPlace_recast place) fun v => ?_
  exact twin_attempt fun after => twin_store place after _

theorem twin_assignTo (place : Place) (op : Option Text) (right : Node) (scope : Nat) :
    (w.assignTo s place op right scope).Twin c free Q
      ((w.recast c free).assignTo (Stack.recast free s) place op right scope) := by
  unfold World.assignTo
  dsimp only
  split
  · exact .inl rfl
  · refine twin_perform (readPlace_recast place) fun current => ?_
    cases op.bind fun op => keepsCurrent? op current with
    | none => exact .inl rfl
    | some keeps =>
      refine twin_attempt fun keeps => ?_
      cases keeps <;> exact .inl rfl

theorem twin_assignCombined (place : Place) (op : Option Text) (current operand : Value) :
    (w.assignCombined s place op current operand).Twin c free Q
      ((w.recast c free).assignCombined (Stack.recast free s) place op current operand) := by
  cases op with
  | none => exact .inl rfl
  | some op => exact twin_attempt fun v => twin_store place v v

theorem twin_usePlace (place : Place) (use : PlaceUse) :
    (w.usePlace s place use).Twin c free Q
      ((w.recast c free).usePlace (Stack.recast free s) place use) := by
  cases use with
  | update op isLeading => exact twin_update place op isLeading
  | assign op right scope => exact twin_assignTo place op right scope

theorem twin_findPlace (target : Node) (scope : Nat) (use : PlaceUse) :
    (w.findPlace s target scope use).Twin c free Q
      ((w.recast c free).findPlace (Stack.recast free s) target scope use) := by
  unfold World.findPlace
  split
  · exact twin_usePlace _ use
  · exact twin_evaluateChild (s := .placeObject target scope use :: s) target 0 scope

theorem twin_findPlaceIn (object : Value) (target : Node) (scope : Nat) (use : PlaceUse) :
    (w.findPlaceIn s object target scope use).Twin c free Q
      ((w.recast c free).findPlaceIn (Stack.recast free s) object target scope use) := by
  unfold World.findPlaceIn
  split
  · exact twin_usePlace (w := (w.memberKey target).2) _ use
  · exact twin_evaluateChild (s := .placeKey object use :: s) target 1 scope

theorem twin_callMethod (ok : w.Recasts c free) (object key : Value) (rest : List Node) (scope : Nat)
    (refused : rest = [] → (∃ closure, w.method? object key = some (.function closure)) → w.Narrow c → Q) :
    (w.callMethod s object key rest scope).Twin c free Q
      ((w.recast c free).callMethod (Stack.recast free s) object key rest scope) := by
  have hminor := minor_getProperty (w := w) object key
  unfold World.callMethod
  rw [getProperty_recast]
  unfold World.method? at refused
  generalize w.getProperty object key = found at hminor refused ⊢
  obtain ⟨result, w'⟩ := found
  have narrow : w'.Narrow c → w.Narrow c := by
    unfold World.Narrow
    rw [hminor.config, hminor.depth]
    exact id
  cases result with
  | error failure => exact .inl rfl
  | ok function =>
    have hheap : (w'.recast c free).heap = w'.heap := rfl
    simp only [Change.recast, World.perform, World.attempt, hheap]
    cases text : w'.heap.text key with
    | error failure => exact .inl rfl
    | ok name =>
      refine twin_arguments (ok.minor hminor) { function, name } [] rest scope fun last calls deep => ?_
      exact refused last (calls.imp fun _ e => by simp [text, Except.isOk, Except.toBool, ← e]) (narrow deep)

theorem twin_findCallee (callee : Node) (rest : List Node) (scope : Nat) :
    (w.findCallee s callee rest scope).Twin c free Q
      ((w.recast c free).findCallee (Stack.recast free s) callee rest scope) := by
  unfold World.findCallee
  split
  · exact twin_evaluateChild (s := .calleeObject callee rest scope :: s) callee 0 scope
  · exact twin_evaluateChild (s := .calleeObject callee rest scope :: s) callee 0 scope
  · exact .inl rfl

theorem twin_findMethod (ok : w.Recasts c free) (object : Value) (callee : Node) (rest : List Node)
    (scope : Nat) (refused : callee.kind = .member → rest = [] → (∃ closure,
      (w.memberKey callee).2.method? object (w.memberKey callee).1 = some (.function closure)) →
      w.Narrow c → Q) :
    (w.findMethod s object callee rest scope).Twin c free Q
      ((w.recast c free).findMethod (Stack.recast free s) object callee rest scope) := by
  unfold World.findMethod
  split
  · rename_i isMember
    exact twin_callMethod (w := (w.memberKey callee).2) (ok.minor (minor_memberKey callee)) _ _ _ _
      (refused isMember)
  · exact twin_evaluateChild (s := .calleeKey object rest scope :: s) callee 1 scope

theorem twin_read (object key : Value) :
    (w.read s object key).Twin c free Q
      ((w.recast c free).read (Stack.recast free s) object key) :=
  twin_perform (getProperty_recast object key) fun _ => .inl rfl

theorem twin_logical (op : Text) (left : Value) (right : Option Node) (scope : Nat) :
    (w.logical s op left right scope).Twin c free Q
      ((w.recast c free).logical (Stack.recast free s) op left right scope) := by
  refine twin_attempt fun decided => ?_
  cases decided with
  | true => exact .inl rfl
  | false => cases right <;> exact .inl rfl

theorem twin_unary (node : Node) (scope : Nat) :
    (w.unary s node scope).Twin c free Q
      ((w.recast c free).unary (Stack.recast free s) node scope) := by
  have hscopes : (w.recast c free).scopes = w.scopes := rfl
  unfold World.unary
  rw [hscopes]
  split
  · exact .inl rfl
  · split
    · exact .inl rfl
    · split <;> exact .inl rfl

theorem twin_evaluate (node : Node) (scope : Nat) :
    (w.evaluate s node scope).Twin c free Q
      ((w.recast c free).evaluate (Stack.recast free s) node scope) := by
  unfold World.evaluate
  split
  case h_1 => exact .inl rfl
  case h_2 => exact twin_attempt fun _ => .inl rfl
  case h_3 => exact twin_perform (makeFunction_recast node scope) fun _ => .inl rfl
  case h_4 => exact twin_template [] node.children scope
  case h_5 => split <;> exact .inl rfl
  case h_6 =>
    exact twin_evaluateChild (s := .logicalLeft node.name node.children[1]? scope :: s) node 0 scope
  case h_7 => exact twin_unary node scope
  case h_8 =>
    split
    · exact twin_findPlace _ scope _
    · exact .inl rfl
  case h_9 =>
    split
    · exact twin_findPlace _ scope _
    · exact .inl rfl
  case h_10 =>
    split
    · exact twin_findCallee _ _ scope
    · exact .inl rfl
  case h_11 =>
    exact twin_evaluateChild (w := (w.memberKey node).2) (s := .memberObject _ :: s) node 0 scope
  case h_12 => exact twin_evaluateChild (s := .indexObject node.children[1]? scope :: s) node 0 scope
  case h_13 => exact twin_elements [] node.children scope
  case h_14 => exact twin_properties (w := { w with heap := (w.heap.newObject {}).2 }) _ node.children scope
  case h_15 => split <;> exact .inl rfl
  case h_16 => exact twin_evaluateChild (s := .awaitOperand :: s) node 0 scope
  case h_17 => split <;> exact .inl rfl
  case h_18 => exact twin_evaluateChild (s := .conditionalTest node scope :: s) node 0 scope
  case h_19 => exact twin_sequence node.children scope .undefined
  case h_20 => exact .inl rfl

/-! ### Suspensions -/

theorem twin_refuse (request : Request) (cause : Text → EvaluatorError) :
    (w.refuse s request cause).Twin c free Q
      ((w.recast c free).refuse (Stack.recast free s) request cause) := by
  have htext : (w.recast c free).requestText request = w.requestText request := by
    cases request <;> rfl
  unfold World.refuse
  rw [htext]
  exact twin_attempt fun _ => .inl rfl

theorem twin_await (value : Value) :
    (w.await s value).Twin c free Q ((w.recast c free).await (Stack.recast free s) value) := by
  have hloop : (w.recast c free).loop = w.loop.recoded (Stack.recast free) := rfl
  have hgiveWay (outcome : Outcome) := w.loop.giveWay_recoded (Stack.recast free) w.current
    (.settling :: s) outcome
  have hcurrent : (w.recast c free).current = w.current := rfl
  unfold World.await
  cases value with
  | promise p =>
    dsimp only
    rw [hloop, Loop.outcome?_recoded, hcurrent]
    cases w.loop.outcome? p with
    | some outcome => cases outcome <;> exact .inl rfl
    | none =>
      refine .inl ?_
      by_cases own : p = w.current
      · simp only [if_pos own]
        exact congrArg (fun loop => (⟨{ w.recast c free with observed := p :: w.observed, loop := loop },
          .parked, []⟩ : Running)) (hgiveWay _)
      · simp only [if_neg own]
        exact congrArg (fun loop => (⟨{ w.recast c free with observed := p :: w.observed, loop := loop },
          .parked, []⟩ : Running)) (w.loop.park_recoded (Stack.recast free) w.current (.settling :: s) p)
  | _ =>
    exact .inl (congrArg (fun loop => (⟨{ w.recast c free with loop := loop }, .parked, []⟩ : Running))
      (hgiveWay _))

theorem twin_serve (ok : w.Recasts c free) (request : Request) :
    (w.serve s request).Twin c free Q
      ((w.recast c free).serve (Stack.recast free s) request) := by
  cases request with
  | await value => exact twin_await value
  | drain a handle reason => exact twin_drain (s := .settling :: s) ok a handle .async reason
  | yield value =>
    simp only [World.serve, Stack.belowDrive_recast]
    exact twin_refuse _ _

theorem twin_suspend (ok : w.Recasts c free) (request : Request) :
    (w.suspend s request).Twin c free Q
      ((w.recast c free).suspend (Stack.recast free s) request) := by
  have hserve := twin_serve (Q := Q) (s := s) ok request
  unfold World.suspend
  rw [Stack.fromBoundary_recast, Stack.segment_recast]
  cases s.fromBoundary with
  | nil => exact hserve
  | cons f rest =>
    cases f with
    | syncBoundary => exact twin_refuse ..
    | generatorBoundary g =>
      have hset (state : GeneratorState) :
          (w.recast c free).setGenerator g (state.recast free) = (w.setGenerator g state).recast c free :=
        setGenerator_recast g state
      have hdone := hset .done
      have hkept := hset (.suspended s.segment)
      simp only [GeneratorState.recast] at hdone hkept
      cases request with
      | yield value => exact .inl (congrArg (fun w => (⟨w, .resumed value false, _⟩ : Running)) hkept)
      | _ =>
        simp only [Stack.recast, List.map_cons, Frame.recast, hdone]
        exact twin_refuse ..
    | asyncStart =>
      have hspawn := spawn_recast c free w
        (fun task => .taskStart request :: s.segment ++ [.asyncDrive, .taskEnd task])
        (fun task => .taskStart request :: Stack.recast free s.segment ++ [.asyncDrive, .taskEnd task])
        fun task => (Stack.recast_append free (.taskStart request :: s.segment) [.asyncDrive, .taskEnd task]).symm
      exact .inl (congrArg (fun x : Nat × World => (⟨x.2, .value (.promise x.1), _⟩ : Running)) hspawn)
    | _ => exact hserve

/-! ### Outcomes -/

theorem twin_settle (p : Nat) (outcome : Outcome) :
    Running.Twin c free Q ⟨{ w with loop := w.loop.settle p outcome }, .parked, []⟩
      ⟨{ w.recast c free with loop := (w.recast c free).loop.settle p outcome }, .parked, []⟩ :=
  .inl (congrArg (fun loop => (⟨{ w.recast c free with loop := loop }, .parked, []⟩ : Running))
    (w.loop.settle_recoded (Stack.recast free) p outcome))

theorem twin_settledPromise (outcome : Outcome) :
    Running.Twin c free Q ⟨(w.settledPromise outcome).2, .value (.promise (w.settledPromise outcome).1), s⟩
      ⟨((w.recast c free).settledPromise outcome).2,
        .value (.promise ((w.recast c free).settledPromise outcome).1), Stack.recast free s⟩ := by
  rw [settledPromise_recast]
  exact .inl rfl

theorem twin_onValue (ok : w.Recasts c free) (v : Value) (f : Frame)
    (refused : Running.CallsFunction ⟨w, .value v, f :: s⟩ → w.Narrow c → Q) :
    (w.onValue s v f).Twin c free Q
      ((w.recast c free).onValue (Stack.recast free s) v (f.recast free)) := by
  cases f with
  | declare kind name rest scope target =>
    simp only [Frame.recast, World.onValue, define_recast]
    exact twin_declare ..
  | ifCondition node scope =>
    refine twin_branch v (twin_executeChild node 1 scope) ?_
    split <;> exact .inl rfl
  | whileCondition loop =>
    exact twin_branch v (twin_runPass (s := .whilePass loop :: s) ok loop.body loop.scope) (.inl rfl)
  | doCondition loop =>
    exact twin_branch v (twin_runPass (s := .doPass loop :: s) ok loop.body loop.scope) (.inl rfl)
  | forCondition loop scope =>
    exact twin_branch v (twin_runPass (s := .forPass loop scope :: s) ok loop.body scope) (.inl rfl)
  | forStep loop scope => exact twin_testFor ok loop scope
  | forOfSubject node scope labels => exact twin_startForOf ok node scope labels v
  | switchSubject node scope labels => exact twin_runSwitch ok node scope labels v
  | switchTest subject clause rest fallback scope =>
    simp only [Frame.recast, World.onValue]
    split
    · exact .inl rfl
    · exact twin_testClauses ..
  | templatePart before rest scope => exact twin_attempt fun t => twin_template _ rest scope
  | binaryLeft op right scope => exact twin_evaluateOperand right scope rfl
  | binaryRight op left => exact twin_give (w.heap.binary op left v)
  | logicalLeft op right scope => exact twin_logical op v right scope
  | unaryOperand op => exact twin_give (w.heap.unary op v)
  | placeObject target scope use => exact twin_findPlaceIn v target scope use
  | placeKey object use => exact twin_usePlace _ use
  | assignValue place => exact twin_store place v v
  | assignCombined place op current => exact twin_assignCombined place op current v
  | calleeObject callee rest scope =>
    refine twin_findMethod ok v callee rest scope fun isMember last calls => refused ?_
    subst last
    exact calls.imp fun _ e => (if_pos isMember).trans e
  | calleeKey object rest scope =>
    refine twin_callMethod ok object v rest scope fun last calls => refused ?_
    subst last
    exact calls
  | calleeValue name rest scope =>
    refine twin_arguments ok _ [] rest scope fun last calls => refused ?_
    subst last
    exact calls.imp fun _ e => congrArg some e
  | argument callee before rest scope =>
    refine twin_arguments ok callee (v :: before) rest scope fun last calls => refused ?_
    subst last
    exact calls.imp fun _ e => congrArg some e
  | newCallee rest scope => exact twin_newArguments ok v [] rest scope
  | newArgument callee before rest scope => exact twin_newArguments ok callee (v :: before) rest scope
  | memberObject key => exact twin_read v key
  | indexObject key scope => exact twin_evaluateOperand key scope rfl
  | indexKey object => exact twin_read object v
  | arrayElement before rest scope => exact twin_elements (v :: before) rest scope
  | objectProperty ref key rest scope =>
    exact twin_properties (w := { w with heap := w.heap.setProperty ref key v }) ref rest scope
  | conditionalTest node scope =>
    exact twin_branch v (twin_evaluateChild node 1 scope) (twin_evaluateChild node 2 scope)
  | sequenceElement rest scope => exact twin_sequence rest scope v
  | parameter closure name rest arguments scope =>
    exact twin_bindParameters (w := w.bind scope name v) (ok.minor (minor_bind ..)) ..
  | asyncStart => exact twin_settledPromise (.ok v)
  | generatorBoundary g =>
    exact .inl (congrArg (fun w => (⟨w, .resumed v true, _⟩ : Running)) (setGenerator_recast g .done))
  | taskStart request => exact twin_serve ok request
  | nap seconds =>
    exact .inl (congrArg (fun loop => (⟨{ w.recast c free with loop := loop }, .parked, []⟩ : Running))
      (w.loop.rest_recoded (Stack.recast free) w.current s seconds))
  | taskEnd p => exact twin_settle p (.ok v)
  | _ => exact .inl rfl

theorem twin_onComplete (ok : w.Recasts c free) (reason : ExitReason) (f : Frame) :
    (w.onComplete s reason f).Twin c free Q
      ((w.recast c free).onComplete (Stack.recast free s) reason (f.recast free)) := by
  cases f with
  | statements rest scope =>
    simp only [Frame.recast, World.onComplete]
    split
    · exact .inl rfl
    · cases rest <;> exact .inl rfl
  | scopeBody a handle atEnd => exact twin_leaveBody ok a handle _
  | scopeEnd => exact twin_complete reason
  | draining a d => exact twin_settleAction ok a d none
  | whilePass loop =>
    simp only [Frame.recast, World.onComplete]
    exact twin_afterPassThen reason loop.labels (twin_testWhile loop)
  | doPass loop =>
    simp only [Frame.recast, World.onComplete]
    exact twin_afterPassThen reason loop.labels (.inl rfl)
  | forStart loop scope =>
    simp only [Frame.recast, World.onComplete]
    split
    · exact .inl rfl
    · exact twin_startFor ok loop scope
  | forPass loop scope =>
    simp only [Frame.recast, World.onComplete]
    exact twin_afterPassThen reason loop.labels (twin_stepFor ok loop scope)
  | forOfPass loop =>
    simp only [Frame.recast, World.onComplete]
    split
    · exact twin_nextElement ok loop
    · exact twin_leaveForOf ok loop _
  | tryBody handler finalizer scope => exact twin_finish finalizer scope reason
  | catchBody finalizer scope => exact twin_finish finalizer scope reason
  | finallyBody completion =>
    simp only [Frame.recast, World.onComplete]
    split
    · exact .inl rfl
    · exact twin_complete completion
  | functionEnd => cases reason <;> exact .inl rfl
  | _ => exact .inl rfl

theorem twin_onResumed (ok : w.Recasts c free) (v : Value) (done : Bool) (f : Frame) :
    (w.onResumed s v done f).Twin c free Q
      ((w.recast c free).onResumed (Stack.recast free s) v done (f.recast free)) := by
  cases f with
  | forOfNext loop =>
    cases done with
    | true => exact .inl rfl
    | false => exact twin_runElement ok loop v
  | _ => exact .inl rfl

theorem twin_pass (failure : Failure) :
    (w.pass s failure).Twin c free Q ((w.recast c free).pass (Stack.recast free s) failure) :=
  .inl rfl

theorem twin_onRaise (ok : w.Recasts c free) (failure : Failure) (f : Frame) :
    (w.onRaise s failure f).Twin c free Q
      ((w.recast c free).onRaise (Stack.recast free s) failure (f.recast free)) := by
  cases f with
  | statementEnd =>
    simp only [Frame.recast, World.onRaise]
    split <;> exact .inl rfl
  | scopeBody a handle atEnd =>
    simp only [Frame.recast, World.onRaise]
    split
    · exact twin_leaveBody ok a handle _
    · split
      · exact twin_leaveBody ok a handle _
      · exact twin_pass failure
  | draining a d => exact twin_settleAction ok a d (some failure)
  | forOfPass loop => exact twin_abandonForOf ok loop failure
  | forOfAbort earlier =>
    simp only [Frame.recast, World.onRaise]
    split <;> exact twin_pass _
  | tryBody handler finalizer scope =>
    simp only [Frame.recast, World.onRaise]
    split
    · exact twin_handle handler finalizer scope failure
    · exact twin_pass failure
  | catchBody finalizer scope =>
    simp only [Frame.recast, World.onRaise]
    split
    · exact twin_finish finalizer scope _
    · exact twin_pass failure
  | asyncStart =>
    simp only [Frame.recast, World.onRaise]
    split
    · exact twin_settledPromise (.error failure)
    · exact twin_pass failure
  | generatorBoundary g =>
    exact .inl (congrArg (fun w => (⟨w, .raise failure, _⟩ : Running)) (setGenerator_recast g .done))
  | settling =>
    simp only [Frame.recast, World.onRaise]
    split
    · exact twin_pass failure
    · rw [Stack.belowDrive_recast]
      exact twin_pass failure
  | taskEnd p => exact twin_settle p (.error failure)
  | _ => exact .inl rfl

end Twin

/-! ### Steps -/

/-- The same end of a run under another configuration. -/
def RunEnd.recast (c : Config) (free : Nat → Bool) : RunEnd → RunEnd :=
  Except.map fun f => ⟨f.world.recast c free, f.uncaught?⟩

/-- The same step of running code under another configuration. -/
def Running.Step.recast (c : Config) (free : Nat → Bool) :
    Transition Running RunEnd → Transition Running RunEnd
  | .next s => .next (s.recast c free)
  | .halt result => .halt (result.recast c free)

section Step

variable {c : Config} {free : Nat → Bool} {w : World}

theorem isSettled_recast : (w.recast c free).isSettled = w.isSettled := by
  have hpending : ∀ p, (w.recast c free).loop.isPending p = w.loop.isPending p := fun p =>
    congrArg Option.isNone (w.loop.outcome?_recoded (Stack.recast free) p)
  simp only [World.isSettled, hpending]
  rfl

theorem rejections_recast : (w.recast c free).rejections = w.rejections := by
  have houtcome : ∀ p, (w.recast c free).loop.outcome? p = w.loop.outcome? p :=
    w.loop.outcome?_recoded (Stack.recast free)
  simp only [World.rejections, houtcome]
  rfl

theorem end?_recast (ok : w.Recasts c free) :
    (w.recast c free).end? = w.end?.map (RunEnd.recast c free) := by
  have hsettle : (w.recast c free).config.settleBackground = w.config.settleBackground := ok.settle
  have hending : (w.recast c free).ending? = w.ending? := rfl
  unfold World.end?
  rw [hsettle, hending, isSettled_recast]
  cases w.ending? with
  | none => rfl
  | some failure? =>
    cases failure? with
    | none => dsimp only; split <;> rfl
    | some failure =>
      dsimp only
      split
      · rfl
      · split <;> rfl

theorem continue_recast (ok : w.Recasts c free) :
    (w.recast c free).continue = Running.Step.recast c free w.continue := by
  have hnext : (w.recast c free).loop.next = w.loop.next.recoded (Stack.recast free) :=
    w.loop.next_recoded (Stack.recast free)
  unfold World.continue
  rw [end?_recast ok, hnext]
  cases w.end? with
  | some result => rfl
  | none => cases w.loop.next <;> rfl

/-- An action that the code is about to register is synchronous, if its activation is to be relaxed. -/
def Running.RegistersSync (free : Nat → Bool) (s : Running) : Prop :=
  ∀ node scope, s.control = .execute node scope → free (s.world.scopes.activation scope) = true →
    node.kind = .defer → node.isAsync = false

/-- A step of the twin is the twin of the step, unless only the twin may make a call. -/
theorem Running.step_recast {s : Running} (ok : s.world.Recasts c free) (sync : s.RegistersSync free)
    (accepted : ¬ (s.CallsFunction ∧ s.world.Narrow c)) :
    (s.recast c free).step = Running.Step.recast c free s.step := by
  have hstep : ∀ {r r' : Running}, r.Twin c free (s.CallsFunction ∧ s.world.Narrow c) r' →
      Transition.next (ρ := RunEnd) r' = Running.Step.recast c free (.next r) := by
    intro r r' twin
    rcases twin with rfl | refused
    · rfl
    · exact absurd refused accepted
  obtain ⟨w, control, stack⟩ := s
  cases control with
  | execute node scope => exact hstep (twin_execute ok node scope (sync node scope rfl))
  | evaluate node scope => exact hstep (twin_evaluate node scope)
  | suspend request => exact hstep (twin_suspend ok request)
  | parked => exact continue_recast ok
  | value v =>
    cases stack with
    | nil => exact continue_recast ok
    | cons f stack => exact hstep (twin_onValue ok v f .intro)
  | complete reason =>
    cases stack with
    | nil => exact continue_recast ok
    | cons f stack => exact hstep (twin_onComplete ok reason f)
  | resumed v done =>
    cases stack with
    | nil => exact continue_recast ok
    | cons f stack => exact hstep (twin_onResumed ok v done f)
  | raise failure =>
    cases stack with
    | nil => exact continue_recast ok
    | cons f stack => exact hstep (twin_onRaise ok failure f)

end Step

/-! ### The start -/

section Start

variable {c c' : Config} {free : Nat → Bool}

theorem bindBuiltins_recast (w : World) (scope : Nat) :
    (w.recast c' free).bindBuiltins scope = (w.bindBuiltins scope).recast c' free := by
  unfold World.bindBuiltins
  generalize globalNames = names
  induction names generalizing w with
  | nil => rfl
  | cons entry names ih => exact ih ((w.method entry.2).2.bind scope entry.1 (w.method entry.2).1)

theorem initial_recast : World.initial c' = (World.initial c).recast c' free := by
  have hblank : ({ config := c', scopes := (Scopes.add {} { isFunction := true }).2 } : World) =
      World.recast c' free { config := c, scopes := (Scopes.add {} { isFunction := true }).2 } := by
    simp [World.recast, Loop.recoded]
  dsimp only [World.initial, Scopes.add] at hblank ⊢
  rw [hblank, bindBuiltins_recast]
  rfl

/-- The activation of the module is the first. -/
theorem newMain_recast {w : World} (activations : w.activations = #[]) (name : Text) (isAsync : Bool) :
    (w.recast c' free).newActivation name (isAsync || free 0) =
      ((w.newActivation name isAsync).1, (w.newActivation name isAsync).2.recast c' free) := by
  simp [World.newActivation, World.recast, activations, Activation.recast, Registry.relaxed]

/-- A program starts with its twin, if only its own activation is relaxed. -/
theorem start_recast (program : Node) (allow : c'.allowTopLevelAwait = (c.allowTopLevelAwait || free 0))
    (limit : c.maxCallDepth ≤ c'.maxCallDepth) (settle : c'.settleBackground = c.settleBackground)
    (trace : c'.recordTrace = c.recordTrace ∨ c'.recordTrace = false) (main : ∀ i, free i = true → i = 0) :
    Running.start c' program = (Running.start c program).recast c' free := by
  have hinitial := minor_initial c
  have htwin : World.initial c' = (World.initial c).recast c' free := initial_recast
  unfold Running.start
  rw [htwin, allow]
  generalize World.initial c = initial at hinitial
  obtain ⟨w₀, hw₀⟩ : ∃ w₀ : World, w₀ = { initial with
      loop := (initial.loop.add {}).2, current := (initial.loop.add {}).1 } := ⟨_, rfl⟩
  have hw₀' : { initial.recast c' free with
      loop := ((initial.recast c' free).loop.add {}).2
      current := ((initial.recast c' free).loop.add {}).1 } = w₀.recast c' free := by
    rw [hw₀]
    exact congrArg (fun x : Nat × Loop Stack =>
      { initial.recast c' free with loop := x.2, current := x.1 })
      (initial.loop.add_recoded (Stack.recast free) {})
  have hactivations : w₀.activations = #[] := by
    rw [hw₀]
    exact hinitial.activations
  have hmain : (w₀.recast c' free).newActivation mainName (c.allowTopLevelAwait || free 0) =
      ((w₀.newActivation mainName c.allowTopLevelAwait).1,
        (w₀.newActivation mainName c.allowTopLevelAwait).2.recast c' free) :=
    newMain_recast hactivations mainName c.allowTopLevelAwait
  obtain ⟨w, hw⟩ : ∃ w, w = (w₀.newActivation mainName c.allowTopLevelAwait).2 := ⟨_, rfl⟩
  have hconfig : w.config = c := by
    rw [hw, hw₀]
    exact hinitial.config
  have ok : w.Recasts c' free := by
    refine ⟨hconfig ▸ limit, hconfig ▸ settle, hconfig ▸ trace, fun i hi => ?_⟩
    rw [hw, main i hi]
    simp [World.newActivation]
  dsimp only
  rw [hw₀', hmain, ← hw₀, ← hw]
  exact Or.resolve_right (b := False)
    (twin_enterFrame (s := [.activationEnd _, .asyncDrive, .programEnd]) (ok.minor (minor_addScope _)) ..) id

end Start

/-! ### Two runs -/

/-- What two runs of a program come to at the same moment, if their tasks go on in the same order. -/
inductive Together (c c' : Config) (program : Node) : Running → Running → Prop
  | start : Together c c' program (.start c program.withIdentities) (.start c' program.withIdentities)
  | step {s t s' t' : Running} (before : Together c c' program s t) (next : s.step = .next s')
      (next' : t.step = .next t') : Together c c' program s' t'
  | reorder {w w' : World} {stack stack' : Stack} {loop : Loop Stack}
      (before : Together c c' program ⟨w, .parked, stack⟩ ⟨w', .parked, stack'⟩)
      (other : w.loop.Reorders loop)
      (other' : w'.loop.Reorders { loop with promises := w'.loop.promises }) :
      Together c c' program ⟨{ w with loop := loop }, .parked, stack⟩
        ⟨{ w' with loop := { loop with promises := w'.loop.promises } }, .parked, stack'⟩

/-- Two worlds show the same: what was printed, the bindings of the module and the objects that they refer
to, the failures that nobody has awaited, the records of the drains and the counts. -/
structure World.ShowsAlike (w w' : World) : Prop where
  output : w'.output = w.output
  bindings : w'.bindings = w.bindings
  heap : w'.heap = w.heap
  rejections : w'.rejections = w.rejections
  drains : w'.drains = w.drains
  stats : w'.stats = w.stats

/-- Two runs end alike: by the same failure of the host, or with the same uncaught error in worlds that
show the same. -/
inductive RunEnd.Alike : RunEnd → RunEnd → Prop
  | shown {f f' : Finished} (uncaught : f'.uncaught? = f.uncaught?) (shows : f.world.ShowsAlike f'.world) :
      Alike (.ok f) (.ok f')
  | failed (failure : Failure) : Alike (.error failure) (.error failure)

/-- Of two runs both go on, or both end alike. -/
inductive Running.Step.Alike : Transition Running RunEnd → Transition Running RunEnd → Prop
  | next (s s' : Running) : Alike (.next s) (.next s')
  | halt {result result' : RunEnd} (alike : result.Alike result') : Alike (.halt result) (.halt result')

/-- A program runs the same under two configurations: in whatever order the tasks of one run go on, those
of another run under the other configuration may go on so too; as long as they do, the two show the same
and end at the same moment and alike. -/
structure RunsAlike (c c' : Config) (program : Node) : Prop where
  forth : ∀ {L : Ledger} {s : Running}, Run c program L s →
    ∃ L' s', Run c' program L' s' ∧ Together c c' program s s'
  back : ∀ {L' : Ledger} {s' : Running}, Run c' program L' s' →
    ∃ L s, Run c program L s ∧ Together c c' program s s'
  shows : ∀ {s s' : Running}, Together c c' program s s' → s.world.ShowsAlike s'.world
  steps : ∀ {s s' : Running}, Together c c' program s s' → Running.Step.Alike s.step s'.step
  ends : (runToEnd c program).Alike (runToEnd c' program)

section Together

variable {c c' : Config} {free : Nat → Bool} {program : Node}

theorem showsAlike_recast {w : World} (trace : c'.recordTrace = w.config.recordTrace) :
    w.ShowsAlike (w.recast c' free) :=
  ⟨rfl, rfl, rfl, rejections_recast, if_pos trace, rfl⟩

theorem alike_recast {result : RunEnd}
    (trace : ∀ f, result = .ok f → c'.recordTrace = f.world.config.recordTrace) :
    result.Alike (result.recast c' free) := by
  cases result with
  | ok f => exact .shown rfl (showsAlike_recast (trace f rfl))
  | error failure => exact .failed failure

theorem world_of_end? {w : World} {f : Finished} (h : w.end? = some (.ok f)) : f.world = w := by
  unfold World.end? at h
  cases ending : w.ending? with
  | none =>
    rw [ending] at h
    contradiction
  | some failure? =>
    rw [ending] at h
    cases failure? with
    | none =>
      dsimp only at h
      split at h
      · contradiction
      · rw [← Except.ok.inj (Option.some.inj h)]
    | some failure =>
      dsimp only at h
      split at h
      · cases Option.some.inj h
      · split at h
        · contradiction
        · rw [← Except.ok.inj (Option.some.inj h)]

theorem world_of_continue {w : World} {f : Finished} (h : w.continue = .halt (.ok f)) :
    ∃ loop, f.world = { w with loop := loop } := by
  unfold World.continue at h
  cases ended : w.end? with
  | some result =>
    rw [ended] at h
    obtain rfl := Transition.halt.inj h
    exact ⟨w.loop, world_of_end? ended⟩
  | none =>
    rw [ended] at h
    dsimp only at h
    split at h
    · contradiction
    · contradiction
    · exact ⟨_, by rw [← Except.ok.inj (Transition.halt.inj h)]⟩

/-- A run ends in the world that it has come to; only its loop may have gone on. -/
theorem Running.world_of_halt {s : Running} {f : Finished} (h : s.step = .halt (.ok f)) :
    ∃ loop, f.world = { s.world with loop := loop } := by
  obtain ⟨w, control, stack⟩ := s
  cases control <;> first
    | contradiction
    | exact world_of_continue h
    | (cases stack with
      | nil => exact world_of_continue h
      | cons => contradiction)

theorem Running.config_of_halt {s : Running} {f : Finished} (h : s.step = .halt (.ok f)) :
    f.world.config = s.world.config := by
  obtain ⟨loop, e⟩ := s.world_of_halt h
  rw [e]

theorem Run.halted {n : Nat} {L : Ledger} {s : Running} {result : RunEnd} (run : Run c program L s)
    (h : Transition.run Running.step n s = .halted result) :
    ∃ L' t, Run c program L' t ∧ t.step = .halt result := by
  induction n generalizing L s with
  | zero => contradiction
  | succ n ih =>
    unfold Transition.run at h
    cases next : s.step with
    | halt result' =>
      rw [next] at h
      obtain rfl := RunResult.halted.inj h
      exact ⟨L, s, run, next⟩
    | next s' =>
      rw [next] at h
      exact ih (run.step next) h

/-- A run ends with the configuration that it has. -/
theorem config_of_runToEnd {f : Finished} (h : runToEnd c program = .ok f) : f.world.config = c := by
  unfold runToEnd at h
  cases reaches : Script.run c program with
  | exhausted t =>
    rw [reaches] at h
    obtain ⟨L, run⟩ := run_exhausted reaches
    rw [← Except.ok.inj h]
    exact run.config_eq
  | halted result =>
    rw [reaches] at h
    obtain ⟨L, t, run, halts⟩ := Run.start.halted reaches
    obtain rfl : result = .ok f := h
    rw [Running.config_of_halt halts, run.config_eq]

theorem reordered_recast {w : World} {loop : Loop Stack} (other : w.loop.Reorders loop) :
    { loop with promises := (w.recast c' free).loop.promises } = loop.recoded (Stack.recast free) := by
  have hpromises : (w.recast c' free).loop.promises = loop.promises.map (Promise.recoded (Stack.recast free)) :=
    congrArg (Array.map _) other.promises.symm
  rw [hpromises]
  rfl

theorem reorders_recast {w : World} {loop : Loop Stack} (other : w.loop.Reorders loop) :
    (w.recast c' free).loop.Reorders (loop.recoded (Stack.recast free)) :=
  ⟨congrArg (Array.map _) other.promises, other.queue, other.timers⟩

theorem reorders_of_recast {w : World} {loop' : Loop Stack} (other : (w.recast c' free).loop.Reorders loop') :
    ∃ loop, w.loop.Reorders loop ∧ loop' = { loop with promises := (w.recast c' free).loop.promises } :=
  ⟨{ loop' with promises := w.loop.promises }, ⟨rfl, other.queue, other.timers⟩, by rw [← other.promises]⟩

/-- The configurations make no difference to a run, wherever its tasks take it, but for the actions that
the activations in `free` might hold and the calls that may be refused. -/
structure Recastable (c c' : Config) (free : Nat → Bool) (program : Node) : Prop where
  start : Running.start c' program.withIdentities =
    (Running.start c program.withIdentities).recast c' free
  recasts : ∀ {L : Ledger} {s : Running}, Run c program L s → s.world.Recasts c' free
  sync : ∀ {L : Ledger} {s : Running}, Run c program L s → s.RegistersSync free

/-- The next step makes no call that is refused by the configuration of the run only. -/
def Running.Granted (c : Config) (s : Running) : Prop := ¬ (s.CallsFunction ∧ s.world.Narrow c)

namespace Recastable

variable (h : Recastable c c' free program)

include h

theorem step {L : Ledger} {s : Running} (run : Run c program L s) (granted : s.Granted c') :
    (s.recast c' free).step = Running.Step.recast c' free s.step :=
  Running.step_recast (h.recasts run) (h.sync run) granted

theorem next {L : Ledger} {s s' : Running} (run : Run c program L s) (granted : s.Granted c')
    (next : s.step = .next s') : (s.recast c' free).step = .next (s'.recast c' free) := by
  rw [h.step run granted, next]
  rfl

/-- If the twin goes on, the code does. -/
theorem next_back {L : Ledger} {s t' : Running} (run : Run c program L s) (granted : s.Granted c')
    (next' : (s.recast c' free).step = .next t') : ∃ s', s.step = .next s' ∧ t' = s'.recast c' free := by
  rw [h.step run granted] at next'
  cases next : s.step with
  | halt result =>
    rw [next] at next'
    contradiction
  | next s' =>
    rw [next] at next'
    exact ⟨s', rfl, (Transition.next.inj next').symm⟩

theorem steps_alike (trace : c'.recordTrace = c.recordTrace) {L : Ledger} {s : Running}
    (run : Run c program L s) (granted : s.Granted c') :
    Running.Step.Alike s.step (s.recast c' free).step := by
  rw [h.step run granted]
  cases next : s.step with
  | next s => exact .next s _
  | halt result =>
    refine .halt (alike_recast fun f e => ?_)
    rw [Running.config_of_halt (e ▸ next), run.config_eq]
    exact trace

/-- Any number of steps of the twin are those of the run, if no step of the run is refused a call. -/
theorem run_recast {n : Nat} {L : Ledger} {s : Running} (run : Run c program L s)
    (granted : ∀ k t, Transition.run Running.step k s = .exhausted t → t.Granted c') :
    Transition.run Running.step n (s.recast c' free) =
      match Transition.run Running.step n s with
      | .exhausted t => .exhausted (t.recast c' free)
      | .halted result => .halted (result.recast c' free) := by
  induction n generalizing L s with
  | zero => rfl
  | succ n ih =>
    unfold Transition.run
    rw [h.step run (granted 0 s rfl)]
    cases next : s.step with
    | halt result => rfl
    | next s' =>
      refine ih (run.step next) fun k t reaches => granted (k + 1) t ?_
      rw [Transition.run, next]
      exact reaches

/-- The run that takes its tasks in turn ends as its twin does. -/
theorem runToEnd_recast
    (granted : ∀ k t, Transition.run Running.step k (.start c program.withIdentities) = .exhausted t →
      t.Granted c') : runToEnd c' program = (runToEnd c program).recast c' free := by
  have hrun := h.run_recast (n := stepLimit) .start granted
  unfold runToEnd Script.run
  rw [h.start, hrun]
  cases Transition.run Running.step stepLimit (Running.start c program.withIdentities) <;> rfl

theorem ends_alike (trace : c'.recordTrace = c.recordTrace)
    (granted : ∀ k t, Transition.run Running.step k (.start c program.withIdentities) = .exhausted t →
      t.Granted c') : (runToEnd c program).Alike (runToEnd c' program) := by
  rw [h.runToEnd_recast granted]
  exact alike_recast fun f e => (config_of_runToEnd e) ▸ trace

variable (granted : ∀ {L : Ledger} {s : Running}, Run c program L s → s.Granted c')

include granted

/-- Of two runs that go on in the same order, the second comes to the twins of what the first comes to. -/
theorem eq_recast {s t : Running} (together : Together c c' program s t) :
    (∃ L, Run c program L s) ∧ t = s.recast c' free := by
  induction together with
  | start => exact ⟨⟨_, .start⟩, h.start⟩
  | @step s t s' t' _ next next' ih =>
    obtain ⟨⟨L, run⟩, rfl⟩ := ih
    exact ⟨⟨_, run.step next⟩, Transition.next.inj (next'.symm.trans (h.next run (granted run) next))⟩
  | @reorder w w' stack stack' loop _ other _ ih =>
    obtain ⟨⟨L, run⟩, twin⟩ := ih
    obtain ⟨rfl, -, rfl⟩ := Running.mk.inj twin
    refine ⟨⟨L, run.reorder other⟩, ?_⟩
    rw [reordered_recast other]
    rfl

theorem together {L : Ledger} {s : Running} (run : Run c program L s) :
    (∃ L', Run c' program L' (s.recast c' free)) ∧ Together c c' program s (s.recast c' free) := by
  induction run with
  | start =>
    rw [← h.start]
    exact ⟨⟨_, .start⟩, .start⟩
  | step before next ih =>
    obtain ⟨⟨L', run'⟩, together⟩ := ih
    have next' := h.next before (granted before) next
    exact ⟨⟨_, run'.step next'⟩, together.step next next'⟩
  | @reorder L w stack loop before other ih =>
    obtain ⟨⟨L', run'⟩, together⟩ := ih
    have run'' := run'.reorder (reorders_recast other)
    have together' := together.reorder other
    rw [reordered_recast other] at together'
    exact ⟨⟨L', run''⟩, together' (reorders_recast other)⟩

theorem back {L' : Ledger} {s' : Running} (run : Run c' program L' s') :
    ∃ L s, Run c program L s ∧ Together c c' program s s' := by
  induction run with
  | start => exact ⟨_, _, .start, .start⟩
  | @step L' t t' _ next' ih =>
    obtain ⟨L, s, run, together⟩ := ih
    obtain ⟨-, rfl⟩ := h.eq_recast granted together
    obtain ⟨s', next, rfl⟩ := h.next_back run (granted run) next'
    exact ⟨_, s', run.step next, together.step next next'⟩
  | @reorder L' w' stack' loop' _ other ih =>
    obtain ⟨L, s, run, together⟩ := ih
    obtain ⟨-, twin⟩ := h.eq_recast granted together
    obtain ⟨w, control, stack⟩ := s
    obtain ⟨rfl, rfl, rfl⟩ := Running.mk.inj twin
    obtain ⟨loop, reorders, rfl⟩ := reorders_of_recast other
    exact ⟨L, _, run.reorder reorders, together.reorder reorders other⟩

/-- **Main result.**  A program runs the same under two configurations that make no difference to it. -/
theorem runsAlike (trace : c'.recordTrace = c.recordTrace) : RunsAlike c c' program where
  forth run := by
    obtain ⟨⟨L', run'⟩, together⟩ := h.together granted run
    exact ⟨L', _, run', together⟩
  back := h.back granted
  shows together := by
    obtain ⟨⟨L, run⟩, rfl⟩ := h.eq_recast granted together
    exact showsAlike_recast (run.config_eq ▸ trace)
  steps together := by
    obtain ⟨⟨L, run⟩, rfl⟩ := h.eq_recast granted together
    exact h.steps_alike trace run (granted run)
  ends := h.ends_alike trace fun k t reaches => by
    have hrun := Run.observed c program k
    rw [observed, exhausted_observe reaches] at hrun
    exact granted hrun

end Recastable

end Together

end ScopeExit.Script
