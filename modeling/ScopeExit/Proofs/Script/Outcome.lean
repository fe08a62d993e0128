import ScopeExit.Proofs.Script.Suspension
/-!
Outcomes on their way down a stack.

Inside the code of an activation a frame takes an outcome and goes on with what fits below it; the frame
lemmas have one case for each frame that `Frame.Takes` knows.  The other frames open or end something: a
frame of the engine, an action, an activation, a call, a task.  What they do to the marks of the stack
they also do to the registries.  The step lemmas have one case for each constructor of `Spans`.
-/
namespace ScopeExit.Script

open World

section Frames

variable [Node.Strays] {L : Ledger} {loc : Nat → Host} {w : World} {stack : Stack} {Γ : Region} {f : Frame}
  {form form' : Form}

/-! ### Frames inside code -/

/-- The branches of a conditional statement are all children but the first. -/
theorem branch_statement {node condition : Node} {branches : List Node} {scope : Nat}
    (children : node.children = condition :: branches) (h : Statements w Γ branches scope) (i : Nat) :
    ∀ c, node.children[i + 1]? = some c → Γ.Statement c := by
  intro c hc
  rw [children, List.getElem?_cons_succ] at hc
  exact h.each c (List.mem_of_getElem? hc)

/-- A frame inside code takes a value. -/
theorem reached_valueFrame (takes : f.Takes w Γ .value form')
    (r : Ready L loc w stack (.code form' Γ) []) (v : Value) : Reached L (w.onValue stack v f) := by
  cases takes with
  | expressionStatement => exact .complete r rfl Γ.completes_normal
  | @declare kind name rest scope target h hs =>
    have hquiet := quiet_define (w := w) kind name target v
    exact reached_declare (r.quiet hquiet) h (hs.mono hquiet.ext)
  | @ifCondition node scope condition branches children h =>
    refine reached_branch r v (reached_executeChild r (branch_statement children h 0) h.scope) ?_
    split
    · rename_i alternative halternative
      exact .execute r (branch_statement children h 1 _ (child?_get halternative).1) h.scope
    · exact .complete r rfl Γ.completes_normal
  | returnValue free => exact .complete r rfl (Γ.completes_returning free v)
  | throwValue => exact .fail r (w.heap.clean_thrown v)
  | whileCondition h =>
    exact reached_branch r v (reached_runPass (r.push (.whilePass h)) h.body h.scope)
      (.complete r rfl Γ.completes_normal)
  | doCondition h =>
    exact reached_branch r v (reached_runPass (r.push (.doPass h)) h.body h.scope)
      (.complete r rfl Γ.completes_normal)
  | forCondition h hs =>
    exact reached_branch r v (reached_runPass (r.push (.forPass h hs)) h.body hs)
      (.complete r rfl Γ.completes_normal)
  | forStep h hs => exact reached_testFor r h hs
  | forOfSubject children h hs => exact reached_startForOf r children h hs v
  | switchSubject children h hs => exact reached_runSwitch r children h hs _ v
  | switchTest h hf hs =>
    simp only [World.onValue]
    split
    · exact .complete (r.push (.statements ⟨clauses_statements h, hs⟩)) rfl Γ.completes_normal
    · exact reached_testClauses r _ hs hf fun c hc => h c (List.mem_cons_of_mem _ hc)
  | templatePart h => exact .attempt (w.heap.mild_text v) r fun t => reached_template r _ h
  | binaryLeft h => exact reached_evaluateOperand r h .binaryRight
  | binaryRight => exact reached_give r (Heap.mild_binary _ _ _ _)
  | logicalLeft h => exact reached_logical r _ v h
  | unaryOperand => exact reached_give r (Heap.mild_unary _ _ _)
  | placeObject h hs hu => exact reached_findPlaceIn r v h hs hu
  | placeKey hu => exact reached_usePlace r _ hu
  | assignValue => exact reached_store r _ v v
  | assignCombined => exact reached_assignCombined r _ _ _ v
  | calleeObject hc h => exact reached_findMethod r v hc h
  | calleeKey h => exact reached_callMethod r _ v h
  | calleeValue h => exact reached_arguments r _ [] h
  | argument h => exact reached_arguments r _ _ h
  | newCallee h => exact reached_newArguments r v [] h
  | newArgument h => exact reached_newArguments r _ _ h
  | memberObject => exact reached_read r v _
  | indexObject h => exact reached_evaluateOperand r h .indexKey
  | indexKey => exact reached_read r _ v
  | arrayElement h => exact reached_elements r _ h
  | @objectProperty ref key rest scope h hs =>
    have hquiet : Quiet w { w with heap := w.heap.setProperty ref key v } := quiet_heap rfl
    exact reached_properties (r.quiet hquiet) ref h (hs.mono hquiet.ext)
  | awaitOperand async => exact .of_good (.await r async) fun _ _ => rfl
  | yieldOperand generator => exact .of_good (.yield r generator) fun _ _ => rfl
  | conditionalTest h =>
    exact reached_branch r v (reached_evaluateChild r (getElem?_of_forall h.each 1) h.scope)
      (reached_evaluateChild r (getElem?_of_forall h.each 2) h.scope)
  | sequenceElement h => exact reached_sequence r h v
  | @parameter closure name rest arguments scope region known h =>
    have hquiet := quiet_bind (w := w) scope name v
    refine reached_bindParameters (r.quiet hquiet) ?_ (h.mono hquiet.ext)
    rw [hquiet.ext.kept closure known]
    exact region

/-- A frame inside code takes a completion. -/
theorem reached_completionFrame (takes : f.Takes w Γ .completion form')
    (r : Ready L loc w stack (.code form' Γ) []) {reason : ExitReason}
    (completes : (Γ.above f).Completes reason) : Reached L (w.onComplete stack reason f) := by
  cases takes with
  | statementEnd => exact .complete r rfl completes
  | @statements rest scope h =>
    simp only [World.onComplete]
    split
    · exact .complete r rfl completes
    · cases rest with
      | nil => exact .complete r rfl Γ.completes_normal
      | cons s rest =>
        have hrest : ∀ n ∈ rest, Γ.Statement n := fun n hn => h.each n (List.mem_cons_of_mem _ hn)
        exact .execute (r.push (.statements ⟨hrest, h.scope⟩)) (h.each s (by simp)) h.scope
  | scopeEnd => exact reached_complete r completes
  | labeled => exact .complete r rfl (Region.Completes.afterLabeled completes)
  | whilePass h => exact reached_afterPassThen r completes (reached_testWhile r h)
  | doPass h =>
    exact reached_afterPassThen r completes (.evaluate (r.push (.doCondition h)) h.condition h.scope)
  | forStart h hs =>
    simp only [World.onComplete]
    split
    · exact .complete r rfl completes
    · exact reached_startFor r h hs
  | forPass h hs => exact reached_afterPassThen r completes (reached_stepFor r h hs)
  | forOfPass h =>
    simp only [World.onComplete]
    split
    · exact reached_nextElement r h
    · rename_i reason' e
      exact reached_leaveForOf r _ (Region.Completes.afterPass completes e)
  | switchEnd => exact .complete r rfl (Region.Completes.afterSwitch completes _)
  | tryBody _ hf hs => exact reached_finish r hf hs completes
  | catchBody hf hs => exact reached_finish r hf hs completes
  | finallyBody hc =>
    simp only [World.onComplete]
    split
    · exact .complete r rfl completes
    · exact reached_complete r hc
  | functionEnd =>
    simp only [World.onComplete]
    split
    · exact .value r rfl _
    · exact .value r rfl _

/-- A frame inside code takes the step of a generator. -/
theorem reached_stepFrame (takes : f.Takes w Γ .step form')
    (r : Ready L loc w stack (.code form' Γ) []) (v : Value) (done : Bool) :
    Reached L (w.onResumed stack v done f) := by
  cases takes with
  | forOfNext h =>
    simp only [World.onResumed]
    split
    · exact .complete r rfl Γ.completes_normal
    · exact reached_runElement r h v
  | forOfClose hc => exact .complete r rfl hc
  | forOfAbort hf => exact .fail r hf
  | iterationResult =>
    have hquiet : Quiet w { w with heap :=
        (w.heap.newObject { properties := [("value", v), ("done", .bool done)] }).2 } :=
      quiet_heap rfl
    exact .value (r.quiet hquiet) rfl _

/-- What is passed on inside code. -/
theorem reached_pass {failure : Failure} (r : Ready L loc w stack (.code form' Γ) [])
    (passes : (Port.code form (Γ.above f)).Passes failure) : Reached L (w.pass stack failure) := by
  rw [Port.Passes, Region.above_permits] at passes
  exact .raise r passes

/-- The code of a generator may be asked to return, and it may return. -/
theorem Ready.untargeted {above : List Mark} (r : Ready L loc w stack (.code form Γ) above)
    (generator : Γ.context.isGenerator = true) : Γ.targets = none := by
  obtain ⟨marks, spans, -⟩ := r.path
  exact spans.untargeted generator

/-- A frame inside code takes a failure, or passes it on. -/
theorem reached_failureFrame (takes : f.Takes w Γ form form')
    (r : Ready L loc w stack (.code form' Γ) []) {failure : Failure}
    (passes : (Port.code form (Γ.above f)).Passes failure) : Reached L (w.onRaise stack failure f) := by
  have pass : Reached L (w.pass stack failure) := reached_pass r passes
  cases takes with
  | statementEnd =>
    simp only [World.onRaise]
    split
    · rename_i v
      rcases passes with clean | ⟨permits, -⟩
      · exact absurd rfl (clean.ne_forcedReturn v)
      · exact .complete r rfl (Γ.completes_returning (r.untargeted (Region.isGenerator_of_permits permits)) v)
    · exact pass
  | forOfPass => exact reached_abandonForOf r _ passes
  | forOfAbort hf =>
    simp only [World.onRaise]
    split
    · exact .fail r hf
    · exact pass
  | tryBody hh hf hs =>
    simp only [World.onRaise]
    split
    · rename_i he
      exact reached_handle r hh hf hs (passes.clean he)
    · exact pass
  | catchBody hf hs =>
    simp only [World.onRaise]
    split
    · rename_i he
      exact reached_finish r hf hs (Γ.completes_throwing (passes.clean he))
    · exact pass
  | _ => exact pass

end Frames

/-! ### The ledger and the ends of activations -/

section Ends

variable {w : World} {stack : Stack} {Γ : Region} {f : Frame} {form form' : Form}

/-- An outcome that is no end of an activation is not written down. -/
theorem Ledger.after_outcome (L : Ledger) {c : Control} (plain : ∀ n scope, c ≠ .execute n scope)
    (h : ∀ a, f ≠ .activationEnd a) : L.after ⟨w, c, f :: stack⟩ = L := by
  refine L.after_eq (fun a id => ?_) ?_
  · cases c with
    | execute n scope => exact absurd rfl (plain n scope)
    | _ => rfl
  · cases f with
    | activationEnd a => exact absurd rfl (h a)
    | _ => cases c <;> rfl

theorem Frame.Takes.ne_activationEnd [Node.Strays] (takes : f.Takes w Γ form form') (a : Nat) :
    f ≠ .activationEnd a := by
  rintro rfl
  cases takes

/-- The end of an activation is written down, whatever the outcome. -/
theorem Ledger.after_end (L : Ledger) {c : Control} (plain : ∀ n scope, c ≠ .execute n scope) {a : Nat}
    (ends : Running.ends? ⟨w, c, .activationEnd a :: stack⟩ = some a) :
    L.after ⟨w, c, .activationEnd a :: stack⟩ = L.finish a := by
  have hregisters : ∀ b id, Running.registers? ⟨w, c, .activationEnd a :: stack⟩ b id = none := by
    intro b id
    cases c with
    | execute n scope => exact absurd rfl (plain n scope)
    | _ => rfl
  simp [Ledger.after, Ledger.finish, hregisters, ends]

end Ends

/-! ### Whole stacks -/

section Stacks

variable [Node.Strays] {L : Ledger} {loc : Nat → Host} {w : World} {stack : Stack} {p : Port} {f : Frame}

theorem quiet_depth (depth : Int) : Quiet w { w with depth := depth } := .same rfl rfl rfl rfl rfl rfl rfl

/-- A generator comes to its end. -/
theorem Ready.finished (r : Ready L loc w stack p []) (g : Nat) :
    Ready L loc (w.setGenerator g .done) stack p [] := r.setGenerator fun _ _ _ => .done

/-- A task sleeps before it comes to its end. -/
theorem Ready.sleeps {task : Nat} (r : Ready L loc w [.taskEnd task] (.task .value) [])
    (seconds : Float) :
    Reached L ⟨{ w with loop := w.loop.rest w.current [.taskEnd task] seconds }, .parked, []⟩ := by
  refine r.parks rfl (fun good h hg => h.rest seconds r.sys.current hg ?_) (Loop.le_size_rest ..)
  rintro ⟨request, rest, e⟩
  cases e

/-- A task comes to its end with an outcome. -/
theorem Ready.settles (r : Ready L loc w stack p []) (task : Nat) {outcome : Outcome}
    (clean : ∀ failure, outcome = .error failure → failure.Clean) :
    Reached L ⟨{ w with loop := w.loop.settle task outcome }, .parked, []⟩ := by
  refine r.done ⟨rfl, rfl, rfl, rfl⟩ (fun good h => h.settle task clean) ?_ r.sys.ending
  rw [Loop.size_settle]
  exact r.sys.current

/-- The program comes to its end. -/
theorem Ready.stops (r : Ready L loc w stack p []) {failure? : Option Failure}
    (clean : ∀ failure ∈ failure?, failure.Clean) :
    Reached L ⟨{ w with ending? := some failure? }, .parked, []⟩ :=
  r.done ⟨rfl, rfl, rfl, rfl⟩ (fun _ => id) r.sys.current fun failure h =>
    clean failure (Option.some.inj h)

/-- Where the code of an activation ends, its end is the first mark. -/
theorem Ready.ended {a : Nat} (r : Ready L loc w (.activationEnd a :: stack) p []) :
    ∃ context form, form ≠ .step ∧ p = .code form (.outside a context) ∧
      Ready L loc w stack (.ended context form) [.ends a] := by
  obtain ⟨marks, spans, hosted⟩ := r.path
  cases spans with
  | frame takes _ => exact absurd rfl (takes.ne_activationEnd a)
  | activationEnd outcome _ rest => exact ⟨_, _, outcome, rfl, r.sys, r.awake, _, rest, hosted⟩

/-- A value goes down a stack, past no end of an activation. -/
theorem reached_valueBelow (r : Ready L loc w (f :: stack) p []) (form : p.form? = some .value) (v : Value)
    (h : ∀ a, f ≠ .activationEnd a) : Reached L (w.onValue stack v f) := by
  obtain ⟨marks, spans, hosted⟩ := r.path
  have below : ∀ {q marks}, Spans w q stack marks .bottom → Hosted L loc w .running marks →
      Ready L loc w stack q [] := fun spans hosted => ⟨r.sys, r.awake, _, spans, hosted⟩
  cases spans with
  | frame takes rest =>
    obtain rfl := Option.some.inj form
    exact reached_valueFrame takes (below rest hosted) v
  | settling _ rest => exact .value (below rest hosted) form v
  | activationEnd => exact absurd rfl (h _)
  | syncCall rest => exact .value (below rest hosted) rfl v
  | asyncCall rest =>
    have settled : Ready L loc (w.settledPromise (.ok v)).2 stack .called [] :=
      (below rest hosted).settledPromise (by simp)
    exact .value settled rfl _
  | asyncTask rest => exact .value (below rest hosted) form v
  | generator rest => exact .resumed ((below rest hosted).finished _) v true
  | callEnd rest => exact .value ((below rest hosted).quiet (quiet_depth _)) rfl v
  | @taskEnd task => exact r.settles task (by simp)
  | programEnd => exact r.stops (by simp)
  | @nap seconds task => exact (below .taskEnd hosted).sleeps seconds
  | awaiting async rest => exact reached_await (below rest hosted) async _
  | closing async clean rest => exact reached_close ⟨r.sys, r.awake, _, rest, hosted⟩ async clean
  | _ => cases form

/-- A completion goes down a stack, past no end of an activation. -/
theorem reached_completionBelow (r : Ready L loc w (f :: stack) p []) (form : p.form? = some .completion)
    {reason : ExitReason} (completes : p.Completes reason) (h : ∀ a, f ≠ .activationEnd a) :
    Reached L (w.onComplete stack reason f) := by
  obtain ⟨marks, spans, hosted⟩ := r.path
  have below : ∀ {q marks}, Spans w q stack marks .bottom → Hosted L loc w .running marks →
      Ready L loc w stack q [] := fun spans hosted => ⟨r.sys, r.awake, _, spans, hosted⟩
  cases spans with
  | frame takes rest =>
    obtain rfl := Option.some.inj form
    exact reached_completionFrame takes (below rest hosted) completes
  | actionEnd rest => exact .complete (below rest hosted) rfl completes
  | scopeBody hc rest =>
    refine reached_leaveBody ⟨r.sys, r.awake, _, rest, hosted⟩ ?_
    split
    · exact hc
    · exact Region.Completes.of_targets completes rfl
  | draining hd rest =>
    exact reached_settle ⟨r.sys, r.awake, _, rest, hosted⟩ hd (by simp)
  | settling _ rest => exact .complete (below rest hosted) form completes
  | activationEnd => exact absurd rfl (h _)
  | syncAction rest => exact .complete (below rest hosted) rfl completes.clean
  | asyncAction _ rest => exact .complete (below rest hosted) rfl completes.clean
  | asyncTask rest => exact .complete (below rest hosted) form completes.clean
  | programEnd => exact r.stops (by simp)
  | _ => cases form

/-- The step of a generator goes down a stack. -/
theorem reached_stepBelow {Γ : Region} (r : Ready L loc w (f :: stack) (.code .step Γ) []) (v : Value)
    (done : Bool) : Reached L (w.onResumed stack v done f) := by
  obtain ⟨marks, spans, hosted⟩ := r.path
  cases spans with
  | frame takes rest => exact reached_stepFrame takes ⟨r.sys, r.awake, _, rest, hosted⟩ v done
  | settling _ rest => exact .resumed ⟨r.sys, r.awake, _, rest, hosted⟩ v done
  | activationEnd outcome => exact absurd rfl outcome

/-- A failure leaves the body of a frame. -/
theorem reached_scopeFailure {Γ : Region} {handle : FrameHandle} {atEnd : ExitReason}
    (r : Ready L loc w stack (.code .completion Γ)
      [.frame Γ.activation handle false Γ.context.isAsync]) {failure : Failure}
    (passes : (Port.code .completion Γ.inFrame).Passes failure) :
    Reached L (w.onRaise stack failure (.scopeBody Γ.activation handle atEnd)) := by
  rcases passes with clean | ⟨permits, v, rfl⟩
  · have he := clean.isException
    simp only [World.onRaise]
    split
    · exact absurd rfl (clean.ne_forcedReturn _)
    · rw [if_pos he]
      exact reached_leaveBody r (Γ.completes_throwing clean)
  · have generator : Γ.context.isGenerator = true := Region.isGenerator_of_permits (Γ := Γ.inFrame) permits
    exact reached_leaveBody r (Γ.completes_returning (r.untargeted generator) v)

/-- A failure goes down a stack, past no end of an activation. -/
theorem reached_failureBelow (r : Ready L loc w (f :: stack) p []) {failure : Failure}
    (passes : p.Passes failure) (h : ∀ a, f ≠ .activationEnd a) :
    Reached L (w.onRaise stack failure f) := by
  obtain ⟨marks, spans, hosted⟩ := r.path
  have below : ∀ {q marks}, Spans w q stack marks .bottom → Hosted L loc w .running marks →
      Ready L loc w stack q [] := fun spans hosted => ⟨r.sys, r.awake, _, spans, hosted⟩
  cases spans with
  | frame takes rest => exact reached_failureFrame takes (below rest hosted) passes
  | actionEnd rest =>
    have clean := passes.clean_of_ne (permits_ne_of_closed rfl)
    simp only [World.onRaise]
    split
    · exact absurd rfl (clean.ne_forcedReturn _)
    · exact .raise (below rest hosted) clean
  | scopeBody _ rest => exact reached_scopeFailure ⟨r.sys, r.awake, _, rest, hosted⟩ passes
  | draining hd rest =>
    exact reached_settle ⟨r.sys, r.awake, _, rest, hosted⟩ hd fun g hg => Option.some.inj hg ▸ passes
  | settling async rest =>
    have clean := passes.clean_of_ne (permits_ne_of_async async)
    simp only [World.onRaise, clean.isException, if_true]
    exact .fail (below rest hosted) clean
  | activationEnd => exact absurd rfl (h _)
  | syncAction rest => exact .raise (below rest hosted) passes
  | asyncAction _ rest => exact .raise (below rest hosted) passes
  | syncCall rest => exact .raise (below rest hosted) passes
  | asyncCall rest =>
    have clean : failure.Clean := passes
    simp only [World.onRaise, clean.isException, if_true]
    have settled : Ready L loc (w.settledPromise (.error failure)).2 stack .called [] :=
      (below rest hosted).settledPromise fun g hg => Except.error.inj hg ▸ clean
    exact .value settled rfl _
  | asyncTask rest => exact .raise (below rest hosted) passes
  | generator rest => exact .fail ((below rest hosted).finished _) passes
  | callEnd rest =>
    refine .fail ((below rest hosted).quiet (quiet_depth _)) ?_
    split
    · exact Failure.clean_single rfl
    · exact passes
  | @taskEnd task => exact r.settles task fun g hg => Except.error.inj hg ▸ passes
  | programEnd => exact r.stops fun g hg => Option.some.inj hg ▸ passes
  | @nap seconds task => exact .raise (below .taskEnd hosted) passes
  | awaiting | closing => exact passes.elim

/-! ### Steps -/

/-- A frame takes a value. -/
theorem reached_onValue (r : Ready L loc w (f :: stack) p []) (form : p.form? = some .value) (v : Value) :
    Reached (L.after ⟨w, .value v, f :: stack⟩) (w.onValue stack v f) := by
  have plain : ∀ n scope, Control.value v ≠ .execute n scope := by simp
  by_cases h : ∃ a, f = .activationEnd a
  · obtain ⟨a, rfl⟩ := h
    obtain ⟨context, form', -, rfl, ended⟩ := r.ended
    rw [L.after_end plain rfl]
    exact .value ended.given form v
  · have h : ∀ a, f ≠ .activationEnd a := fun a e => h ⟨a, e⟩
    rw [L.after_outcome plain h]
    exact reached_valueBelow r form v h

/-- A frame takes a completion. -/
theorem reached_onComplete (r : Ready L loc w (f :: stack) p []) (form : p.form? = some .completion)
    {reason : ExitReason} (completes : p.Completes reason) :
    Reached (L.after ⟨w, .complete reason, f :: stack⟩) (w.onComplete stack reason f) := by
  have plain : ∀ n scope, Control.complete reason ≠ .execute n scope := by simp
  by_cases h : ∃ a, f = .activationEnd a
  · obtain ⟨a, rfl⟩ := h
    obtain ⟨context, form', -, rfl, ended⟩ := r.ended
    rw [L.after_end plain rfl]
    exact .complete ended.given form completes.clean
  · have h : ∀ a, f ≠ .activationEnd a := fun a e => h ⟨a, e⟩
    rw [L.after_outcome plain h]
    exact reached_completionBelow r form completes h

/-- A frame takes the step of a generator. -/
theorem reached_onResumed {Γ : Region} (r : Ready L loc w (f :: stack) (.code .step Γ) []) (v : Value)
    (done : Bool) : Reached (L.after ⟨w, .resumed v done, f :: stack⟩) (w.onResumed stack v done f) := by
  have h : ∀ a, f ≠ .activationEnd a := by
    rintro a rfl
    obtain ⟨context, form', outcome, hp, -⟩ := r.ended
    exact outcome (Port.code.inj hp).1.symm
  rw [L.after_outcome (by simp) h]
  exact reached_stepBelow r v done

/-- A frame takes a failure. -/
theorem reached_onRaise (r : Ready L loc w (f :: stack) p []) {failure : Failure}
    (passes : p.Passes failure) :
    Reached (L.after ⟨w, .raise failure, f :: stack⟩) (w.onRaise stack failure f) := by
  have plain : ∀ n scope, Control.raise failure ≠ .execute n scope := by simp
  by_cases h : ∃ a, f = .activationEnd a
  · obtain ⟨a, rfl⟩ := h
    obtain ⟨context, form', -, rfl, ended⟩ := r.ended
    rw [L.after_end plain rfl]
    exact .raise ended.given (passes.clean_of_ne (permits_ne_of_closed rfl))
  · have h : ∀ a, f ≠ .activationEnd a := fun a e => h ⟨a, e⟩
    rw [L.after_outcome plain h]
    exact reached_failureBelow r passes h

end Stacks

end ScopeExit.Script
