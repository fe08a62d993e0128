import ScopeExit.Proofs.Script.Frames
import ScopeExit.Proofs.Script.Soundness
/-!
Resumptions stay inside their generators.

Whoever asks a generator for a step waits below the boundary of the generator.  Until the step is over
the code of the generator runs above that boundary, whatever it calls, drains or resumes on its part,
and the step ends at the boundary with a value or with an ordinary failure.  That is so for a request to
return too: it comes down the stack of the generator as no ordinary failure does, but a statement or a
frame of the generator has taken it before it gets to the boundary.
-/
namespace ScopeExit.Script

open World

/-! ### Suspended code -/

section Suspended

variable [Node.Strays] {L : Ledger} {loc : Nat → Host} {w : World}

theorem Frame.Takes.isLocal {f : Frame} {Γ : Region} {form form' : Form}
    (takes : f.Takes w Γ form form') : f.isLocal = true := by
  cases takes <;> rfl

/-- What the code of a generator suspends is local. -/
theorem Spans.isLocal {p q : Port} {code : Stack} {marks : List Mark} (h : Spans w p code marks q)
    {a : Nat} (home : p.home? = some (a, ⟨false, true⟩))
    (segment : ∀ f ∈ code, f.isBoundary = false) : ∀ f ∈ code, f.isLocal = true := by
  induction h generalizing a with
  | nil => exact List.forall_mem_nil _
  | frame takes _ ih =>
    have inner := ih ((Port.home?_above ..).symm.trans home) (List.forall_mem_cons.mp segment).2
    exact List.forall_mem_cons.mpr ⟨takes.isLocal, inner⟩
  | actionEnd => cases home
  | scopeBody _ _ ih =>
    exact List.forall_mem_cons.mpr ⟨rfl, ih home (List.forall_mem_cons.mp segment).2⟩
  | settling async _ _ =>
    obtain ⟨rfl, hcontext⟩ := Prod.mk.inj (Option.some.inj home)
    rw [hcontext] at async
    contradiction
  | activationEnd _ _ rest _ =>
    obtain ⟨rfl, rfl⟩ := Prod.mk.inj (Option.some.inj home)
    cases rest with
    | nil => exact List.forall_mem_singleton.mpr rfl
    | @generator _ g _ _ _ _ => cases segment (.generatorBoundary g) (by simp)
  | syncAction | asyncAction => cases home
  | _ => contradiction

theorem Sys.localGenerators (sys : Sys L loc w) : w.LocalGenerators := by
  intro g code hg
  have fits := sys.generators g
  rw [hg] at fits
  cases fits with
  | suspended sort _ segment spans _ =>
    exact spans.isLocal (congrArg (fun c => some (_, c)) sort) segment

end Suspended

/-! ### Drains -/

section Drains

variable [Node.Strays] {L : Ledger} {loc : Nat → Host} {w : World} {stack : Stack} {p : Port} {a : Nat}

/-- The code in a frame ends: the actions of the frame come on top of what is below, or the frame asks
for a drain that may wait. -/
theorem Ready.keeps_leaveBody {handle : FrameHandle} {atEnd : ExitReason}
    (r : Ready L loc w (.scopeBody a handle atEnd :: stack) p []) (reason : ExitReason) :
    (w.leaveBody stack a handle reason).Keeps stack := by
  obtain ⟨marks, spans, hosted⟩ := r.path
  cases spans with
  | frame takes => cases takes
  | @scopeBody Γ =>
    obtain ⟨outer, f, below, own, inner⟩ := hosted.innermost
    have held := inner.held
    have fresh := held.waiting rfl
    unfold World.leaveBody
    split
    · exact .push rfl
    · exact .push rfl
    · rename_i hasync
      have hcount : f.asyncActions = 0 := by
        rw [inner.address, Registry.hasAsyncActions, Registry.frame_innermost inner.frames] at hasync
        simpa [Bind.bind, Except.bind, Pure.pure, Except.pure] using hasync
      have hsync : ∀ x ∈ own, x.mode = .sync := by
        intro x hx
        have hzero := (held.counts fresh).symm.trans hcount
        rw [Registry.asyncCount, List.countP_eq_zero] at hzero
        have hne := hzero x hx
        cases hm : x.mode with
        | sync => rfl
        | async => simp [hm] at hne
      have hstart := Drain.start_eq inner.frames fresh (fun _ : ActionMode.sync = .sync => hcount) reason
      have progress := Drain.start_inProgress (r.sys.reachable _) inner.frames fresh
        (congrArg Arena.actions inner.arena) inner.mark .sync reason
      refine Running.Keeps.under (f := .scopeEnd) ?_ rfl
      rw [inner.address]
      unfold World.drain
      rw [hstart]
      exact keeps_proceed _ _ _ _ fun action d e =>
        (progress.advance_run (Prod.ext e rfl)).imp (hsync action) id

/-- An action ends: the next one comes on top of what is below, or the frame is left. -/
theorem Ready.keeps_settleAction {d : Drain} (r : Ready L loc w (.draining a d :: stack) p [])
    (sync : d.mode = .sync) (failure? : Option Failure) :
    (w.settleAction stack a d failure?).Keeps stack := by
  obtain ⟨marks, spans, hosted⟩ := r.path
  cases spans with
  | frame takes => cases takes
  | @draining Γ =>
    obtain ⟨outer, f, below, own, inner⟩ := hosted.innermost
    have progress : d.InProgress (w.registry Γ.activation) outer f below own :=
      ⟨r.sys.reachable _, inner.frames, inner.held.draining rfl, inner.address, inner.arena, inner.mark⟩
    refine keeps_proceed _ _ _ _ fun action d' e => ?_
    obtain ⟨hown, hmode⟩ := progress.settle_run (Prod.ext e rfl)
    refine ⟨?_, hmode.trans sync⟩
    cases hm : action.mode with
    | sync => rfl
    | async => simpa [sync] using inner.held.waits action hown hm

variable {f : Frame}

theorem Ready.keeps_onComplete (r : Ready L loc w (f :: stack) p []) (isLocal : f.isLocal = true)
    (reason : ExitReason) : (w.onComplete stack reason f).Keeps stack := by
  refine World.keeps_onComplete _ _ r.sys.localGenerators isLocal ?_ ?_ reason
  · rintro a handle atEnd reason rfl
    exact r.keeps_leaveBody reason
  · rintro a d failure? rfl
    exact r.keeps_settleAction (of_decide_eq_true isLocal) failure?

theorem Ready.keeps_onRaise (r : Ready L loc w (f :: stack) p []) (isLocal : f.isLocal = true)
    (failure : Failure) : (w.onRaise stack failure f).Keeps stack := by
  refine World.keeps_onRaise _ _ r.sys.localGenerators isLocal ?_ ?_ failure
  · rintro a handle atEnd reason rfl
    exact r.keeps_leaveBody reason
  · rintro a d failure? rfl
    exact r.keeps_settleAction (of_decide_eq_true isLocal) failure?

end Drains

/-! ### The step of a generator -/

/-- The step of a generator is under way: its code runs above its boundary, and whoever asked for the
step waits below. -/
def Running.Inside (g : Nat) (caller : Stack) (s : Running) : Prop :=
  s.Keeps (.generatorBoundary g :: caller)

/-- The step of a generator is over, and all that arrives at the code that asked for it is a value that
says whether the generator is done, or an ordinary failure. -/
inductive Running.Answers (caller : Stack) : Running → Prop
  | pair {w : World} {v : Value} {done : Bool} : Answers caller ⟨w, .resumed v done, caller⟩
  | fails {w : World} {f : Failure} (clean : f.Clean) : Answers caller ⟨w, .raise f, caller⟩

/-- The step is under way, or it is just over. -/
def Running.Contains (g : Nat) (caller : Stack) (s : Running) : Prop :=
  s.Inside g caller ∨ s.Answers caller

/-- Above a boundary a suspension takes along some frames and comes to a boundary among the rest, or to
that one. -/
theorem Stack.fromBoundary_append {b : Frame} (h : b.isBoundary = true) (upper rest : Stack) :
    ∃ taken kept, upper = taken ++ kept ∧
      Stack.fromBoundary (upper ++ b :: rest) = kept ++ b :: rest := by
  induction upper with
  | nil => exact ⟨[], [], rfl, by simp [Stack.fromBoundary, h]⟩
  | cons f upper ih =>
    by_cases hf : f.isBoundary = true
    · exact ⟨[], f :: upper, rfl, by simp [Stack.fromBoundary, hf]⟩
    · obtain ⟨taken, kept, rfl, hrest⟩ := ih
      refine ⟨f :: taken, kept, rfl, ?_⟩
      simpa [Stack.fromBoundary, hf] using hrest

section Inside

variable [Node.Strays] {L : Ledger} {loc : Nat → Host} {w : World} {g : Nat} {caller stack : Stack}
  {p : Port}

/-- Asynchronous code that suspends stands above the start of its own call. -/
theorem Running.Inside.suspends {Γ : Region} {form : Form} {extra : List Mark} {c : Control}
    (inside : Running.Inside g caller ⟨w, c, stack⟩) (r : Ready L loc w stack (.code form Γ) extra)
    (async : Γ.context.isAsync = true) (request : Request) :
    (w.suspend stack request).Inside g caller := by
  obtain ⟨marks, spans, -⟩ := r.path
  obtain ⟨f, rest, hstack, hf⟩ := spans.async_boundary rfl async
  obtain ⟨upper, rfl, isLocal⟩ := inside
  obtain ⟨taken, kept, rfl, hkept⟩ :=
    Stack.fromBoundary_append (b := .generatorBoundary g) rfl upper caller
  rw [hkept] at hstack
  have isLocal : ∀ f ∈ kept, f.isLocal = true := fun f hf => isLocal f (List.mem_append_right _ hf)
  cases kept with
  | nil =>
    obtain ⟨rfl, rfl⟩ := List.cons.inj hstack
    rcases hf with hf | hf <;> cases hf
  | cons f kept =>
    obtain ⟨rfl, rfl⟩ := List.cons.inj hstack
    rcases hf with rfl | rfl
    · unfold World.suspend
      rw [hkept]
      exact .beneath .here (List.forall_mem_cons.mp isLocal).2
    · cases isLocal .asyncDrive List.mem_cons_self

/-- A generator that yields is the one whose step it is, or one that is resumed by its code. -/
theorem Running.Inside.yields {Γ : Region} {c : Control}
    (inside : Running.Inside g caller ⟨w, c, stack⟩) (r : Ready L loc w stack (.code .value Γ) [])
    (generator : Γ.permits.isGenerator = true) (v : Value) :
    (w.suspend stack (.yield v)).Contains g caller := by
  obtain ⟨g', rest, -, -, hstack, -⟩ := r.yielded generator
  obtain ⟨upper, rfl, isLocal⟩ := inside
  obtain ⟨taken, kept, rfl, hkept⟩ :=
    Stack.fromBoundary_append (b := .generatorBoundary g) rfl upper caller
  have isLocal : ∀ f ∈ kept, f.isLocal = true := fun f hf => isLocal f (List.mem_append_right _ hf)
  unfold World.suspend
  rw [hstack]
  rw [hkept] at hstack
  cases kept with
  | nil =>
    obtain ⟨-, rfl⟩ := List.cons.inj hstack
    exact .inr .pair
  | cons f kept =>
    obtain ⟨-, rfl⟩ := List.cons.inj hstack
    exact .inl (.beneath .here (List.forall_mem_cons.mp isLocal).2)

/-- The code of a generator gives the boundary a value or a clean failure. -/
theorem Spans.below_generator {marks : List Mark}
    (h : Spans w p (.generatorBoundary g :: stack) marks .bottom) : p = .ended ⟨false, true⟩ .value := by
  cases h with
  | frame takes => cases takes
  | generator => rfl

end Inside

/-- A state of a step that is under way has a next state, and the step goes on in it or is over. -/
theorem Good.inside [Node.Strays] {L : Ledger} {s : Running} {g : Nat} {caller : Stack} (good : Good L s)
    (inside : s.Inside g caller) : ∃ s', s.step = .next s' ∧ s'.Contains g caller := by
  obtain ⟨w, c, stack⟩ := s
  obtain ⟨upper, hstack, isLocal⟩ := id inside
  replace hstack : stack = upper ++ .generatorBoundary g :: caller := hstack
  cases good with
  | execute | action =>
    subst hstack
    exact ⟨_, rfl, .inl ((keeps_execute ..).beneath isLocal)⟩
  | evaluate =>
    subst hstack
    exact ⟨_, rfl, .inl ((keeps_evaluate ..).beneath isLocal)⟩
  | value r form =>
    subst hstack
    cases upper with
    | nil => exact ⟨_, rfl, .inr .pair⟩
    | cons f upper =>
      obtain ⟨hf, hupper⟩ := List.forall_mem_cons.mp isLocal
      exact ⟨_, rfl, .inl ((keeps_onValue _ _ r.sys.localGenerators hf _).beneath hupper)⟩
  | complete r form completes =>
    subst hstack
    cases upper with
    | nil =>
      obtain ⟨marks, spans, -⟩ := r.path
      rw [spans.below_generator] at form
      cases form
    | cons f upper =>
      obtain ⟨hf, hupper⟩ := List.forall_mem_cons.mp isLocal
      exact ⟨_, rfl, .inl ((r.keeps_onComplete hf _).beneath hupper)⟩
  | resumed r =>
    subst hstack
    cases upper with
    | nil =>
      obtain ⟨marks, spans, -⟩ := r.path
      cases spans.below_generator
    | cons f upper =>
      exact ⟨_, rfl, .inl ((keeps_onResumed ..).beneath (List.forall_mem_cons.mp isLocal).2)⟩
  | raise r passes =>
    subst hstack
    cases upper with
    | nil =>
      obtain ⟨marks, spans, -⟩ := r.path
      rw [spans.below_generator] at passes
      exact ⟨_, rfl, .inr (.fails passes)⟩
    | cons f upper =>
      obtain ⟨hf, hupper⟩ := List.forall_mem_cons.mp isLocal
      exact ⟨_, rfl, .inl ((r.keeps_onRaise hf _).beneath hupper)⟩
  | await r async => exact ⟨_, rfl, .inl (inside.suspends r async _)⟩
  | yield r generator => exact ⟨_, rfl, inside.yields r generator _⟩
  | drain r async => exact ⟨_, rfl, .inl (inside.suspends r async _)⟩
  | parked => simp at hstack

/-! ### Asking for a step -/

/-- The next step of running code asks a generator for a step.  The answer goes to the code `caller`, and
`w` is the world in which the generator is asked. -/
structure Running.Asks (s : Running) (w : World) (caller : Stack) (g : Nat) (mode : ResumeMode)
    (v : Value) : Prop where
  next : s.step = .next (w.resume caller g mode v)
  generators : w.generators = s.world.generators

section Asks

variable {w : World} {stack : Stack} {g : Nat}

/-- A script asks with the last argument of a call. -/
theorem asks_call {n : Native} {mode : ResumeMode} (builtin : n.builtin = .resume g mode) (name : Text)
    (before : List Value) (scope : Nat) (v : Value) :
    Running.Asks ⟨w, .value v, .argument ⟨.native n, name⟩ before [] scope :: stack⟩ w
      (.iterationResult :: stack) g mode ((v :: before).reverse.headD .undefined) := by
  refine ⟨?_, rfl⟩
  simp only [Running.step, World.onValue, World.arguments, World.call, World.callNative, builtin]

/-- A loop over a generator that is left early asks it to return. -/
theorem asks_leaveForOf {loop : ElementLoop} (iterable : loop.iterable = .generator g)
    {reason reason' : ExitReason} (leaves : afterPass reason loop.labels = some reason') :
    Running.Asks ⟨w, .complete reason, .forOfPass loop :: stack⟩ w (.forOfClose reason' :: stack) g
      .return .undefined := by
  refine ⟨?_, rfl⟩
  simp only [Running.step, World.onComplete, leaves, World.leaveForOf, iterable]

/-- The generator that a loop asks to return in the next step, because it is left by the completion of a
pass. -/
def Running.closes? : Running → Option Nat
  | ⟨_, .complete reason, .forOfPass loop :: _⟩ =>
    match loop.iterable, afterPass reason loop.labels with
    | .generator g, some _ => some g
    | _, _ => none
  | _ => none

theorem asks_of_closes {s : Running} (h : s.closes? = some g) :
    ∃ caller, s.Asks s.world caller g .return .undefined := by
  unfold Running.closes? at h
  split at h
  · split at h
    · rename_i iterable leaves
      obtain rfl := Option.some.inj h
      exact ⟨_, asks_leaveForOf iterable leaves⟩
    · contradiction
  · contradiction

/-- So does a loop over a generator whose pass has failed. -/
theorem asks_abandonForOf {loop : ElementLoop} (iterable : loop.iterable = .generator g)
    {failure : Failure} (isException : failure.isException = true) :
    Running.Asks ⟨w, .raise failure, .forOfPass loop :: stack⟩ w (.forOfAbort failure :: stack) g
      .return .undefined := by
  refine ⟨?_, rfl⟩
  simp only [Running.step, World.onRaise, World.abandonForOf, iterable, isException, if_true]

end Asks

/-- A generator that runs no more code answers at once. -/
theorem answers_finished (w : World) (caller : Stack) (mode : ResumeMode) (v : Value) :
    (resume.finished caller mode v w).Answers caller := by
  unfold resume.finished
  cases mode with
  | next | «return» => exact .pair
  | throw => exact .fails (w.heap.clean_thrown v)

/-- A generator that is asked for a step runs its code inside, or answers at once. -/
theorem contains_resume {w : World} (h : w.LocalGenerators) (caller : Stack) (g : Nat)
    (mode : ResumeMode) (v : Value) : (w.resume caller g mode v).Contains g caller := by
  unfold World.resume
  split
  · exact .inr (.fails (Failure.clean_typeError _))
  · exact .inr (answers_finished ..)
  · split
    · exact .inl (keeps_startBody ..)
    · exact .inr (answers_finished ..)
  · rename_i code hcode
    have resumed : ∀ c, Running.Inside g caller
        ⟨w.setGenerator g .running, c, code ++ .generatorBoundary g :: caller⟩ :=
      fun c => .beneath .here (h g code hcode)
    split
    · exact .inl (resumed _)
    · exact .inl (resumed _)
    · have mild := w.heap.mild_describe v
      split
      · exact .inl (resumed _)
      · rename_i failure hfailure
        exact .inr (.fails (mild.clean hfailure))

/-! ### Whole runs -/

/-- A state that a run comes to from another one, whatever the order of its tasks. -/
inductive Running.Later : Running → Running → Prop
  | refl (s : Running) : Later s s
  | step {s t t' : Running} (before : Later s t) (next : t.step = .next t') : Later s t'
  | reorder {s : Running} {w : World} {stack : Stack} {loop : Loop Stack}
      (before : Later s ⟨w, .parked, stack⟩) (other : w.loop.Reorders loop) :
      Later s ⟨{ w with loop := loop }, .parked, stack⟩

/-- What is later than a state of a run is a state of a run. -/
theorem Run.later {config : Config} {program : Node} {L : Ledger} {s t : Running}
    (run : Run config program L s) (later : s.Later t) : ∃ L, Run config program L t := by
  induction later with
  | refl => exact ⟨L, run⟩
  | step _ next ih =>
    obtain ⟨L, before⟩ := ih
    exact ⟨_, before.step next⟩
  | reorder _ other ih =>
    obtain ⟨L, before⟩ := ih
    exact ⟨_, before.reorder other⟩

/-- A step that is under way is still under way later, or it is over by then. -/
theorem Run.inside_later {config : Config} {program : Node} (accepted : Accepted config program)
    {L : Ledger} {s t : Running} (run : Run config program L s) {g : Nat} {caller : Stack}
    (contains : s.Contains g caller) (later : s.Later t) :
    t.Inside g caller ∨ ∃ u, s.Later u ∧ u.Later t ∧ u.Answers caller := by
  let _ : Node.Strays := ⟨program.strayLabels⟩
  induction later with
  | refl => exact contains.imp id fun answers => ⟨s, .refl s, .refl s, answers⟩
  | @step t t' before next ih =>
    rcases ih with inside | ⟨u, hu, later, answers⟩
    · obtain ⟨L', runs⟩ := run.later before
      obtain ⟨t'', hnext, contains⟩ := (runs.good accepted fun _ => id).inside inside
      obtain rfl := Transition.next.inj (next.symm.trans hnext)
      exact contains.imp id fun answers => ⟨t', before.step next, .refl t', answers⟩
    · exact .inr ⟨u, hu, later.step next, answers⟩
  | reorder before other ih =>
    rcases ih with ⟨upper, hstack, -⟩ | ⟨u, hu, later, answers⟩
    · -- parked code leaves no stack behind
      obtain ⟨L', runs⟩ := run.later before
      cases runs.good accepted fun _ => id
      simp at hstack
    · exact .inr ⟨u, hu, later.reorder other, answers⟩

/-- **Main result.**  In a run of an accepted program whose generators yield in blocks only, a generator
is asked for a step: to go on, to throw or to return a value, by a call or by a loop.  From then on,
whatever the order of tasks, its code runs above its boundary and never comes to a halt there, until the
code that asked gets a value, with the word whether the generator is done, or an ordinary failure. -/
theorem Run.contains_steps {config : Config} {program : Node} (accepted : Accepted config program)
    {L : Ledger} {s : Running} (run : Run config program L s) {w : World} {caller : Stack} {g : Nat}
    {mode : ResumeMode} {v : Value} (asks : s.Asks w caller g mode v) {t : Running}
    (later : (w.resume caller g mode v).Later t) :
    (t.Inside g caller ∧ ∃ t', t.step = .next t') ∨
      ∃ u, (w.resume caller g mode v).Later u ∧ u.Later t ∧ u.Answers caller := by
  let _ : Node.Strays := ⟨program.strayLabels⟩
  obtain ⟨loc, sys⟩ := (run.good accepted fun _ => id).sys
  have resumed := run.step asks.next
  have contains := contains_resume (sys.localGenerators.same asks.generators) caller g mode v
  refine (resumed.inside_later accepted contains later).imp (fun inside => ⟨inside, ?_⟩) id
  obtain ⟨L', runs⟩ := resumed.later later
  obtain ⟨t', next, -⟩ := (runs.good accepted fun _ => id).inside inside
  exact ⟨t', next⟩

/-- A loop that is left in its first pass, over a generator with the given parameters that yields. -/
def leftLoop (params : List Node) : Node :=
  { kind := .program, children := [
    { kind := .function, value := .text "g", params, isGenerator := true, children := [
      { kind := .block, children := [
        { kind := .expressionStatement, children := [{ kind := .yield }] }] }] },
    { kind := .forOfLoop, value := .text "x", children := [
      { kind := .call, children := [{ kind := .identifier, value := .text "g" }] },
      { kind := .block, children := [{ kind := .break }] }] }] }

theorem wellFormed_leftLoop {params : List Node}
    (h : ∀ p ∈ params, Node.Shaped Node.IsPlain .param (.within ⟨false, true⟩ p) p) :
    (leftLoop params).WellFormed := by
  refine ⟨rfl, ⟨rfl, fun _ => rfl⟩, List.forall_mem_cons.mpr ⟨?_, List.forall_mem_singleton.mpr ?_⟩⟩
  · refine .function ⟨rfl, by simp [NodeKind.isFunction]⟩ rfl h (List.forall_mem_singleton.mpr ?_)
    refine .blockBody ⟨rfl, fun _ => rfl⟩ rfl (List.forall_mem_singleton.mpr ?_)
    refine .simple ⟨rfl, fun _ => rfl⟩ (.inl rfl) (List.forall_mem_singleton.mpr ?_)
    exact .operation ⟨rfl, fun _ => rfl⟩ rfl (List.forall_mem_nil _)
  · refine .forOfLoop ⟨rfl, fun _ => rfl⟩ rfl rfl ?_ (.block ⟨rfl, fun _ => rfl⟩ rfl ?_)
    · refine .operation ⟨rfl, fun _ => rfl⟩ rfl (List.forall_mem_singleton.mpr ?_)
      exact .leaf ⟨rfl, fun _ => rfl⟩ (.inl rfl) rfl
    · exact List.forall_mem_singleton.mpr (.jump ⟨rfl, fun _ => rfl⟩ (.inl rfl) rfl)

theorem accepted_leftLoop : Accepted {} (leftLoop []) :=
  ⟨wellFormed_leftLoop (List.forall_mem_nil _), by decide +kernel, _, rfl⟩

/-- The loop asks the generator to return where it has yielded in its block. -/
theorem contains_steps_leftLoop : ∃ w caller g code, w.generator g = .suspended code ∧
    (observed {} (leftLoop []) 18).2.Asks w caller g .return .undefined ∧
    ∀ t, (w.resume caller g .return .undefined).Later t →
      (t.Inside g caller ∧ ∃ t', t.step = .next t') ∨
        ∃ u, (w.resume caller g .return .undefined).Later u ∧ u.Later t ∧ u.Answers caller := by
  have run := Run.observed {} (leftLoop []) 18
  have closes : (observed {} (leftLoop []) 18).2.closes? = some 0 := by decide +kernel
  have isSuspended : (match (observed {} (leftLoop []) 18).2.world.generator 0 with
    | .suspended _ => true
    | _ => false) = true := by decide +kernel
  generalize observed {} (leftLoop []) 18 = moment at *
  split at isSuspended
  · rename_i code suspended
    obtain ⟨caller, asks⟩ := asks_of_closes closes
    exact ⟨_, caller, 0, code, suspended, asks, fun t later =>
      run.contains_steps accepted_leftLoop asks later⟩
  · contradiction

/-- A parameter whose default yields. -/
def yieldingParam : Node :=
  { kind := .param, value := .text "y", children := [{ kind := .yield }] }

theorem wellFormed_yieldingDefault : (leftLoop [yieldingParam]).WellFormed := by
  refine wellFormed_leftLoop (List.forall_mem_singleton.mpr ?_)
  refine .param ⟨rfl, fun _ => rfl⟩ rfl (List.forall_mem_singleton.mpr ?_)
  exact .part (.operation ⟨rfl, fun _ => rfl⟩ rfl (List.forall_mem_nil _))

/-- The kind of completion that a state is in, if it is in one. -/
def Running.completes? (s : Running) : Option ExitKind :=
  match s.control with
  | .complete reason => some reason.kind
  | _ => none

/-- Where a generator has yielded in the default of a parameter nothing takes the request to return: the
check accepts the program, and the module comes to its end as if it had returned itself. -/
theorem escapes_yieldingDefault : (leftLoop [yieldingParam]).WellFormed ∧
    (∃ found, (leftLoop [yieldingParam]).validate true = .ok found) ∧
    (observed {} (leftLoop [yieldingParam]) 16).2.closes? = some 0 ∧
    (observed {} (leftLoop [yieldingParam]) 25).2.ends? = some 0 ∧
    (observed {} (leftLoop [yieldingParam]) 25).2.completes? = some .return :=
  ⟨wellFormed_yieldingDefault, ⟨_, rfl⟩, by decide +kernel, by decide +kernel, by decide +kernel⟩

end ScopeExit.Script
