import ScopeExit.Proofs.Script.Outcome
/-!
Whole runs.

A run starts with the module in an empty world, goes on step by step, and leaves it open which of the
tasks that may go on does so: whenever the running task has parked, the jobs and the timers of the event
loop may change their order.  `Run` takes down along the way what an observer sees.  The start of an
accepted program is good, and every step of good code is good again, so a run never leaves the states
that `Good` describes.
-/
namespace ScopeExit.Script

open World

/-! ### The start -/

/-- Nothing is written down yet. -/
def Ledger.blank : Ledger := ⟨fun _ _ => [], fun _ _ => [], []⟩

/-- What may run: a program that the check accepts, with all nodes where the check expects them. -/
structure Accepted (config : Config) (program : Node) : Prop where
  wellFormed : program.WellFormed
  yields : program.YieldsInBlocks
  accepted : ∃ found, program.validate config.allowTopLevelAwait = .ok found

section Start

variable [Node.Strays] {w : World}

theorem quiet_bindBuiltins (w : World) (scope : Nat) : Quiet w (w.bindBuiltins scope) := by
  unfold World.bindBuiltins
  generalize globalNames = names
  induction names generalizing w with
  | nil => exact .refl w
  | cons entry names ih =>
    have hmethod := quiet_method (w := w) entry.2
    exact (hmethod.trans (quiet_bind scope entry.1 _)).trans (ih _)

/-- The names that every program finds concern no activation. -/
theorem quiet_initial (config : Config) :
    Quiet { config, scopes := (Scopes.add {} { isFunction := true }).2 } (World.initial config) := by
  dsimp only [World.initial, Scopes.add]
  refine (quiet_bindBuiltins _ outermost).trans ?_
  refine .trans ?_ (quiet_bind _ _ _)
  refine .trans ?_ (quiet_bind _ _ _)
  refine .trans ?_ (quiet_bind _ _ _)
  refine .trans ?_ (quiet_bind _ _ _)
  exact quiet_heap rfl

/-- An empty world whose only promise is that of the program. -/
theorem sys_blank (closures : ∀ c ∈ w.heap.closures, ClosureFits c) (activations : w.activations = #[])
    (generators : w.generators = #[]) (loop : w.loop = (Loop.add {} {}).2) (current : w.current = 0)
    (ending : w.ending? = none) : Sys Ledger.blank (fun _ => .nowhere) w := by
  have hregistry : ∀ a, w.registry a = { name := "" } := by
    intro a
    simp [World.registry, World.activation, activations, default]
  refine ⟨closures, ?_, fun _ _ _ => ⟨rfl, rfl⟩, fun _ _ _ => rfl, by simp [Ledger.blank], ?_, ?_, ?_, ?_⟩
  · intro a
    rw [hregistry]
    exact ⟨"", .refl⟩
  · intro g
    simp only [World.generator, generators, Array.getD_eq_getD_getElem?, List.size_toArray,
      List.length_nil, Nat.not_lt_zero, not_false_eq_true, getElem?_neg, Option.getD_none]
    exact .done
  · rw [loop]
    have hempty : ({} : Loop Stack).Holds IsFirst (Parked Ledger.blank (fun _ => .nowhere) w)
        Failure.Clean := by
      refine ⟨?_, ?_, ?_, ?_⟩ <;> simp [Loop.outcome?, Loop.promise, Loop.queue, default]
    exact hempty.add (by simp) (by simp) rfl
  · rw [loop, current]
    simp [Loop.add]
  · simp [ending]

/-- The start of an accepted program is good. -/
theorem reached_start {config : Config} {program : Node} (h : Accepted config program)
    (strays : ∀ l ∈ program.strayLabels, l ∈ Node.Strays.labels) :
    Reached Ledger.blank (Running.start config program) := by
  obtain ⟨found, hfound⟩ := h.accepted
  have hstatements := h.wellFormed.allowed h.yields strays hfound
  have hinitial := quiet_initial config
  unfold Running.start
  generalize World.initial config = initial at hinitial
  have hloop : initial.loop = {} := hinitial.loop
  obtain ⟨w, hw⟩ : ∃ w, w = { initial with
      loop := (initial.loop.add {}).2, current := (initial.loop.add {}).1 } := ⟨_, rfl⟩
  have hsys : Sys Ledger.blank (fun _ => .nowhere) w := by
    rw [hw, hloop]
    exact sys_blank (hinitial.closures (by simp)) hinitial.activations hinitial.generators rfl rfl
      hinitial.ending
  have hready : Ready Ledger.blank (fun _ => .nowhere) w [.asyncDrive, .programEnd]
      (.ended ⟨config.allowTopLevelAwait, false⟩ .completion) [] := by
    refine ⟨hsys, ?_, [], .asyncTask .programEnd, hosted_nil (by simp)⟩
    rw [hw, hloop]
    rfl
  have hnew := hready.new mainName config.allowTopLevelAwait
  obtain ⟨marks, spans, hosted⟩ := hnew.path
  have hmodule : Ready Ledger.blank (place w.activations.size .running fun _ => .nowhere)
      (w.newActivation mainName config.allowTopLevelAwait).2
      [.activationEnd w.activations.size, .asyncDrive, .programEnd]
      (.code .completion (.outside w.activations.size ⟨config.allowTopLevelAwait, false⟩)) [] := by
    refine ⟨hnew.sys, hnew.awake, _, .activationEnd (by simp) (fun h => ?_) spans, hosted⟩
    rw [isAsync_newActivation]
    exact h
  have hquiet := quiet_addScope (w := (w.newActivation mainName config.allowTopLevelAwait).2)
    { parent := some outermost, activation := some w.activations.size, isFunction := true }
  have hscope := scopeIn_addScope (w := (w.newActivation mainName config.allowTopLevelAwait).2)
    { parent := some outermost, activation := some w.activations.size, isFunction := true } rfl
  have hreached := reached_enterFrame (hmodule.quiet hquiet) hscope .module program.span hstatements
    (Region.completes_normal _)
  rw [hw] at hreached
  exact hreached

end Start

/-! ### Steps -/

/-- Code that takes a value, and has taken its first step, takes a failure too. -/
theorem Port.passes_of_value {p : Port} {f : Failure} (form : p.form? = some .value) (other : p ≠ .woken)
    (clean : f.Clean) : p.Passes f := by
  cases p with
  | code => exact .inl clean
  | woken => exact absurd rfl other
  | bottom => cases form
  | _ => exact clean

section Steps

variable [Node.Strays] {L : Ledger} {loc : Nat → Host} {w : World} {stack : Stack}

/-- Only code that has not taken its first step is woken. -/
theorem isFirst_of_woken {marks : List Mark} (h : Spans w .woken stack marks .bottom) : IsFirst stack := by
  cases h with
  | awaiting | closing => exact ⟨_, _, rfl⟩

/-- Another event loop with the same promises in its care. -/
theorem Sys.loop_eq (sys : Sys L loc w) {loop : Loop Stack}
    (holds : ∀ good : Nat → Stack → Prop, w.loop.Holds IsFirst good Failure.Clean →
      loop.Holds IsFirst good Failure.Clean)
    (size : loop.promises.size = w.loop.promises.size) : Sys L loc { w with loop := loop } := by
  have same : SameHosts w { w with loop := loop } := ⟨rfl, rfl, rfl, rfl⟩
  refine sys.sameHosts same (fun _ _ => id) (fun g => same.spares ..) ?_ ?_ sys.ending
  · exact holds _ (sys.tasks fun t _ _ => same.spares ..)
  · rw [size]
    exact sys.current

/-- The event loop goes on. -/
theorem reached_continue (sys : Sys L loc w) (idle : ∀ a, loc a ≠ .running) {s : Running}
    (next : w.continue = .next s) : Reached L s := by
  unfold World.continue at next
  cases hend : w.end? with
  | some result =>
    rw [hend] at next
    contradiction
  | none =>
    rw [hend] at next
    simp only at next
    cases hevent : w.loop.next with
    | idle loop =>
      rw [hevent] at next
      contradiction
    | internal loop =>
      rw [hevent] at next
      obtain rfl := Transition.next.inj next
      refine .parked (sys.loop_eq (fun good h => ?_) (Loop.size_internal hevent)) idle
      have hnext := h.next
      rwa [hevent] at hnext
    | resume task code outcome loop =>
      rw [hevent] at next
      obtain rfl := Transition.next.inj next
      have hnext := sys.loop.next
      rw [hevent] at hnext
      obtain ⟨-, hsize, hparked, -, hfailure⟩ := hnext
      have holds : ∀ good : Nat → Stack → Prop, w.loop.Holds IsFirst good Failure.Clean →
          loop.Holds IsFirst good Failure.Clean ∧ good task code := by
        intro good h
        have hnext := h.next
        rw [hevent] at hnext
        exact ⟨hnext.1, hnext.2.2.2.1⟩
      obtain ⟨loc', p, form, r⟩ := sys.resumed idle holds hsize hparked
      cases outcome with
      | ok v => exact .value r form v
      | error f =>
        obtain ⟨clean, started⟩ := hfailure f rfl
        obtain ⟨marks, spans, -⟩ := r.path
        refine .raise r (p.passes_of_value form ?_ clean)
        rintro rfl
        exact started (isFirst_of_woken spans)

/-- An outcome never arrives at an empty stack. -/
theorem Ready.ne_nil {p : Port} (r : Ready L loc w stack p []) (h : p ≠ .bottom) :
    ∃ f rest, stack = f :: rest := by
  obtain ⟨marks, spans, -⟩ := r.path
  cases stack with
  | nil =>
    cases spans
    exact absurd rfl h
  | cons f rest => exact ⟨f, rest, rfl⟩

/-- **Main result.**  A step of good code leads to good code, once what has happened is written down. -/
theorem Good.step {s s' : Running} (h : Good L s) (next : s.step = .next s') : Reached (L.after s) s' := by
  cases h with
  | execute r h hs =>
    obtain rfl := Transition.next.inj next
    exact reached_execute r h hs
  | action r h hs =>
    obtain rfl := Transition.next.inj next
    exact reached_executeAction r h hs
  | evaluate r h hs =>
    obtain rfl := Transition.next.inj next
    rw [L.after_eq (fun _ _ => rfl) rfl]
    exact reached_evaluate r h hs
  | value r form =>
    obtain ⟨f, rest, rfl⟩ := r.ne_nil (by rintro rfl; cases form)
    obtain rfl := Transition.next.inj next
    exact reached_onValue r form _
  | complete r form completes =>
    obtain ⟨f, rest, rfl⟩ := r.ne_nil (by rintro rfl; cases form)
    obtain rfl := Transition.next.inj next
    exact reached_onComplete r form completes
  | resumed r =>
    obtain ⟨f, rest, rfl⟩ := r.ne_nil (by simp)
    obtain rfl := Transition.next.inj next
    exact reached_onResumed r _ _
  | raise r passes =>
    obtain ⟨f, rest, rfl⟩ := r.ne_nil (by rintro rfl; exact passes)
    obtain rfl := Transition.next.inj next
    exact reached_onRaise r passes
  | await r async =>
    obtain rfl := Transition.next.inj next
    rw [L.after_eq (fun _ _ => rfl) rfl]
    exact reached_suspendAwait r async _
  | yield r generator =>
    obtain rfl := Transition.next.inj next
    rw [L.after_eq (fun _ _ => rfl) rfl]
    exact reached_suspendYield r generator _
  | drain r async completes =>
    obtain rfl := Transition.next.inj next
    rw [L.after_eq (fun _ _ => rfl) rfl]
    exact reached_suspendDrain r async completes
  | parked sys idle =>
    rw [L.after_eq (fun _ _ => rfl) rfl]
    exact reached_continue sys idle next

end Steps

/-! ### Runs -/

/-- A state that a run of a program comes to, whatever the order of its tasks, and what an observer has
written down until then. -/
inductive Run (config : Config) (program : Node) : Ledger → Running → Prop
  | start : Run config program (Ledger.blank.at (.start config program.withIdentities))
      (.start config program.withIdentities)
  | step {L : Ledger} {s s' : Running} (before : Run config program L s) (next : s.step = .next s') :
      Run config program ((L.after s).at s') s'
  /-- The tasks that may go on do so in another order. -/
  | reorder {L : Ledger} {w : World} {stack : Stack} {loop : Loop Stack}
      (before : Run config program L ⟨w, .parked, stack⟩) (other : w.loop.Reorders loop) :
      Run config program L ⟨{ w with loop := loop }, .parked, stack⟩

/-- Every state of a run of an accepted program is good. -/
theorem Run.good [Node.Strays] {config : Config} {program : Node} (accepted : Accepted config program)
    (strays : ∀ l ∈ program.strayLabels, l ∈ Node.Strays.labels) {L : Ledger} {s : Running}
    (run : Run config program L s) : Good L s := by
  induction run with
  | start =>
    rw [accepted.wellFormed.withIdentities_eq]
    exact reached_start accepted strays
  | step _ next ih => exact ih.step next
  | reorder _ other ih =>
    cases ih with
    | parked sys idle =>
      refine .parked (sys.loop_eq (fun good h => h.reorders other) ?_) idle
      rw [other.promises]

/-- Some steps further, as far as the run goes, with what is written down along the way. -/
def observe : Nat → Ledger × Running → Ledger × Running
  | 0, moment => moment
  | n + 1, (L, s) =>
    match s.step with
    | .next s' => observe n ((L.after s).at s', s')
    | .halt _ => (L, s)

/-- A run with its observer. -/
def observed (config : Config) (program : Node) (steps : Nat) : Ledger × Running :=
  let s := Running.start config program.withIdentities
  observe steps (Ledger.blank.at s, s)

theorem Run.observe {config : Config} {program : Node} (n : Nat) {L : Ledger} {s : Running}
    (before : Run config program L s) :
    Run config program (observe n (L, s)).1 (observe n (L, s)).2 := by
  induction n generalizing L s with
  | zero => exact before
  | succ n ih =>
    unfold Script.observe
    cases hstep : s.step with
    | halt result => exact before
    | next s' => exact ih (before.step hstep)

theorem Run.observed (config : Config) (program : Node) (steps : Nat) :
    Run config program (observed config program steps).1 (observed config program steps).2 :=
  Run.start.observe steps

/-- What a run shows when its steps are used up is what an observer comes to. -/
theorem exhausted_observe {n : Nat} {L : Ledger} {s s' : Running}
    (h : Transition.run Running.step n s = .exhausted s') : (observe n (L, s)).2 = s' := by
  induction n generalizing L s with
  | zero => exact RunResult.exhausted.inj h
  | succ n ih =>
    unfold Transition.run at h
    unfold observe
    cases hstep : s.step with
    | halt result =>
      rw [hstep] at h
      contradiction
    | next s' =>
      rw [hstep] at h
      exact ih h

/-- A run that uses up its steps is one of these. -/
theorem run_exhausted {config : Config} {program : Node} {s : Running}
    (h : run config program = .exhausted s) : ∃ L, Run config program L s := by
  have hrun := Run.observed config program stepLimit
  rw [observed, exhausted_observe h] at hrun
  exact ⟨_, hrun⟩

end ScopeExit.Script
