import ScopeExit.Proofs.Script.Confinement
import ScopeExit.Proofs.Script.Rejection
/-!
Code stays settled.

Whatever a run does, the code that runs belongs where it is, and so does all code that waits to go on.  A
suspension takes code along as far as the end of its body, and above the end of a body the setting does
not depend on what is below; so code may be suspended in one place and go on in another one.
-/
namespace ScopeExit.Script

open World Stack

/-! ### Code that ends a body -/

section Segments

variable {program : Node} {w : World} {code stack rest : Stack}

/-- Above the end of a body the setting does not depend on what is below the end. -/
theorem setting_above_end (frames : Stack) (a : Nat) (rest : Stack) :
    Stack.setting (frames ++ .activationEnd a :: rest) = Stack.setting (frames ++ [.activationEnd a]) := by
  induction frames with
  | nil => rfl
  | cons f frames ih => exact congrArg (Setting.above · f) ih

theorem settled_above_end (frames : Stack) (a : Nat) (rest : Stack) :
    Stack.Settled program w (frames ++ .activationEnd a :: rest) ↔
      Stack.Settled program w (frames ++ [.activationEnd a]) ∧ rest.Settled program w := by
  induction frames with
  | nil => exact ⟨fun h => ⟨⟨trivial, trivial⟩, h.2⟩, fun h => ⟨trivial, h.2⟩⟩
  | cons f frames ih =>
    simp only [List.cons_append, Stack.Settled, ih, setting_above_end frames a rest, and_assoc]

theorem IsSegment.setting_append (h : IsSegment code) (rest : Stack) :
    Stack.setting (code ++ rest) = code.setting := by
  obtain ⟨frames, a, rfl, -⟩ := h
  rw [List.append_assoc]
  exact setting_above_end ..

theorem IsSegment.settled_append (h : IsSegment code) :
    Stack.Settled program w (code ++ rest) ↔ code.Settled program w ∧ rest.Settled program w := by
  obtain ⟨frames, a, rfl, -⟩ := h
  rw [List.append_assoc]
  exact settled_above_end ..

theorem Stack.Settled.suffix (h : stack.Settled program w) (below : rest <:+ stack) :
    rest.Settled program w := by
  obtain ⟨upper, rfl⟩ := below
  induction upper with
  | nil => exact h
  | cons f upper ih => exact ih h.2

/-- What completes a group is met below it if it was met above it. -/
theorem ExitReason.Met.below {reason : ExitReason} {Γ : Setting} {f : Frame} (group : f.isPlain = false)
    (met : reason.Met program (Γ.above f).path) : reason.Met program Γ.path := by
  cases f <;> first | exact met | exact met.anywhere | contradiction

end Segments

/-! ### Steps of settled code -/

section Settling

variable {program : Node} {w : World} {c : Control} {f : Frame} {stack : Stack} {s s' : Running}

theorem confines_code (isCode : c.isCode = true) (before : Running.Settled program ⟨w, c, stack⟩)
    (next : Running.step ⟨w, c, stack⟩ = .next s') : s'.Confines program w stack := by
  cases c with
  | execute node scope =>
    rw [← Transition.next.inj next]
    exact .stays (stays_execute w stack before.control)
  | evaluate node scope =>
    rw [← Transition.next.inj next]
    exact .stays (stays_evaluate w stack before.control scope)
  | _ => contradiction

/-- A frame that belongs to no group confines its code.  Only what a drain that waits is told may end
more than the frame. -/
theorem confines_frame (outcome : c.isOutcome = true) (plain : f.isPlain = true)
    (before : Running.Settled program ⟨w, c, f :: stack⟩)
    (next : Running.step ⟨w, c, f :: stack⟩ = .next s') :
    s'.Confines program w stack ∨
      ∃ failure, f = .settling ∧ c = .raise failure ∧ failure.isException = false ∧
        s' = ⟨w, .raise failure, stack.belowDrive⟩ := by
  obtain ⟨belongs, -⟩ := before.stack
  cases c with
  | value v =>
    rw [← Transition.next.inj next]
    exact .inl (confines_onValue w stack before.world belongs plain v)
  | complete reason =>
    rw [← Transition.next.inj next]
    exact .inl (confines_onComplete w stack belongs plain before.control)
  | resumed v done =>
    rw [← Transition.next.inj next]
    exact .inl (.stays (stays_onResumed w stack belongs v done))
  | raise failure =>
    rw [← Transition.next.inj next]
    by_cases settling : f = .settling
    · subst settling
      rw [World.onRaise, World.pass]
      cases exception : failure.isException with
      | true => exact .inl (.stays (.here trivial))
      | false => exact .inr ⟨failure, rfl, rfl, exception, rfl⟩
    · exact .inl (confines_onRaise w stack belongs plain settling failure)
  | _ => contradiction

/-- Only the generators change. -/
theorem World.Settled.regenerated (hw : w.Settled program) (generators : Array GeneratorState)
    (h : ∀ g code, World.generator { w with generators := generators } g = .suspended code →
      code.Settled program w) : World.Settled program { w with generators := generators } where
  closures := hw.closures
  actions a x hx := (hw.actions a x hx).mono (.of_eq (by rfl))
  generators g code e := (h g code e).mono (.of_eq (by rfl))
  parked t code e := (hw.parked t code e).mono (.of_eq (by rfl))

theorem World.Settled.setGenerator (hw : w.Settled program) (g : Nat) {state : GeneratorState}
    (h : ∀ code, state = .suspended code → code.Settled program w) :
    (w.setGenerator g state).Settled program := by
  refine hw.regenerated _ fun g' code e => ?_
  rcases generator_setGenerator w g state g' with ⟨-, new | done⟩ | ⟨-, old⟩
  · exact h code (new.symm.trans e)
  · cases done.symm.trans e
  · exact hw.generators g' code (old.symm.trans e)

/-- The suspended code of a generator ends its body. -/
def World.KeepsSegments (w : World) : Prop := ∀ g code, w.generator g = .suspended code → IsSegment code

theorem settled_resume (hw : w.Settled program) (segments : w.KeepsSegments) (hs : stack.Settled program w)
    (g : Nat) (mode : ResumeMode) (v : Value) : (w.resume stack g mode v).Settled program := by
  have finished : ∀ {w' : World}, w'.Settled program → stack.Settled program w' →
      (resume.finished stack mode v w').Settled program := by
    intro w' hw hs
    cases mode <;> exact ⟨hw, hs, trivial⟩
  have running : (w.setGenerator g .running).Settled program := hw.setGenerator g fun _ e => by cases e
  have done : (w.setGenerator g .done).Settled program := hw.setGenerator g fun _ e => by cases e
  unfold World.resume
  split
  · exact ⟨hw, hs, trivial⟩
  · exact finished hw hs
  · rename_i closure arguments a e
    split
    · have started := stays_startBody _ (.generatorBoundary g :: stack) running closure a arguments
      exact started.settled running ⟨trivial, trivial, hs.mono (.of_eq (by rfl))⟩
    · exact finished done (hs.mono (.of_eq (by rfl)))
  · rename_i code e
    have resumed : Stack.Settled program (w.setGenerator g .running)
        (code ++ .generatorBoundary g :: stack) :=
      (segments g code e).settled_append.mpr
        ⟨(hw.generators g code e).mono (.of_eq (by rfl)), trivial, hs.mono (.of_eq (by rfl))⟩
    cases mode with
    | next | «return» => exact ⟨running, resumed, trivial⟩
    | throw =>
      simp only
      split
      · exact ⟨running, resumed, trivial⟩
      · exact ⟨done, hs.mono (.of_eq (by rfl)), trivial⟩

theorem Running.Confines.settled (h : s.Confines program w stack) (hw : w.Settled program)
    (segments : w.KeepsSegments) (hs : stack.Settled program w) : s.Settled program := by
  cases h with
  | stays h => exact h.settled hw hs
  | calls entered tops h => exact h.settled (entered.settled hw) ⟨trivial, tops.settled hs⟩
  | @makes w' closure arguments v heap upper entered closures tops =>
    have hw' := (entered.settled hw).heap heap closures
    refine ⟨hw'.regenerated _ fun g code e => ?_, (tops.settled hs).mono (.of_eq (by rfl)), trivial⟩
    simp only [World.generator, Array.getD_eq_getD_getElem?, Array.getElem?_push] at e
    split at e
    · cases e
    · refine hw'.generators g code ?_
      rwa [World.generator, Array.getD_eq_getD_getElem?]
  | @resumes w' upper g mode v touches tops =>
    refine settled_resume (touches.settled hw) (fun g code e => segments g code ?_) (tops.settled hs) g mode v
    rwa [World.generator, touches.minor.generators] at e

theorem settled_served {request : Request} (h : Served w stack request s) (hw : w.Settled program)
    (hs : stack.Settled program w) (belongs : request.Belongs program stack.setting) :
    s.Settled program := by
  have parked : ∀ {w' : World}, w'.heap = w.heap → w'.scopes = w.scopes → w'.activations = w.activations →
      w'.generators = w.generators →
      (∀ t code, (w'.loop.promise t).parked? = some code →
        (w.loop.promise t).parked? = some code ∨ code = .settling :: stack) →
      Running.Settled program ⟨w', .parked, []⟩ := by
    intro w' heap scopes activations generators h
    refine ⟨hw.relooped heap scopes activations generators fun t code e => (h t code e).imp_right ?_,
      trivial, trivial⟩
    rintro rfl
    exact ⟨trivial, hs⟩
  cases h with
  | @settled p outcome h =>
    have observed : ({ w with observed := p :: w.observed } : World).Settled program :=
      hw.relooped rfl rfl rfl rfl fun _ _ => .inl
    refine ⟨observed, ⟨trivial, hs.mono (.of_eq (by rfl))⟩, ?_⟩
    cases outcome <;> trivial
  | waits => exact parked rfl rfl rfl rfl fun t code e => Loop.parked_park e
  | own | turn => exact parked rfl rfl rfl rfl fun t code e => Loop.parked_hold e
  | drain a handle reason =>
    exact (stays_drain w (.settling :: stack) belongs.1 handle .async belongs.2).settled hw ⟨trivial, hs⟩
  | refused => exact ⟨hw, hs.suffix (belowDrive_suffix stack), trivial⟩

/-- **Main result.**  A step of settled code leads to settled code. -/
theorem Running.Settled.step [Node.MainRule] (before : s.Settled program) (orderly : s.Orderly)
    (next : s.step = .next s') : s'.Settled program := by
  have hw := before.world
  have hs := before.stack
  have segments : s.world.KeepsSegments := fun g code e => by
    have keeps := orderly.kept.generators g
    rw [e] at keeps
    exact keeps.1
  have reloop : ∀ {w' : World}, w'.heap = s.world.heap → w'.scopes = s.world.scopes →
      w'.activations = s.world.activations → w'.generators = s.world.generators →
      (∀ t code, (w'.loop.promise t).parked? = some code →
        (s.world.loop.promise t).parked? = some code ∨ code.Settled program s.world) →
      w'.Settled program := hw.relooped
  have idle : ∀ {w' : World}, w'.Settled program → Running.Settled program ⟨w', .parked, []⟩ :=
    fun hw => ⟨hw, trivial, trivial⟩
  have ofOutcome : ∀ {w' : World} {stack : Stack} (o : Outcome), w'.Settled program →
      stack.Settled program w' → Running.Settled program ⟨w', .ofOutcome o, stack⟩ := by
    intro w' stack o hw hs
    refine ⟨hw, hs, ?_⟩
    cases o <;> trivial
  have below : ∀ {b : Frame} {rest : Stack}, s.stack.fromBoundary = b :: rest →
      rest.Settled program s.world := fun e => hs.suffix (suffix_of_boundary e)
  have segment : ∀ {b : Frame} {rest : Stack}, s.stack.fromBoundary = b :: rest →
      s.control.needsCode = true → b ≠ .syncBoundary → b ≠ .asyncDrive →
      IsSegment s.stack.segment ∧ s.stack.segment.Settled program s.world ∧
        s.stack.segment.setting = s.stack.setting := by
    intro b rest e needs sync drive
    obtain ⟨b', rest', h⟩ := (orderly.isOpen needs).bounded
    obtain ⟨rfl, -⟩ := List.cons.inj (e.symm.trans h.boundary)
    have segment := h.isSegment sync drive
    have parts := s.stack.segment_append_fromBoundary
    have whole : Stack.Settled program s.world (s.stack.segment ++ s.stack.fromBoundary) := by rwa [parts]
    refine ⟨segment, (segment.settled_append.mp whole).1, ?_⟩
    rw [← segment.setting_append s.stack.fromBoundary, parts]
  cases orderly.moves next with
  | code isCode => exact (confines_code isCode before next).settled hw segments hs
  | frame outcome plain =>
    rcases confines_frame outcome plain before next with h | ⟨failure, -, -, -, rfl⟩
    · exact h.settled hw segments hs.2
    · exact ⟨hw, hs.2.suffix (belowDrive_suffix _), trivial⟩
  | @pass w c f stack outcome group =>
    refine ⟨hw, hs.2, ?_⟩
    cases c with
    | complete reason => exact ExitReason.Met.below group before.control
    | _ => trivial
  | callEnd o o' => exact ofOutcome o' (reloop rfl rfl rfl rfl fun _ _ => .inl) (hs.2.mono (.of_eq (by rfl)))
  | settled =>
    refine ⟨reloop rfl rfl rfl rfl fun t code e => .inl ?_, hs.2.mono (.of_eq (by rfl)), trivial⟩
    exact (Loop.parked_add e).elim id fun e => by cases e
  | @stepEnd w c c' g stack outcome =>
    refine ⟨hw.setGenerator g fun _ e => (by cases e), hs.2.mono (.of_eq (by rfl)), ?_⟩
    cases c' with
    | complete reason =>
      cases c with
      | execute | evaluate | suspend =>
        cases orderly.isOpen rfl with
        | frame plain => contradiction
        | action hb => rcases hb with hb | hb <;> contradiction
      | parked => exact absurd (orderly.fits.resolve_left id).2 (List.cons_ne_nil _ _)
      | value | resumed | raise => cases (Running.mk.inj (Transition.next.inj next)).2.1
      | complete =>
        obtain rfl := Control.complete.inj (Running.mk.inj (Transition.next.inj next)).2.1
        exact @ExitReason.Met.below program _ stack.setting (.generatorBoundary g) rfl before.control
    | _ => trivial
  | start h => exact settled_served h hw hs.2 hs.1
  | abandon => exact ⟨hw, hs.2.suffix (belowDrive_suffix _), trivial⟩
  | refuse boundary => exact ⟨hw, below boundary, trivial⟩
  | refuseStep boundary =>
    exact ⟨hw.setGenerator _ fun _ e => (by cases e), (below boundary).mono (.of_eq (by rfl)), trivial⟩
  | yield boundary =>
    obtain ⟨-, suspended, -⟩ := segment boundary rfl (by simp) (by simp)
    refine ⟨hw.setGenerator _ fun code e => ?_, (below boundary).mono (.of_eq (by rfl)), trivial⟩
    exact GeneratorState.suspended.inj e ▸ suspended
  | @spawn w request stack rest boundary =>
    obtain ⟨isSegment, taken, setting⟩ := segment boundary rfl (by simp) (by simp)
    have setting : Stack.setting (stack.segment ++ [.asyncDrive, .taskEnd w.loop.promises.size]) =
        stack.setting := (isSegment.setting_append _).trans setting
    refine ⟨reloop rfl rfl rfl rfl fun t code e => (Loop.parked_add e).imp_right fun e => ?_,
      (below boundary).mono (.of_eq (by rfl)), trivial⟩
    obtain rfl := Option.some.inj e
    refine ⟨?_, isSegment.settled_append.mpr ⟨taken, trivial, trivial, trivial⟩⟩
    show request.Belongs program (Stack.setting (stack.segment ++ _))
    rw [setting]
    exact before.control
  | serve boundary h => exact settled_served h hw hs before.control
  | nap =>
    refine idle (reloop rfl rfl rfl rfl fun t code e => (Loop.parked_rest e).imp_right ?_)
    rintro rfl
    exact hs.2
  | taskEnd =>
    refine idle (reloop rfl rfl rfl rfl fun t code e => .inl ?_)
    rwa [← Loop.parked_settle]
  | programEnd => exact idle (reloop rfl rfl rfl rfl fun _ _ => .inl)
  | resume _ h =>
    obtain ⟨parked, later⟩ := Loop.parked_resume h
    exact ofOutcome _ (reloop rfl rfl rfl rfl fun t code e => .inl (later t code e))
      ((hw.parked _ _ parked).mono (.of_eq (by rfl)))
  | internal _ h =>
    refine idle (reloop rfl rfl rfl rfl fun t code e => .inl ?_)
    rwa [← Loop.parked_internal h]

end Settling

/-! ### Settled runs -/

section Runs

variable {config : Config} {program : Node}

theorem touches_bindBuiltins (w : World) (scope : Nat) : w.Touches program (w.bindBuiltins scope) := by
  unfold World.bindBuiltins
  generalize globalNames = names
  induction names generalizing w with
  | nil => exact .refl w
  | cons entry names ih => exact ((touches_method entry.2).trans (touches_bind scope entry.1 _)).trans (ih _)

theorem touches_initial (config : Config) (program : Node) :
    World.Touches program { config, scopes := (Scopes.add {} { isFunction := true }).2 }
      (World.initial config) := by
  dsimp only [World.initial, Scopes.add]
  refine (touches_bindBuiltins _ outermost).trans ?_
  refine .trans ?_ (touches_bind ..)
  refine .trans ?_ (touches_bind ..)
  refine .trans ?_ (touches_bind ..)
  refine .trans ?_ (touches_bind ..)
  exact touches_same rfl

/-- A program starts with the code of its module, and its statements are around. -/
theorem start_stays (config : Config) (program : Node) :
    ∃ w : World, w.Settled program ∧ w.activations.size = 1 ∧ w.generators = #[] ∧
      (Running.start config program).Stays program w [.activationEnd 0, .asyncDrive, .programEnd] := by
  have hinitial := touches_initial config program
  unfold Running.start
  generalize World.initial config = initial at hinitial
  have hsize : initial.activations = #[] := hinitial.minor.activations
  have hgenerators : initial.generators = #[] := hinitial.minor.generators
  have hloop : initial.loop = {} := hinitial.minor.loop
  obtain ⟨w₀, hw₀⟩ : ∃ w₀ : World, w₀ = { initial with
      loop := (initial.loop.add {}).2, current := (initial.loop.add {}).1 } := ⟨_, rfl⟩
  obtain ⟨owner, howner⟩ : ∃ owner : Scope, owner =
    { parent := some outermost, activation := some initial.activations.size, isFunction := true } := ⟨_, rfl⟩
  obtain ⟨w, hw⟩ : ∃ w : World, w = { (w₀.newActivation mainName config.allowTopLevelAwait).2 with
      scopes := (initial.scopes.add owner).2 } := ⟨_, rfl⟩
  have hsettled : w.Settled program := by
    refine ⟨fun c hc => ?_, fun a x hx => ?_, fun g code e => ?_, fun t code e => ?_⟩
    · rw [hw, hw₀] at hc
      exact (hinitial.closures c hc).elim (fun hc => by simp at hc) id
    · have none : (w.registry a).arena.actions = [] := by
        rw [hw, hw₀]
        simp only [World.newActivation, World.registry, World.activation, hsize,
          Array.getD_eq_getD_getElem?]
        rcases a with - | a <;> rfl
      rw [none] at hx
      contradiction
    · have none : w.generator g = .done := by
        rw [hw, hw₀]
        simp only [World.newActivation, World.generator, hgenerators]
        rfl
      cases none.symm.trans e
    · rw [hw, hw₀] at e
      have parked := Loop.parked_add (show ((initial.loop.add {}).2.promise t).parked? = some code from e)
      rw [hloop, Loop.promise_of_size_le _ (Nat.zero_le t)] at parked
      rcases parked with parked | parked <;> cases parked
  refine ⟨w, hsettled, ?_, ?_, ?_⟩
  · rw [hw, hw₀]
    simp [World.newActivation, hsize]
  · rw [hw, hw₀]
    exact hgenerators
  · have keeps : Setting.Keeps program w
        (Stack.setting [.activationEnd initial.activations.size, .asyncDrive, .programEnd])
        initial.scopes.all.size program.children := by
      refine ⟨?_, fun n hn => .statement hn⟩
      rw [hw, howner]
      exact scopeIn_addScope _ rfl
    have stays := stays_enterFrame w _ .module program.span keeps (met_of_not_jump (r := .normal) rfl)
    have hzero : initial.activations.size = 0 := congrArg Array.size hsize
    rw [hw, hw₀, howner] at stays ⊢
    rw [← hzero]
    exact stays

/-- **Main result.**  In every state of every run, of whatever program, code is where it belongs. -/
theorem Run.settled {L : Ledger} {s : Running} (run : Run config program L s) :
    s.Settled program.withIdentities := by
  let _ : Node.MainRule := .any
  induction run with
  | start =>
    obtain ⟨w, hw, -, -, stays⟩ := start_stays config program.withIdentities
    exact stays.settled hw ⟨trivial, trivial, trivial, trivial⟩
  | step before next ih => exact ih.step (before.orderly fun _ _ => trivial) next
  | @reorder L w stack loop before other ih =>
    refine ⟨ih.world.relooped rfl rfl rfl rfl fun t code e => .inl ?_, ih.stack.mono (.of_eq (by rfl)), trivial⟩
    rwa [Loop.promise, other.promises, ← Loop.promise] at e

theorem Run.trace {L : Ledger} {s : Running} (run : Run config program L s) :
    ∃ before, Trace config program before s := by
  induction run with
  | start => exact ⟨[], .start⟩
  | step _ next ih =>
    obtain ⟨before, trace⟩ := ih
    exact ⟨_, trace.next (.step next)⟩
  | reorder _ other ih =>
    obtain ⟨before, trace⟩ := ih
    exact ⟨_, trace.next (.reorder other)⟩

end Runs

end ScopeExit.Script
