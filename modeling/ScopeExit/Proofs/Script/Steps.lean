import ScopeExit.Proofs.Script.Following
import ScopeExit.Proofs.Script.Run
/-!
What a step can do.

`Moves` says once, for every control and every frame, what the next state of a run may be: something
built on the stack, a frame taken off, a request refused or served, a task that starts, waits, sleeps or
ends, or the event loop going on.  Whatever else is to hold of all states of a run is proved by cases of
`Moves`; no later proof opens the machine again.

The first such fact is here.  In every state of every run, of whatever program, the frames stand on each
other as they should, and the statements that are kept suit their scopes.
-/
namespace ScopeExit.Script

open World Stack

/-! ### Requests -/

/-- What becomes of a request that the code of a task makes. -/
inductive Served (w : World) (stack : Stack) : Request → Running → Prop
  /-- A promise that is settled costs nothing. -/
  | settled {p : Nat} {outcome : Outcome} (h : w.loop.outcome? p = some outcome) :
      Served w stack (.await (.promise p))
        ⟨{ w with observed := p :: w.observed }, .ofOutcome outcome, .settling :: stack⟩
  | waits {p : Nat} (pending : w.loop.outcome? p = none) (other : p ≠ w.current) :
      Served w stack (.await (.promise p))
        ⟨{ w with
            observed := p :: w.observed
            loop := w.loop.park w.current (.settling :: stack) p }, .parked, []⟩
  /-- A task that waits for itself fails. -/
  | own (pending : w.loop.outcome? w.current = none) :
      Served w stack (.await (.promise w.current))
        ⟨{ w with
            observed := w.current :: w.observed
            loop := w.loop.giveWay w.current (.settling :: stack) (.error (.host .runtime)) },
          .parked, []⟩
  /-- What is no promise costs one turn. -/
  | turn {v : Value} (other : ∀ p, v ≠ .promise p) :
      Served w stack (.await v)
        ⟨{ w with loop := w.loop.giveWay w.current (.settling :: stack) (.ok v) }, .parked, []⟩
  | drain (a : Nat) (handle : FrameHandle) (reason : ExitReason) :
      Served w stack (.drain a handle reason) (w.drain (.settling :: stack) a handle .async reason)
  | refused (v : Value) (failure : Failure) :
      Served w stack (.yield v) ⟨w, .raise failure, stack.belowDrive⟩

section Requests

variable (w : World) (stack : Stack)

theorem refuse_eq (request : Request) (cause : Text → EvaluatorError) :
    ∃ failure, w.refuse stack request cause = ⟨w, .raise failure, stack⟩ := by
  unfold World.refuse World.attempt World.perform
  split
  · rename_i e
    rw [← (Prod.mk.inj e).2]
    exact ⟨_, rfl⟩
  · rename_i e
    rw [← (Prod.mk.inj e).2]
    exact ⟨_, rfl⟩

theorem served (request : Request) : Served w stack request (w.serve stack request) := by
  cases request with
  | await v =>
    cases v with
    | promise p =>
      simp only [World.serve, World.await]
      split
      · rename_i v h
        exact .settled h
      · rename_i failure h
        exact .settled h
      · rename_i h
        split
        · rename_i own
          subst own
          exact .own h
        · rename_i other
          exact .waits h other
    | _ => exact .turn fun p => nofun
  | yield v =>
    obtain ⟨failure, e⟩ := refuse_eq w stack.belowDrive (.yield v) .suspendedInAsync
    rw [World.serve, e]
    exact .refused v failure
  | drain a handle reason => exact .drain a handle reason

end Requests

/-! ### Steps -/

/-- Controls that ask for the next step of code. -/
def Control.isCode : Control → Bool
  | .execute .. | .evaluate .. => true
  | _ => false

/-- Controls that a frame takes. -/
def Control.isOutcome : Control → Bool
  | .value _ | .complete _ | .resumed .. | .raise _ => true
  | _ => false

/-- What belongs to a group and has no use for an outcome lets it pass. -/
def Frame.ignores : Frame → Control → Bool
  | .activationEnd _, _ | .syncBoundary, _ | .asyncDrive, _ => true
  | _, .resumed .. => true
  | .programEnd, _ => false
  | _, .complete _ => true
  | .taskStart _, .raise _ | .nap _, .raise _ => true
  | .asyncStart, .raise failure => !failure.isException
  | _, _ => false

/-- What a state may come to by one step. -/
inductive Running.Moves [Node.MainRule] : Running → Running → Prop
  | code {w : World} {c : Control} {stack : Stack} {s' : Running} (isCode : c.isCode = true)
      (h : s'.Follows w stack) : Moves ⟨w, c, stack⟩ s'
  | frame {w : World} {c : Control} {f : Frame} {stack : Stack} {s' : Running}
      (outcome : c.isOutcome = true) (plain : f.isPlain = true) (h : s'.Follows w stack) :
      Moves ⟨w, c, f :: stack⟩ s'
  | pass {w : World} {c : Control} {f : Frame} {stack : Stack} (outcome : c.isOutcome = true)
      (group : f.isPlain = false) (ignores : f.ignores c = true) :
      Moves ⟨w, c, f :: stack⟩ ⟨w, c, stack⟩
  | callEnd {w : World} (o o' : Outcome) {stack : Stack} :
      Moves ⟨w, .ofOutcome o, .callEnd :: stack⟩ ⟨{ w with depth := w.depth - 1 }, .ofOutcome o', stack⟩
  /-- The body of an asynchronous function has come to an end before its first suspension. -/
  | settled {w : World} {o : Outcome} {stack : Stack}
      (exception : ∀ f, o = .error f → f.isException = true) :
      Moves ⟨w, .ofOutcome o, .asyncStart :: stack⟩
        ⟨(w.settledPromise o).2, .value (.promise w.loop.promises.size), stack⟩
  | stepEnd {w : World} {c c' : Control} {g : Nat} {stack : Stack} (outcome : c'.isOutcome = true) :
      Moves ⟨w, c, .generatorBoundary g :: stack⟩ ⟨w.setGenerator g .done, c', stack⟩
  /-- The first step of a task. -/
  | start {w : World} {v : Value} {request : Request} {stack : Stack} {s' : Running}
      (h : Served w stack request s') : Moves ⟨w, .value v, .taskStart request :: stack⟩ s'
  /-- What no script can catch ends the code of the task that waited. -/
  | abandon {w : World} {failure : Failure} {stack : Stack} (fatal : failure.isException = false) :
      Moves ⟨w, .raise failure, .settling :: stack⟩ ⟨w, .raise failure, stack.belowDrive⟩
  | refuse {w : World} {request : Request} {stack rest : Stack} {failure : Failure}
      (boundary : stack.fromBoundary = .syncBoundary :: rest) :
      Moves ⟨w, .suspend request, stack⟩ ⟨w, .raise failure, rest⟩
  | refuseStep {w : World} {request : Request} {stack rest : Stack} {g : Nat} {failure : Failure}
      (boundary : stack.fromBoundary = .generatorBoundary g :: rest) :
      Moves ⟨w, .suspend request, stack⟩ ⟨w.setGenerator g .done, .raise failure, rest⟩
  | yield {w : World} {v : Value} {stack rest : Stack} {g : Nat}
      (boundary : stack.fromBoundary = .generatorBoundary g :: rest) :
      Moves ⟨w, .suspend (.yield v), stack⟩
        ⟨w.setGenerator g (.suspended stack.segment), .resumed v false, rest⟩
  /-- The code above the start of an asynchronous call becomes a task. -/
  | spawn {w : World} {request : Request} {stack rest : Stack}
      (boundary : stack.fromBoundary = .asyncStart :: rest) :
      Moves ⟨w, .suspend request, stack⟩
        ⟨(w.spawn fun task => .taskStart request :: stack.segment ++ [.asyncDrive, .taskEnd task]).2,
          .value (.promise w.loop.promises.size), rest⟩
  | serve {w : World} {request : Request} {stack rest : Stack} {s' : Running}
      (boundary : stack.fromBoundary = .asyncDrive :: rest) (h : Served w stack request s') :
      Moves ⟨w, .suspend request, stack⟩ s'
  | nap {w : World} {v : Value} {seconds : Float} {stack : Stack} :
      Moves ⟨w, .value v, .nap seconds :: stack⟩
        ⟨{ w with loop := w.loop.rest w.current stack seconds }, .parked, []⟩
  | taskEnd {w : World} {o : Outcome} {p : Nat} {stack : Stack} :
      Moves ⟨w, .ofOutcome o, .taskEnd p :: stack⟩ ⟨{ w with loop := w.loop.settle p o }, .parked, []⟩
  | programEnd {w : World} {c : Control} {stack : Stack} (failure? : Option Failure) :
      Moves ⟨w, c, .programEnd :: stack⟩ ⟨{ w with ending? := some failure? }, .parked, []⟩
  | resume {w : World} {c : Control} {stack code : Stack} {task : Nat} {o : Outcome} {loop : Loop Stack}
      (idle : c = .parked ∨ stack = []) (h : w.loop.next = .resume task code o loop) :
      Moves ⟨w, c, stack⟩ ⟨{ w with loop := loop, current := task }, .ofOutcome o, code⟩
  | internal {w : World} {c : Control} {stack : Stack} {loop : Loop Stack}
      (idle : c = .parked ∨ stack = []) (h : w.loop.next = .internal loop) :
      Moves ⟨w, c, stack⟩ ⟨{ w with loop := loop }, .parked, []⟩

/-! ### Orderly states -/

/-- Controls that only stand on code. -/
def Control.needsCode : Control → Bool
  | .execute .. | .evaluate .. | .suspend _ => true
  | _ => false

/-- The frames of a state stand where they may, the statements that are kept suit their scopes, and code
that is there goes on. -/
structure Running.Orderly [Node.MainRule] (s : Running) : Prop where
  kept : s.world.Kept
  fits : s.control.Fits s.world ∨ s.control = .parked ∧ s.stack = []
  frames : ∀ f ∈ s.stack, f.Fits s.world
  stands : Stands s.stack
  isOpen : s.control.needsCode = true → Open s.stack

/-- Where no code goes on, there is none. -/
theorem Running.Orderly.empty [Node.MainRule] {w : World} {c : Control} {stack : Stack}
    (h : Running.Orderly ⟨w, c, stack⟩) (idle : c = .parked ∨ stack = []) : stack = [] := by
  rcases idle with rfl | rfl
  · exact (h.fits.resolve_left id).2
  · rfl

/-! ### The nearest boundary -/

theorem Frame.isBoundary_of_plain {f : Frame} (plain : f.isPlain = true) : f.isBoundary = false := by
  cases f <;> first | contradiction | rfl

theorem belowDrive_subset (stack : Stack) : stack.belowDrive ⊆ stack := by
  induction stack with
  | nil => exact List.Subset.refl _
  | cons f stack ih =>
    unfold Stack.belowDrive
    split
    · contradiction
    · rename_i e
      rw [(List.cons.inj e).2]
      exact List.subset_cons_self ..
    · rename_i e
      rw [← (List.cons.inj e).2]
      exact List.subset_cons_of_subset _ ih

theorem segment_subset (stack : Stack) : stack.segment ⊆ stack := List.takeWhile_subset ..

/-- What stands below the nearest boundary. -/
theorem mem_of_boundary {b f : Frame} {stack rest : Stack} (h : stack.fromBoundary = b :: rest)
    (hf : f ∈ rest) : f ∈ stack := by
  rw [← stack.segment_append_fromBoundary, h]
  exact List.mem_append_right _ (List.mem_cons_of_mem _ hf)

/-- What stands between code and the nearest boundary, and below the boundary. -/
structure Stack.Bounded (stack : Stack) (b : Frame) (rest : Stack) : Prop where
  boundary : stack.fromBoundary = b :: rest
  isBoundary : b.isBoundary = true
  stands : Stands rest
  calls : calls stack.segment = 0
  /-- Only the code of an action does not go to the end of a body. -/
  isSegment : b ≠ .syncBoundary → b ≠ .asyncDrive → IsSegment stack.segment

theorem Stack.Open.bounded {stack : Stack} (h : Open stack) : ∃ b rest, stack.Bounded b rest := by
  induction h with
  | @frame f stack plain _ ih =>
    obtain ⟨b, rest, hb⟩ := ih
    have inside : (!f.isBoundary) = true := by simp [Frame.isBoundary_of_plain plain]
    have hsegment : Stack.segment (f :: stack) = f :: stack.segment := List.takeWhile_cons_of_pos inside
    have hfrom : Stack.fromBoundary (f :: stack) = stack.fromBoundary := List.dropWhile_cons_of_pos inside
    refine ⟨b, rest, hfrom.trans hb.boundary, hb.isBoundary, hb.stands, ?_, fun sync drive => ?_⟩
    · rw [hsegment, calls_plain _ plain, hb.calls]
    · obtain ⟨frames, a, e, hframes⟩ := hb.isSegment sync drive
      exact ⟨f :: frames, a, by rw [hsegment, e, List.cons_append], List.forall_mem_cons.mpr ⟨plain, hframes⟩⟩
  | @action b a d stack hb rest _ =>
    have stands : Stands (.draining a d :: stack) := .code (.frame rfl rest)
    rcases hb with rfl | rfl
    · exact ⟨_, _, rfl, rfl, stands, rfl, fun sync _ => absurd rfl sync⟩
    · exact ⟨_, _, rfl, rfl, stands, rfl, fun _ drive => absurd rfl drive⟩
  | @call a b stack hb rest _ =>
    have last : IsSegment [.activationEnd a] := ⟨[], a, rfl, List.forall_mem_nil _⟩
    rcases hb with rfl | rfl <;> exact ⟨_, _, rfl, rfl, .callEnd rest, rfl, fun _ _ => last⟩
  | @step a g stack rest _ =>
    exact ⟨_, _, rfl, rfl, .code rest, rfl, fun _ _ => ⟨[], a, rfl, List.forall_mem_nil _⟩⟩
  | @task a f bottom =>
    exact ⟨_, _, rfl, rfl, .bottom bottom, rfl, fun _ _ => ⟨[], a, rfl, List.forall_mem_nil _⟩⟩

/-- Below the code that drives itself. -/
theorem Stack.Open.belowDrive {stack : Stack} (h : Open stack) : Stands stack.belowDrive := by
  induction h with
  | @frame f stack plain _ ih =>
    have hbelow : Stack.belowDrive (f :: stack) = stack.belowDrive := by
      cases f <;> first | contradiction | rfl
    rw [hbelow]
    exact ih
  | action hb rest ih =>
    rcases hb with rfl | rfl
    · exact ih
    · exact .code (.frame rfl rest)
  | call hb _ ih => rcases hb with rfl | rfl <;> exact ih
  | step _ ih => exact ih
  | task bottom => exact .bottom bottom

theorem Stack.Stands.tail {f : Frame} {stack : Stack} (h : Stands (f :: stack)) : Stands stack := by
  cases h with
  | code h =>
    cases h with
    | frame _ rest => exact .code rest
    | action _ rest => exact .code (.frame rfl rest)
    | call hb rest => exact .boundary hb rest
    | step rest => exact .generator rest
    | task bottom => exact .drive bottom
  | boundary _ rest => exact .callEnd rest
  | start rest | callEnd rest | generator rest => exact .code rest
  | drive bottom => exact .bottom bottom
  | bottom => exact .empty
  | nap => exact .bottom rfl

/-- What a frame that belongs to no group stands on is code. -/
theorem Stack.Stands.isOpen {f : Frame} {stack : Stack} (h : Stands (f :: stack))
    (plain : f.isPlain = true) : Open stack := by
  cases h with
  | code h =>
    cases h with
    | frame _ rest => exact rest
    | action hb _ => rcases hb with rfl | rfl <;> contradiction
    | call | step | task => contradiction
  | boundary hb => rcases hb with rfl | rfl <;> contradiction
  | bottom bottom => cases f <;> contradiction
  | start | callEnd | generator | drive | nap => contradiction

/-- A task takes its first step on code. -/
theorem Stack.Stands.isOpen_start {request : Request} {stack : Stack}
    (h : Stands (.taskStart request :: stack)) : Open stack := by
  cases h with
  | code h =>
    cases h with
    | frame plain => contradiction
    | action hb => rcases hb with hb | hb <;> contradiction
  | boundary hb => rcases hb with hb | hb <;> contradiction
  | bottom bottom => contradiction
  | start rest => exact rest

section Moves

variable [Node.MainRule] {w : World} {f : Frame} {stack : Stack}

theorem moves_continue {c : Control} {s' : Running} (idle : c = .parked ∨ stack = [])
    (next : w.continue = .next s') : Running.Moves ⟨w, c, stack⟩ s' := by
  unfold World.continue at next
  split at next
  · contradiction
  · split at next
    · rename_i h
      rw [← Transition.next.inj next]
      exact .resume idle h
    · rename_i h
      rw [← Transition.next.inj next]
      exact .internal idle h
    · contradiction

theorem moves_onValue (hk : w.Kept) (fits : f.Fits w) (v : Value) :
    Running.Moves ⟨w, .value v, f :: stack⟩ (w.onValue stack v f) := by
  by_cases plain : f.isPlain = true
  · exact .frame rfl plain (follows_onValue _ _ hk plain fits v)
  · cases f with
    | taskStart request => exact .start (served w stack request)
    | activationEnd | syncBoundary | asyncDrive => exact .pass rfl rfl rfl
    | callEnd => exact .callEnd (.ok v) (.ok v)
    | asyncStart => exact .settled (o := .ok v) nofun
    | generatorBoundary => exact .stepEnd rfl
    | nap => exact .nap
    | taskEnd => exact .taskEnd (o := .ok v)
    | programEnd => exact .programEnd none
    | _ => exact absurd rfl plain

theorem moves_onComplete (hk : w.Kept) (fits : f.Fits w) (reason : ExitReason) :
    Running.Moves ⟨w, .complete reason, f :: stack⟩ (w.onComplete stack reason f) := by
  by_cases plain : f.isPlain = true
  · exact .frame rfl plain (follows_onComplete _ _ hk plain fits reason)
  · cases f with
    | activationEnd | syncBoundary | asyncDrive | callEnd | asyncStart | generatorBoundary | taskStart
    | nap | taskEnd => exact .pass rfl rfl rfl
    | programEnd => exact .programEnd none
    | _ => exact absurd rfl plain

theorem moves_onResumed (fits : f.Fits w) (v : Value) (done : Bool) :
    Running.Moves ⟨w, .resumed v done, f :: stack⟩ (w.onResumed stack v done f) := by
  by_cases plain : f.isPlain = true
  · exact .frame rfl plain (follows_onResumed _ _ fits v done)
  · cases f with
    | activationEnd | syncBoundary | asyncDrive | callEnd | asyncStart | generatorBoundary | taskStart
    | nap | taskEnd | programEnd => exact .pass rfl rfl rfl
    | _ => exact absurd rfl plain

theorem moves_onRaise (hk : w.Kept) (fits : f.Fits w) (failure : Failure) :
    Running.Moves ⟨w, .raise failure, f :: stack⟩ (w.onRaise stack failure f) := by
  by_cases plain : f.isPlain = true
  · by_cases settling : f = .settling
    · subst settling
      simp only [World.onRaise, World.pass]
      by_cases exception : failure.isException = true
      · rw [if_pos exception]
        exact .frame rfl rfl (.of_builds (.here rfl))
      · rw [if_neg exception]
        exact .abandon (by simpa using exception)
    · exact .frame rfl plain (follows_onRaise _ _ hk plain settling fits failure)
  · cases f with
    | activationEnd | syncBoundary | asyncDrive | taskStart | nap => exact .pass rfl rfl rfl
    | callEnd => exact .callEnd (.error failure) (.error _)
    | asyncStart =>
      simp only [World.onRaise, World.pass]
      split
      · rename_i exception
        exact .settled (o := .error failure) fun f e => Except.error.inj e ▸ exception
      · rename_i fatal
        exact .pass rfl rfl (by simpa [Frame.ignores] using fatal)
    | generatorBoundary => exact .stepEnd rfl
    | taskEnd => exact .taskEnd (o := .error failure)
    | programEnd => exact .programEnd (some failure)
    | _ => exact absurd rfl plain

theorem moves_suspend (code : Open stack) (request : Request) :
    Running.Moves ⟨w, .suspend request, stack⟩ (w.suspend stack request) := by
  obtain ⟨b, rest, h⟩ := code.bounded
  have boundary := h.boundary
  cases b with
  | syncBoundary =>
    obtain ⟨failure, e⟩ := refuse_eq w rest request .suspendedInSync
    simp only [World.suspend, boundary, e]
    exact .refuse boundary
  | generatorBoundary g =>
    cases request with
    | yield v =>
      simp only [World.suspend, boundary]
      exact .yield boundary
    | await | drain =>
      simp only [World.suspend, boundary]
      obtain ⟨failure, e⟩ := refuse_eq (w.setGenerator g .done) rest _
        (.suspendedGenerator (w.heap.generatorName g))
      rw [e]
      exact .refuseStep boundary
  | asyncStart =>
    simp only [World.suspend, boundary]
    exact .spawn boundary
  | asyncDrive =>
    simp only [World.suspend, boundary]
    exact .serve boundary (served w stack request)
  | _ => exact absurd h.isBoundary (by simp [Frame.isBoundary])

/-- **Main result.**  A step of an orderly state is one of the moves. -/
theorem Running.Orderly.moves {s s' : Running} (h : s.Orderly) (next : s.step = .next s') :
    s.Moves s' := by
  obtain ⟨w, c, stack⟩ := s
  cases c with
  | execute node scope =>
    rw [← Transition.next.inj next]
    have fits := h.fits.resolve_right fun e => Control.noConfusion e.1
    exact .code rfl (follows_execute _ _ _ fits)
  | evaluate node scope =>
    rw [← Transition.next.inj next]
    exact .code rfl (follows_evaluate ..)
  | suspend request =>
    rw [← Transition.next.inj next]
    exact moves_suspend (h.isOpen rfl) request
  | parked => exact moves_continue (.inl rfl) next
  | value v =>
    cases stack with
    | nil => exact moves_continue (.inr rfl) next
    | cons f stack =>
      rw [← Transition.next.inj next]
      exact moves_onValue h.kept (h.frames f (by simp)) v
  | complete reason =>
    cases stack with
    | nil => exact moves_continue (.inr rfl) next
    | cons f stack =>
      rw [← Transition.next.inj next]
      exact moves_onComplete h.kept (h.frames f (by simp)) reason
  | resumed v done =>
    cases stack with
    | nil => exact moves_continue (.inr rfl) next
    | cons f stack =>
      rw [← Transition.next.inj next]
      exact moves_onResumed (h.frames f (by simp)) v done
  | raise failure =>
    cases stack with
    | nil => exact moves_continue (.inr rfl) next
    | cons f stack =>
      rw [← Transition.next.inj next]
      exact moves_onRaise h.kept (h.frames f (by simp)) failure

end Moves

/-! ### Orderly states stay orderly -/

section Keeping

variable [Node.MainRule] {w w' : World} {c : Control} {stack : Stack} {s s' : Running}

/-- Only the loop changes, and it keeps no code but what may go on. -/
theorem World.Kept.relooped (hk : w.Kept) (scopes : w'.scopes = w.scopes)
    (activations : w'.activations = w.activations) (generators : w'.generators = w.generators)
    (parked : ∀ t code, (w'.loop.promise t).parked? = some code →
      (w.loop.promise t).parked? = some code ∨ Stands code ∧ ∀ f ∈ code, f.Fits w) : w'.Kept := by
  have owners : w.KeepsOwners w' := fun i hi => by rwa [scopes] at hi
  refine hk.mono owners (Nat.le_of_eq (congrArg Array.size activations.symm)) ?_ ?_ ?_
  · intro a
    rw [World.registry, World.activation, activations]
    exact hk.actions a
  · intro g
    rw [World.generator, generators]
    exact hk.generators g
  · intro t code e
    exact (parked t code e).elim (hk.parked t code) id

/-- An outcome on a stack that stands. -/
theorem Running.Orderly.outcome (kept : w'.Kept) (owners : w.KeepsOwners w')
    (outcome : c.isOutcome = true) (frames : ∀ f ∈ stack, f.Fits w) (stands : Stands stack) :
    Running.Orderly ⟨w', c, stack⟩ where
  kept := kept
  fits := .inl (by cases c <;> trivial)
  frames f hf := (frames f hf).mono owners
  stands := stands
  isOpen needs := by cases c <;> contradiction

/-- No code is running. -/
theorem Running.Orderly.idle (kept : w.Kept) : Running.Orderly ⟨w, .parked, []⟩ where
  kept := kept
  fits := .inr ⟨rfl, rfl⟩
  frames := List.forall_mem_nil _
  stands := .empty
  isOpen needs := Bool.noConfusion needs

theorem Running.Follows.orderly (h : s.Follows w stack) (hk : w.Kept) (code : Open stack)
    (frames : ∀ f ∈ stack, f.Fits w) : s.Orderly := by
  obtain ⟨upper, hstack, pile, fits, -⟩ := h.grows
  have hopen : Open s.stack := hstack ▸ pile.isOpen code
  refine ⟨h.evolves.kept hk, .inl h.fits, fun f hf => ?_, .code hopen, fun _ => hopen⟩
  rw [hstack] at hf
  exact (List.mem_append.mp hf).elim (fits f) fun hf => (frames f hf).mono h.evolves.owners

theorem Served.orderly {request : Request} (h : Served w stack request s) (hk : w.Kept)
    (code : Open stack) (frames : ∀ f ∈ stack, f.Fits w) : s.Orderly := by
  have hopen : Open (.settling :: stack) := .frame rfl code
  have hframes : ∀ f ∈ Frame.settling :: stack, f.Fits w := List.forall_mem_cons.mpr ⟨trivial, frames⟩
  have parked : ∀ {w' : World}, w'.scopes = w.scopes → w'.activations = w.activations →
      w'.generators = w.generators →
      (∀ t code, (w'.loop.promise t).parked? = some code →
        (w.loop.promise t).parked? = some code ∨ code = .settling :: stack) →
      Running.Orderly ⟨w', .parked, []⟩ := by
    intro w' scopes activations generators h
    refine .idle (hk.relooped scopes activations generators fun t code e => (h t code e).imp_right ?_)
    rintro rfl
    exact ⟨.code hopen, hframes⟩
  cases h with
  | @settled p outcome h =>
    have kept : ({ w with observed := p :: w.observed } : World).Kept :=
      hk.relooped rfl rfl rfl fun _ _ => .inl
    refine .outcome kept (fun _ => id) ?_ hframes (.code hopen)
    cases outcome <;> rfl
  | waits => exact parked rfl rfl rfl fun t code e => Loop.parked_park e
  | own | turn => exact parked rfl rfl rfl fun t code e => Loop.parked_hold e
  | drain a handle reason => exact (follows_drain w _ a handle .async reason hk).orderly hk hopen hframes
  | refused =>
    exact .outcome hk (fun _ => id) rfl (fun f hf => frames f (belowDrive_subset _ hf)) code.belowDrive

/-- **Main result.**  A step of an orderly state leads to an orderly state. -/
theorem Running.Moves.orderly (h : s.Moves s') (before : s.Orderly) : s'.Orderly := by
  have hk := before.kept
  have frames := before.frames
  have stands := before.stands
  have tail : ∀ {f : Frame} {stack : Stack}, s.stack = f :: stack →
      Stands stack ∧ ∀ g ∈ stack, g.Fits s.world := by
    intro f stack e
    rw [e] at frames stands
    exact ⟨stands.tail, (List.forall_mem_cons.mp frames).2⟩
  have below : ∀ {b : Frame} {rest : Stack}, s.stack.fromBoundary = b :: rest →
      s.control.needsCode = true → Stands rest ∧ ∀ f ∈ rest, f.Fits s.world := by
    intro b rest e needs
    obtain ⟨b', rest', h⟩ := (before.isOpen needs).bounded
    obtain ⟨-, rfl⟩ := List.cons.inj (e.symm.trans h.boundary)
    exact ⟨h.stands, fun f hf => frames f (mem_of_boundary e hf)⟩
  have ofOutcome : ∀ o : Outcome, (Control.ofOutcome o).isOutcome = true := by
    intro o
    cases o <;> rfl
  cases h with
  | @code w c stack s' isCode h =>
    refine h.orderly hk (before.isOpen ?_) frames
    cases c <;> first | rfl | contradiction
  | frame _ plain h => exact h.orderly hk (stands.isOpen plain) (tail rfl).2
  | pass outcome => exact .outcome hk (fun _ => id) outcome (tail rfl).2 (tail rfl).1
  | @callEnd w o o' stack =>
    have kept : ({ w with depth := w.depth - 1 } : World).Kept := hk.relooped rfl rfl rfl fun _ _ => .inl
    exact .outcome kept (fun _ => id) (ofOutcome o') (tail rfl).2 (tail rfl).1
  | @settled w o stack =>
    have kept : (w.settledPromise o).2.Kept := by
      refine hk.relooped rfl rfl rfl fun t code e => .inl ?_
      exact (Loop.parked_add e).elim id fun e => by cases e
    exact .outcome kept (fun _ => id) rfl (tail rfl).2 (tail rfl).1
  | @stepEnd w c c' g stack outcome =>
    have hdone := (evolves_setGenerator (w := w) g fun _ => trivial : Evolves w (w.setGenerator g .done))
    exact .outcome (hdone.kept hk) hdone.owners outcome (tail rfl).2 (tail rfl).1
  | start h => exact h.orderly hk stands.isOpen_start (tail rfl).2
  | @abandon w failure stack =>
    exact .outcome hk (fun _ => id) rfl (fun f hf => (tail rfl).2 f (belowDrive_subset _ hf))
      (stands.isOpen rfl).belowDrive
  | refuse boundary =>
    exact .outcome hk (fun _ => id) rfl (below boundary rfl).2 (below boundary rfl).1
  | @refuseStep w request stack rest g failure boundary =>
    have hdone := (evolves_setGenerator (w := w) g fun _ => trivial : Evolves w (w.setGenerator g .done))
    exact .outcome (hdone.kept hk) hdone.owners rfl (below boundary rfl).2 (below boundary rfl).1
  | @yield w v stack rest g boundary =>
    obtain ⟨b, rest', h⟩ := (before.isOpen rfl).bounded
    obtain ⟨rfl, -⟩ := List.cons.inj (boundary.symm.trans h.boundary)
    have segment : IsSegment stack.segment := h.isSegment (by simp) (by simp)
    have suspended : Evolves w (w.setGenerator g (.suspended stack.segment)) :=
      evolves_setGenerator g fun _ => ⟨segment, fun f hf => frames f (segment_subset _ hf)⟩
    exact .outcome (suspended.kept hk) suspended.owners rfl (below boundary rfl).2 (below boundary rfl).1
  | @spawn w request stack rest boundary =>
    obtain ⟨b, rest', h⟩ := (before.isOpen rfl).bounded
    obtain ⟨rfl, -⟩ := List.cons.inj (boundary.symm.trans h.boundary)
    obtain ⟨inner, a, e, plain⟩ := h.isSegment (by simp) (by simp)
    have fits : ∀ f ∈ inner ++ [.activationEnd a], f.Fits w := fun f hf =>
      frames f (segment_subset _ (e ▸ hf))
    have hopen : Open (inner ++ [.activationEnd a, .asyncDrive, .taskEnd w.loop.promises.size]) := by
      clear e fits
      induction inner with
      | nil => exact .task rfl
      | cons f inner ih =>
        exact .frame (plain f (by simp)) (ih fun f hf => plain f (List.mem_cons_of_mem _ hf))
    have kept : (w.spawn fun task => .taskStart request :: stack.segment ++ [.asyncDrive, .taskEnd task]).2.Kept := by
      refine hk.relooped rfl rfl rfl fun t code hcode => (Loop.parked_add hcode).imp_right ?_
      intro hcode
      obtain rfl := Option.some.inj hcode
      rw [e]
      refine ⟨?_, ?_⟩
      · have stands : Stands (.taskStart request ::
            (inner ++ [.activationEnd a, .asyncDrive, .taskEnd w.loop.promises.size])) := .start hopen
        simpa using stands
      · intro f hf
        rcases List.mem_append.mp hf with hf | hf
        · rcases List.mem_cons.mp hf with rfl | hf
          · trivial
          · exact fits f hf
        · rcases List.mem_cons.mp hf with rfl | hf
          · trivial
          · rw [List.mem_singleton.mp hf]
            trivial
    exact .outcome kept (fun _ => id) rfl (below boundary rfl).2 (below boundary rfl).1
  | serve boundary h => exact h.orderly hk (before.isOpen rfl) frames
  | @nap w v seconds stack =>
    refine .idle (hk.relooped rfl rfl rfl fun t code e => (Loop.parked_rest e).imp_right ?_)
    rintro rfl
    exact tail rfl
  | taskEnd =>
    refine .idle (hk.relooped rfl rfl rfl fun t code e => .inl ?_)
    rwa [← Loop.parked_settle]
  | programEnd => exact .idle (hk.relooped rfl rfl rfl fun _ _ => .inl)
  | @resume w c stack code task o loop _ h =>
    obtain ⟨parked, later⟩ := Loop.parked_resume h
    have kept : ({ w with loop := loop, current := task } : World).Kept :=
      hk.relooped rfl rfl rfl fun t code e => .inl (later t code e)
    exact .outcome kept (fun _ => id) (ofOutcome o) (hk.parked task code parked).2
      (hk.parked task code parked).1
  | internal _ h =>
    refine .idle (hk.relooped rfl rfl rfl fun t code e => .inl ?_)
    rwa [← Loop.parked_internal h]

theorem Served.config {request : Request} (h : Served w stack request s) (hk : w.Kept) :
    s.world.config = w.config := by
  cases h with
  | drain a handle reason => exact (follows_drain w _ a handle .async reason hk).evolves.config
  | _ => rfl

/-- A run never changes how it is run. -/
theorem Running.Moves.config (h : s.Moves s') (hk : s.world.Kept) : s'.world.config = s.world.config := by
  cases h with
  | code _ h | frame _ _ h => exact h.evolves.config
  | start h | serve _ h => exact h.config hk
  | _ => rfl

end Keeping

/-! ### Whole runs -/

section Runs

theorem minor_bindBuiltins (w : World) (scope : Nat) : Minor w (w.bindBuiltins scope) := by
  unfold World.bindBuiltins
  generalize globalNames = names
  induction names generalizing w with
  | nil => exact .refl w
  | cons entry names ih => exact ((minor_method entry.2).trans (minor_bind scope entry.1 _)).trans (ih _)

theorem minor_initial (config : Config) :
    Minor { config, scopes := (Scopes.add {} { isFunction := true }).2 } (World.initial config) := by
  dsimp only [World.initial, Scopes.add]
  refine (minor_bindBuiltins _ outermost).trans ?_
  refine .trans ?_ (minor_bind _ _ _)
  refine .trans ?_ (minor_bind _ _ _)
  refine .trans ?_ (minor_bind _ _ _)
  refine .trans ?_ (minor_bind _ _ _)
  exact minor_heap _

/-- The names of built-in functions belong to no activation, and binding them is no drain. -/
theorem bindBuiltins_eq (w : World) (scope : Nat) : (w.bindBuiltins scope).ledger = w.ledger ∧
    ∀ i, (w.bindBuiltins scope).scopes.activation i = w.scopes.activation i := by
  unfold World.bindBuiltins
  generalize globalNames = names
  induction names generalizing w with
  | nil => exact ⟨rfl, fun _ => rfl⟩
  | cons entry names ih =>
    obtain ⟨ledger, owners⟩ := ih (((w.method entry.2).2).bind scope entry.1 (w.method entry.2).1)
    exact ⟨ledger, fun i => (owners i).trans (activation_bind ..)⟩

theorem ledger_initial (config : Config) : (World.initial config).ledger = (#[], 0, 0, 0) := by
  have bound := (bindBuiltins_eq { config, scopes := (Scopes.add {} { isFunction := true }).2 } outermost).1
  dsimp only [World.initial, Scopes.add] at bound ⊢
  generalize World.bindBuiltins _ _ = w at bound ⊢
  simp only [World.ledger_bind]
  exact bound

/-- No scope belongs to an activation yet. -/
theorem activation_initial (config : Config) (i : Nat) : (World.initial config).scopes.activation i = 0 := by
  dsimp only [World.initial, Scopes.add]
  simp only [World.bind, activation_bind]
  refine ((bindBuiltins_eq _ _).2 i).trans ((activation_add {} { isFunction := true } i).trans ?_)
  split <;> rfl

variable [Node.MainRule]

/-- A world in which only the activation of the module has come to be. -/
structure World.Blank (config : Config) (w : World) : Prop where
  config : w.config = config
  kept : w.Kept
  loop : w.loop = (Loop.add {} {}).2
  tracked : w.tracked = #[]
  observed : w.observed = []
  depth : w.depth = 0
  current : w.current = 0
  ending : w.ending? = none
  ledger : w.ledger = (#[], 0, 0, 0)
  accounted : w.Accounted

/-- A program whose statements the rule admits starts on the stack of the module. -/
theorem builds_start (known : Prop) (config : Config) (program : Node)
    (admits : ∀ n ∈ program.children, Node.MainRule.admits n) :
    ∃ w, World.Blank config w ∧
      (Running.start config program).Builds known w [.activationEnd 0, .asyncDrive, .programEnd] := by
  have hinitial := minor_initial config
  have hledger := ledger_initial config
  have howners := activation_initial config
  unfold Running.start
  generalize World.initial config = initial at hinitial hledger howners
  have hsize : initial.activations.size = 0 := by
    rw [hinitial.activations]
    rfl
  obtain ⟨w₀, hw₀⟩ : ∃ w₀ : World, w₀ = { initial with
      loop := (initial.loop.add {}).2, current := (initial.loop.add {}).1 } := ⟨_, rfl⟩
  obtain ⟨owner, howner⟩ : ∃ owner : Scope, owner =
    { parent := some outermost, activation := some initial.activations.size, isFunction := true } := ⟨_, rfl⟩
  obtain ⟨w, hw⟩ : ∃ w : World, w = { (w₀.newActivation mainName config.allowTopLevelAwait).2 with
      scopes := (initial.scopes.add owner).2 } := ⟨_, rfl⟩
  have hregistry : ∀ a, (w.registry a).frames = [] ∧ (w.registry a).arena.actions = [] := by
    intro a
    rw [hw, hw₀]
    simp only [World.newActivation, World.registry, World.activation, hinitial.activations,
      Array.getD_eq_getD_getElem?]
    rcases a with - | a <;> exact ⟨rfl, rfl⟩
  have hgenerators : ∀ g, w.generator g = .done := by
    intro g
    rw [hw, hw₀]
    simp only [World.newActivation, World.generator, hinitial.generators]
    rfl
  have hloop : w.loop = (Loop.add {} {}).2 := by
    rw [hw, hw₀]
    exact congrArg (fun l : Loop Stack => (l.add {}).2) hinitial.loop
  have hparked : ∀ t, (w.loop.promise t).parked? = none := by
    intro t
    cases e : (w.loop.promise t).parked? with
    | none => rfl
    | some code =>
      rw [hloop] at e
      exact (Loop.parked_add e).elim (fun e => by cases e) fun e => by cases e
  have hk : w.Kept := by
    refine ⟨?_, fun a x hx => ?_, fun g => ?_, fun t code e => ?_⟩
    · rw [hw]
      simp [World.newActivation]
    · rw [(hregistry a).2] at hx
      contradiction
    · rw [hgenerators]
      trivial
    · cases (hparked t).symm.trans e
  have accounted : w.Accounted := by
    refine ⟨fun a => ?_, fun i => ?_, fun g code e => ?_, fun t code e => ?_⟩
    · have none := (hregistry a).1
      exact ⟨none ▸ List.nodup_nil, none ▸ List.forall_mem_nil _⟩
    · refine Nat.lt_of_le_of_lt (Nat.le_of_eq ?_) hk.main
      rw [hw]
      refine (activation_add ..).trans ?_
      rw [howner]
      split
      · exact hsize
      · exact howners i
    · cases (hgenerators g).symm.trans e
    · cases (hparked t).symm.trans e
  refine ⟨w, ⟨?_, hk, hloop, ?_, ?_, ?_, ?_, ?_, ?_, accounted⟩, ?_⟩
  · rw [hw, hw₀]
    exact hinitial.config
  · rw [hw, hw₀]
    exact hinitial.tracked
  · rw [hw, hw₀]
    exact hinitial.observed
  · rw [hw, hw₀]
    exact hinitial.depth
  · rw [hw, hw₀]
    exact congrArg (fun l : Loop Stack => l.promises.size) hinitial.loop
  · rw [hw, hw₀]
    exact hinitial.ending
  · rw [hw, hw₀]
    exact hledger
  · have hstart : Running.Builds known w _ _ := builds_enterFrame w
      [.activationEnd initial.activations.size, .asyncDrive, .programEnd] .module program.span initial.scopes.all.size rfl receives_normal fun _ => admits
    rw [hw, hw₀, howner] at hstart ⊢
    rw [← hsize]
    exact hstart

theorem follows_start (config : Config) (program : Node)
    (admits : ∀ n ∈ program.children, Node.MainRule.admits n) :
    ∃ w, World.Blank config w ∧
      (Running.start config program).Follows w [.activationEnd 0, .asyncDrive, .programEnd] := by
  obtain ⟨w, blank, builds⟩ := builds_start False config program admits
  exact ⟨w, blank, .of_builds builds⟩

/-- A program whose statements the rule admits starts in an orderly state. -/
theorem orderly_start (config : Config) {program : Node}
    (admits : ∀ n ∈ program.children, Node.MainRule.admits n) :
    (Running.start config program).Orderly := by
  obtain ⟨w, blank, follows⟩ := follows_start config program admits
  exact follows.orderly blank.kept (.task rfl) (by simp [Frame.Fits])

/-- Every state of every run is orderly. -/
theorem Run.orderly {config : Config} {program : Node}
    (admits : ∀ n ∈ program.withIdentities.children, Node.MainRule.admits n) {L : Ledger} {s : Running}
    (run : Run config program L s) : s.Orderly := by
  induction run with
  | start => exact orderly_start config admits
  | step _ next ih => exact (ih.moves next).orderly ih
  | @reorder L w stack loop before other ih =>
    have kept : ({ w with loop := loop } : World).Kept := by
      refine ih.kept.relooped rfl rfl rfl fun t code e => .inl ?_
      rwa [Loop.promise, other.promises, ← Loop.promise] at e
    obtain rfl : stack = [] := ih.empty (.inl rfl)
    exact .idle kept

omit [Node.MainRule] in
theorem Run.config_eq {config : Config} {program : Node} {L : Ledger} {s : Running}
    (run : Run config program L s) : s.world.config = config := by
  let _ : Node.MainRule := .any
  induction run with
  | start =>
    obtain ⟨w, blank, follows⟩ := follows_start config program.withIdentities fun _ _ => trivial
    exact follows.evolves.config.trans blank.config
  | step before next ih =>
    have orderly := before.orderly fun _ _ => trivial
    exact ((orderly.moves next).config orderly.kept).trans ih
  | reorder _ _ ih => exact ih

end Runs

end ScopeExit.Script
