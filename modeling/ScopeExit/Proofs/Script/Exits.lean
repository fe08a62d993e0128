import ScopeExit.Proofs.Engine.Failure
import ScopeExit.Proofs.Engine.Refusal
import ScopeExit.Proofs.Script.Discipline
import ScopeExit.Proofs.Script.Pieces
/-!
How code leaves its frames.

A piece of code below a frame waits while the code in the frame runs, while the frame is drained, at once
or by a task, and while each action of the drain runs.  What it gets in the end is what the code in the
frame came to, or a failure of the drain; it is never a request to return from a generator, which the frame
has turned into a completion.

What goes on above a piece of code takes many steps of a run, and steps that are about other code come in
between.  `Goes` says how such a process gets on: from stage to stage, by turns that are told apart.
-/
namespace ScopeExit

/-! ### Failures that can be caught -/

/-- What fails can be caught: it is no request to leave. -/
def Catchable {α : Type} (r : Except Failure α) : Prop := ∀ f, r = .error f → f.isException = true

section Catchable

variable {α γ β : Type} {r : Registry β} {h : FrameHandle} {d : Drain}

theorem Catchable.ok (x : α) : Catchable (.ok x : Except Failure α) := fun _ e => (by cases e)

theorem Catchable.error {f : Failure} (exception : f.isException = true) :
    Catchable (.error f : Except Failure α) := fun _ e => Except.error.inj e ▸ exception

theorem Catchable.bind {x : Except Failure α} {f : α → Except Failure γ} (hx : Catchable x)
    (hf : ∀ y, Catchable (f y)) : Catchable (x >>= f) := by
  cases x with
  | ok y => exact hf y
  | error failure => exact .error (hx failure rfl)

theorem Catchable.ite {p : Prop} [Decidable p] {x y : Except Failure α} (hx : Catchable x) (hy : Catchable y) :
    Catchable (if p then x else y) := by
  by_cases h : p
  · rwa [if_pos h]
  · rwa [if_neg h]

variable (r h)

theorem catchable_frame : Catchable (r.frame h) := by
  unfold Registry.frame
  refine .ite (.error rfl) ?_
  split
  · exact .ite (.ok _) (.error rfl)
  · exact .error rfl

theorem catchable_innermostFrame (verb : FrameVerb) : Catchable (r.innermostFrame h verb) :=
  (catchable_frame r h).bind fun _ => .ite (.ok _) (.error rfl)

theorem catchable_hasAsyncActions : Catchable (r.hasAsyncActions h) := (catchable_frame r h).bind fun _ => .ok _

theorem catchable_pending : Catchable (r.pending h) := by
  refine (catchable_frame r h).bind fun f => ?_
  split <;> exact .ok _

theorem catchable_exit : Catchable (r.exit h) :=
  (catchable_innermostFrame r h _).bind fun _ => (catchable_pending r h).bind fun _ => .ite (.error rfl) (.ok _)

theorem catchable_popAction : Catchable (r.popAction h) := by
  refine (catchable_frame r h).bind fun f => .ite (.error rfl) ?_
  split <;> exact .ok _

theorem catchable_finishDrain : Catchable (r.finishDrain h) := (catchable_frame r h).bind fun _ => .ok _

theorem catchable_start (mode : ActionMode) (reason : ExitReason) : Catchable (Drain.start r h mode reason) := by
  intro f e
  cases (Registry.start_error_iff reason).mp e with
  | lost e => exact catchable_frame r h f e
  | async | around | begun => rfl

variable (d)

theorem catchable_close {result : Except Failure DrainOutcome} (hr : Catchable result) :
    Catchable (d.close r result).1 := by
  unfold Drain.close
  split
  · exact hr
  · rename_i failure e
    exact .error (catchable_finishDrain r d.handle failure e)

/-- What a drain does next keeps the exit reason that is pending, and what it ends with is that reason, a
failure in its place, or a failure that can be caught. -/
inductive DrainStep.Keeps (reason : ExitReason) : DrainStep β → Prop
  | run {action : Action β} {d : Drain} (pending : d.aggregator.pending = reason) : Keeps reason (.run action d)
  | kept {o : DrainOutcome} (e : o.reason = reason ∨ ∃ f, o.reason = .throwing (some f)) :
      Keeps reason (.ended (.ok o))
  | fails {f : Failure} (exception : f.isException = true) : Keeps reason (.ended (.error f))

variable {reason : ExitReason}

theorem DrainStep.Keeps.of_ended {result : Except Failure DrainOutcome} (hr : Catchable result)
    (kept : ∀ o, result = .ok o → o.reason = reason ∨ ∃ f, o.reason = .throwing (some f)) :
    DrainStep.Keeps (β := β) reason (.ended result) := by
  cases result with
  | ok o => exact .kept (kept o rfl)
  | error f => exact .fails (hr f rfl)

theorem keeps_advance (pending : d.aggregator.pending = reason) : (d.advance r).1.Keeps reason := by
  unfold Drain.advance
  split
  · exact .run pending
  · rename_i r' _
    refine .of_ended (catchable_close r' d (.ok _)) fun o e => ?_
    rw [← Except.ok.inj (Drain.close_ok (Prod.ext e rfl))]
    show d.aggregator.resolve = reason ∨ ∃ f, d.aggregator.resolve = .throwing (some f)
    unfold Aggregator.resolve
    split
    · exact .inl pending
    · exact .inr ⟨_, rfl⟩
  · rename_i failure e
    refine .of_ended (catchable_close r d (.error (catchable_popAction r d.handle failure e))) fun o e => ?_
    cases Drain.close_ok (Prod.ext e rfl)

theorem keeps_settle {failure? : Option Failure} (pending : d.aggregator.pending = reason)
    (caught : ∀ f, failure? = some f → f.isException = true) : (d.settle r failure?).1.Keeps reason := by
  unfold Drain.settle
  split
  · exact keeps_advance r d pending
  · rename_i failure
    split
    · exact keeps_advance r _ pending
    · refine .of_ended (catchable_close r d (.error (caught failure rfl))) fun o e => ?_
      cases Drain.close_ok (Prod.ext e rfl)

end Catchable

/-- A failure in an exit reason is known and can be caught. -/
def ExitReason.IsOrdinary (r : ExitReason) : Prop := ∀ e, r = .throwing e → ∃ f, e = some f ∧ f.isException = true

theorem ExitReason.isOrdinary_of_calm {r : ExitReason} (calm : r.isThrow = false) : r.IsOrdinary := by
  rintro e rfl
  contradiction

theorem ExitReason.isOrdinary_throwing {f : Failure} (exception : f.isException = true) :
    IsOrdinary (.throwing (some f)) := by
  intro e h
  exact ⟨f, (ExitReason.throwing.inj h).symm, exception⟩

namespace Script

open World Stack

/-! ### Outcomes and what takes them -/

section Outcomes

variable [Node.Strays] {L : Ledger} {w : World} {c : Control} {f : Frame} {stack : Stack} {p q : Port}
  {marks : List Mark}

/-- An outcome suits the port that it arrives at. -/
inductive Control.Suits : Control → Port → Prop
  | value {v : Value} {p : Port} (form : p.form? = some .value) : Suits (.value v) p
  | complete {r : ExitReason} {p : Port} (form : p.form? = some .completion) (completes : p.Completes r) :
      Suits (.complete r) p
  | resumed {v : Value} {done : Bool} {Γ : Region} : Suits (.resumed v done) (.code .step Γ)
  | raise {failure : Failure} {p : Port} (passes : p.Passes failure) : Suits (.raise failure) p

theorem Good.suits (good : Good L ⟨w, c, stack⟩) (outcome : c.isOutcome = true) :
    ∃ p marks, Spans w p stack marks .bottom ∧ c.Suits p := by
  cases good with
  | value r form =>
    obtain ⟨marks, spans, -⟩ := r.path
    exact ⟨_, marks, spans, .value form⟩
  | complete r form completes =>
    obtain ⟨marks, spans, -⟩ := r.path
    exact ⟨_, marks, spans, .complete form completes⟩
  | resumed r =>
    obtain ⟨marks, spans, -⟩ := r.path
    exact ⟨_, marks, spans, .resumed⟩
  | raise r passes =>
    obtain ⟨marks, spans, -⟩ := r.path
    exact ⟨_, marks, spans, .raise passes⟩
  | _ => contradiction

/-- Frames that take completions. -/
def Frame.completes : Frame → Bool
  | .statementEnd | .statements .. | .scopeBody .. | .scopeEnd | .labeled _ | .whilePass _ | .doPass _
  | .forStart .. | .forPass .. | .forOfPass _ | .switchEnd _ | .tryBody .. | .catchBody .. | .finallyBody _ => true
  | _ => false

theorem Spans.completion (h : Spans w p (f :: stack) marks q) (completes : f.completes = true) :
    ∃ Γ, p = .code .completion Γ := by
  cases h with
  | frame takes => cases takes <;> first | contradiction | exact ⟨_, rfl⟩
  | actionEnd | scopeBody => exact ⟨_, rfl⟩
  | _ => contradiction

/-- What arrives at code that takes completions. -/
inductive Control.Completed : Control → Prop
  | complete {r : ExitReason} (clean : CleanReason r) : Completed (.complete r)
  | raise {failure : Failure} (exception : failure.isException = true) : Completed (.raise failure)
  | forced (v : Value) : Completed (.raise (.single (.forcedReturn v)))

theorem Control.Suits.completed {Γ : Region} (h : c.Suits (.code .completion Γ)) : c.Completed := by
  cases h with
  | value form => cases form
  | complete _ completes => exact .complete completes.clean
  | raise passes =>
    rcases passes with clean | ⟨-, v, rfl⟩
    · exact .raise clean.isException
    · exact .forced v

theorem Good.completed (good : Good L ⟨w, c, f :: stack⟩) (outcome : c.isOutcome = true)
    (completes : f.completes = true) : c.Completed := by
  obtain ⟨p, marks, spans, suits⟩ := good.suits outcome
  obtain ⟨Γ, rfl⟩ := spans.completion completes
  exact suits.completed

/-- An action of a drain has ended, with a failure that can be caught if with any. -/
theorem Good.drained {b : Nat} {d : Drain} (good : Good L ⟨w, c, .draining b d :: stack⟩)
    (outcome : c.isOutcome = true) :
    (∃ r, c = .complete r) ∨ ∃ failure, c = .raise failure ∧ failure.isException = true := by
  obtain ⟨p, marks, spans, suits⟩ := good.suits outcome
  cases spans with
  | frame takes => cases takes
  | draining =>
    cases suits with
    | value form => cases form
    | complete => exact .inl ⟨_, rfl⟩
    | raise passes => exact .inr ⟨_, rfl, Failure.Clean.isException passes⟩

/-- A task takes its first step with a value. -/
theorem Good.woken {request : Request} (good : Good L ⟨w, c, .taskStart request :: stack⟩)
    (outcome : c.isOutcome = true) : ∃ v, c = .value v := by
  obtain ⟨p, marks, spans, suits⟩ := good.suits outcome
  cases spans with
  | frame takes => cases takes
  | awaiting | closing =>
    cases suits with
    | value => exact ⟨_, rfl⟩
    | complete form => cases form
    | raise passes => exact passes.elim

/-- What was awaited suits the code that waited. -/
theorem Good.settled (good : Good L ⟨w, c, .settling :: f :: stack⟩) (outcome : c.isOutcome = true)
    (completes : f.completes = true) :
    (∃ r, c = .complete r) ∨ ∃ failure, c = .raise failure ∧ failure.isException = true := by
  obtain ⟨p, marks, spans, suits⟩ := good.suits outcome
  cases spans with
  | frame takes => cases takes
  | settling async rest =>
    obtain ⟨Γ, e⟩ := rest.completion completes
    obtain ⟨rfl, rfl⟩ := Port.code.inj e
    cases suits with
    | value form => cases form
    | complete => exact .inl ⟨_, rfl⟩
    | raise passes => exact .inr ⟨_, rfl, (passes.clean_of_ne (permits_ne_of_async async)).isException⟩

end Outcomes

theorem Running.Leads.next {s s' : Running} (leads : s.Leads s') (outcome : s.control.isOutcome = true) :
    s.step = .next s' := by
  cases leads with
  | step next => exact next
  | reorder => cases outcome

/-! ### Leaving a frame -/

/-- The frame above a piece of code is being left with an exit reason. -/
inductive Running.Leaves (b : Nat) (r : ExitReason) (piece : Stack) (s : Running) : Prop
  /-- The code asks for a drain that may wait. -/
  | asks {handle : FrameHandle} (control : s.control = .suspend (.drain b handle r))
      (stack : .scopeEnd :: piece <+: s.stack)
  /-- The drain will be the first thing that a task does. -/
  | queued {handle : FrameHandle} (h : s.Holds (.taskStart (.drain b handle r) :: .scopeEnd :: piece))
  /-- An action of the drain is running. -/
  | drains {d : Drain} {code : Stack} (pending : d.aggregator.pending = r)
      (below : code = .scopeEnd :: piece ∨ code = .settling :: .scopeEnd :: piece)
      (h : s.Holds (.draining b d :: code))
  /-- The frame is left. -/
  | left {code : Stack} (below : code = .scopeEnd :: piece ∨ code = .settling :: .scopeEnd :: piece)
      (stack : code <+: s.stack)
      (outcome : (s.control = .complete r ∨ ∃ f, s.control = .complete (.throwing (some f))) ∨
        ∃ f, s.control = .raise f ∧ f.isException = true)

/-- A piece of code gets what the code in a frame above it came to: an exit reason, or a failure. -/
inductive Running.Brings (r : ExitReason) (piece : Stack) : Running → Prop
  | completes {w : World} {rest : Stack} (calm : r.isThrow = false) : Brings r piece ⟨w, .complete r, piece ++ rest⟩
  | raises {w : World} {rest : Stack} {f : Failure} (exception : f.isException = true) :
      Brings r piece ⟨w, .raise f, piece ++ rest⟩

section Leaving

variable {w : World} {a b : Nat} {handle : FrameHandle} {r : ExitReason} {piece code rest : Stack} {s s' : Running}

theorem leaves_leaveFrame {result : Except Failure DrainOutcome}
    (below : code = .scopeEnd :: piece ∨ code = .settling :: .scopeEnd :: piece)
    (keeps : DrainStep.Keeps (β := Deferred) r (.ended result)) :
    (w.leaveFrame (code ++ rest) b handle result).Leaves b r piece := by
  unfold World.leaveFrame Registry.leave
  cases exits : (w.registry b).exit handle with
  | error failure =>
    exact .left below (List.prefix_append ..) (.inr ⟨_, rfl, catchable_exit _ _ _ exits⟩)
  | ok registry =>
    cases keeps with
    | kept e =>
      refine .left below (List.prefix_append ..) (.inl (e.imp ?_ ?_))
      · exact fun e => congrArg Control.complete e
      · rintro ⟨f, e⟩
        exact ⟨f, congrArg Control.complete e⟩
    | fails exception => exact .left below (List.prefix_append ..) (.inr ⟨_, rfl, exception⟩)

theorem leaves_proceed {next : DrainStep Deferred × Registry Deferred}
    (below : code = .scopeEnd :: piece ∨ code = .settling :: .scopeEnd :: piece) (keeps : next.1.Keeps r) :
    (w.proceed (code ++ rest) b handle next).Leaves b r piece := by
  obtain ⟨next, registry⟩ := next
  cases next with
  | run action d =>
    cases keeps with
    | run pending =>
      refine .drains pending below (.running ?_)
      exact ((List.prefix_append (.draining b d :: code) rest).isInfix.trans (List.suffix_cons ..).isInfix)
  | ended result => exact leaves_leaveFrame below keeps

theorem leaves_drain (below : code = .scopeEnd :: piece ∨ code = .settling :: .scopeEnd :: piece)
    (mode : ActionMode) : (w.drain (code ++ rest) b handle mode r).Leaves b r piece := by
  unfold World.drain
  split
  · rename_i d registry e
    exact leaves_proceed below (keeps_advance registry d (pending_start e))
  · rename_i failure e
    exact leaves_leaveFrame below (.fails (catchable_start _ _ _ _ _ e))

/-- The code in a frame has ended. -/
theorem leaves_leaveBody : (w.leaveBody (piece ++ rest) b handle r).Leaves b r piece := by
  unfold World.leaveBody
  simp only
  split
  · rename_i failure e
    exact .left (.inl rfl) (List.prefix_append ..) (.inr ⟨_, rfl, catchable_hasAsyncActions _ _ _ e⟩)
  · exact .asks rfl (List.prefix_append ..)
  · exact leaves_drain (.inl rfl) .sync

/-- What a frame is left with goes on below it, a failure as a failure. -/
theorem brings_complete {r' : ExitReason} (clean : CleanReason r')
    (kept : r' = r ∨ ∃ f, r' = .throwing (some f)) : (w.complete (piece ++ rest) r').Brings r piece := by
  unfold World.complete
  split
  · rename_i f
    exact .raises (Failure.Clean.isException (clean f rfl))
  · exact .raises rfl
  · rename_i thrown other
    rcases kept with rfl | ⟨f, rfl⟩
    · refine .completes ?_
      cases r' with
      | throwing error? =>
        cases error? with
        | none => exact absurd rfl other
        | some f => exact absurd rfl (thrown f)
      | _ => rfl
    · exact absurd rfl (thrown f)

end Leaving

/-! ### Stages of the code in a frame -/

/-- The code in a frame above a piece of code is running, or the frame is being left. -/
inductive Running.InFrame (piece : Stack) (s : Running) : Prop
  | body {b : Nat} {handle : FrameHandle} {atEnd : ExitReason} (h : s.Holds (.scopeBody b handle atEnd :: piece))
  | leaves {b : Nat} {r : ExitReason} (h : s.Leaves b r piece)

section Frames

variable {w : World} {c : Control} {a : Nat} {r : ExitReason} {f : Frame} {piece stack : Stack} {s s' : Running}

theorem Running.Arrives.split (h : s.Arrives piece) :
    ∃ w c rest, s = ⟨w, c, piece ++ rest⟩ ∧ c.isOutcome = true := by
  obtain ⟨w, c, stack⟩ := s
  obtain ⟨⟨rest, rfl⟩, outcome⟩ := h
  exact ⟨w, c, rest, rfl, outcome⟩

theorem Running.Strands.mono {piece' : Stack} (h : s.Strands piece') (sub : piece <:+: piece') :
    s.Strands piece := by
  obtain ⟨suspended, h, asks, indescribable⟩ := h
  exact ⟨suspended, sub.trans h, asks, indescribable⟩

/-- A frame is entered, and the code in it goes on, or its functions cannot be bound. -/
theorem openFrame_cases (w : World) (stack : Stack) (kind : FrameKind) (span : Span) (scope : Nat)
    (statements : List Node) (atEnd : ExitReason) (inside : World → Stack → Running) :
    ∃ w' b handle, w.openFrame stack kind span scope statements atEnd inside =
        inside w' (.scopeBody b handle atEnd :: stack) ∨
      ∃ failure, w.openFrame stack kind span scope statements atEnd inside =
        ⟨w', .raise failure, .scopeBody b handle atEnd :: stack⟩ := by
  unfold World.openFrame
  simp only
  split
  · exact ⟨_, _, _, .inl rfl⟩
  · exact ⟨_, _, _, .inr ⟨_, rfl⟩⟩

theorem inFrame_enterFrame {kind : FrameKind} {span : Span} {scope : Nat} {statements : List Node}
    {atEnd : ExitReason} (h : piece <+: stack) :
    (w.enterFrame stack kind span scope statements atEnd).InFrame piece := by
  have entered : ∀ (b : Nat) (handle : FrameHandle),
      Frame.scopeBody b handle atEnd :: piece <+: Frame.scopeBody b handle atEnd :: stack :=
    fun b handle => List.cons_prefix_cons.mpr ⟨rfl, h⟩
  obtain ⟨w', b, handle, e | ⟨failure, e⟩⟩ := openFrame_cases w stack kind span scope statements atEnd
    fun w stack => ⟨w, .complete .normal, .statements statements scope :: stack⟩
  · rw [World.enterFrame, e]
    exact .body (.running ((entered b handle).isInfix.trans (List.suffix_cons ..).isInfix))
  · rw [World.enterFrame, e]
    exact .body (.on_top (entered b handle))

theorem execute_block {n : Node} (kind : n.kind = .block) (w : World) (stack : Stack) (scope : Nat) :
    ∃ (w' : World) (inner : Nat), w.execute stack n scope =
      w'.enterFrame (.statementEnd :: stack) .block n.span inner n.children .normal := by
  simp only [World.execute, kind, World.isCompound, if_true, World.executeCompound]
  exact ⟨_, _, rfl⟩

/-- Code that ends with a failure that can be caught is not being returned from. -/
theorem onRaise_statementEnd {failure : Failure} (exception : failure.isException = true) (w : World)
    (stack : Stack) : w.onRaise stack failure .statementEnd = ⟨w, .raise failure, stack⟩ := by
  simp only [World.onRaise]
  split
  · contradiction
  · rfl

/-- The end of a statement lets pass what the statement came to. -/
theorem Running.Brings.statementEnd (h : s.Brings r (.statementEnd :: piece)) (leads : s.Leads s') :
    s'.Brings r piece := by
  cases h with
  | completes calm =>
    rw [← Transition.next.inj (leads.next rfl)]
    exact .completes calm
  | raises exception =>
    rw [← Transition.next.inj (leads.next rfl), onRaise_statementEnd exception]
    exact .raises exception

/-- A piece of code is given the exit reason that the code above it has come to, a failure as a failure. -/
inductive Running.Gives (r : ExitReason) (piece : Stack) : Running → Prop
  | completes {w : World} {rest : Stack} (calm : r.isThrow = false) : Gives r piece ⟨w, .complete r, piece ++ rest⟩
  | fails {w : World} {rest : Stack} {f : Failure} (reason : r = .throwing (some f))
      (exception : f.isException = true) : Gives r piece ⟨w, .raise f, piece ++ rest⟩

theorem Running.Brings.gives (h : s.Brings r piece) : ∃ r', s.Gives r' piece := by
  cases h with
  | completes calm => exact ⟨_, .completes calm⟩
  | raises exception => exact ⟨_, .fails rfl exception⟩

theorem Running.Gives.outcome (h : s.Gives r piece) : s.control.isOutcome = true := by
  cases h <;> rfl

theorem Running.Gives.ordinary (h : s.Gives r piece) : r.IsOrdinary := by
  cases h with
  | completes calm => exact ExitReason.isOrdinary_of_calm calm
  | fails reason exception => exact reason ▸ ExitReason.isOrdinary_throwing exception

theorem gives_complete (ordinary : r.IsOrdinary) (w : World) (piece rest : Stack) :
    (w.complete (piece ++ rest) r).Gives r piece := by
  unfold World.complete
  split
  · obtain ⟨f, e, exception⟩ := ordinary _ rfl
    exact .fails rfl (Option.some.inj e ▸ exception)
  · obtain ⟨f, e, -⟩ := ordinary _ rfl
    contradiction
  · rename_i thrown unknown
    refine .completes ?_
    cases r with
    | throwing e =>
      cases e with
      | none => exact absurd rfl unknown
      | some f => exact absurd rfl (thrown f)
    | _ => rfl

end Frames

section Runs

variable {config : Config} {program : Node} {L : Ledger} {a b : Nat} {r : ExitReason} {piece : Stack}
  {s s' : Running}

theorem Run.leaves_step (accepted : Accepted config program) (run : Run config program L s)
    (isPiece : piece.IsPiece a) (leaves : s.Leaves b r piece) (leads : s.Leads s') :
    s'.Leaves b r piece ∨ s'.Brings r piece ∨ s.Strands piece := by
  let _ : Node.Strays := ⟨program.strayLabels⟩
  have good := run.good accepted fun _ => id
  have ended : Stack.IsPiece a (.scopeEnd :: piece) := isPiece.cons rfl
  cases leaves with
  | @asks handle control stack =>
    obtain ⟨w, c, code⟩ := s
    obtain rfl : c = _ := control
    cases leads with
    | step next =>
      rw [← Transition.next.inj next]
      rcases good.suspends with ⟨v, -, -, yields, -⟩ | ⟨-, f, rest, boundary, rfl | rfl⟩
      · cases yields
      · have taken : .scopeEnd :: piece <+: code.segment := by
          have whole : .scopeEnd :: piece <+: code.segment ++ .asyncStart :: rest := by
            rw [← boundary, code.segment_append_fromBoundary]
            exact stack
          exact prefix_of_not_mem whole (ended.not_mem rfl (by simp))
        refine .inl (@Running.Leaves.queued _ _ _ _ handle ?_)
        rw [World.suspend, boundary]
        refine .parked (t := w.loop.promises.size) (congrArg Promise.parked?
          (((Loop.adds_spawn _).promise _).trans (if_pos rfl))) ?_
        exact (List.cons_prefix_cons.mpr ⟨rfl, taken.trans (List.prefix_append ..)⟩).isInfix
      · obtain ⟨lower, rfl⟩ := stack
        refine .inl ?_
        rw [World.suspend, boundary]
        exact leaves_drain (.inr rfl) .async
  | @queued handle holds =>
    rcases run.holds_step accepted (ended.cons rfl) holds leads with holds | arrives | strands
    · exact .inl (.queued holds)
    · obtain ⟨w, c, rest, rfl, outcome⟩ := arrives.split
      obtain ⟨v, rfl⟩ := good.woken outcome
      rw [← Transition.next.inj (leads.next outcome)]
      exact .inl (leaves_drain (.inr rfl) .async)
    · exact .inr (.inr (strands.mono ((List.suffix_cons ..).trans (List.suffix_cons ..)).isInfix))
  | @drains d code pending below holds =>
    have isCode : code.IsPiece a ∧ piece <:+ code := by
      rcases below with rfl | rfl
      · exact ⟨ended, List.suffix_cons ..⟩
      · exact ⟨ended.cons rfl, (List.suffix_cons ..).trans (List.suffix_cons ..)⟩
    rcases run.holds_step accepted (isCode.1.cons rfl) holds leads with holds | arrives | strands
    · exact .inl (.drains pending below holds)
    · obtain ⟨w, c, rest, rfl, outcome⟩ := arrives.split
      have next := leads.next outcome
      rcases good.drained outcome with ⟨reason, rfl⟩ | ⟨failure, rfl, exception⟩
      · rw [← Transition.next.inj next]
        exact .inl (leaves_proceed below (keeps_settle _ d pending fun _ e => (by cases e)))
      · rw [← Transition.next.inj next]
        exact .inl (leaves_proceed below (keeps_settle _ d pending fun _ e => Option.some.inj e ▸ exception))
    · exact .inr (.inr (strands.mono (isCode.2.trans (List.suffix_cons ..)).isInfix))
  | @left code below stack outcome =>
    obtain ⟨w, c, code'⟩ := s
    obtain ⟨rest, rfl⟩ := stack
    simp only at outcome
    have isOutcome : c.isOutcome = true := by
      rcases outcome with (rfl | ⟨f, rfl⟩) | ⟨f, rfl, -⟩ <;> rfl
    have next := leads.next isOutcome
    rcases below with rfl | rfl
    · have completed := good.completed isOutcome rfl
      refine .inr (.inl ?_)
      rcases outcome with kept | ⟨f, rfl, exception⟩
      · cases completed with
        | complete clean =>
          rw [← Transition.next.inj next]
          exact brings_complete clean (kept.imp Control.complete.inj fun h => h.imp fun _ => Control.complete.inj)
        | _ => simp at kept
      · rw [← Transition.next.inj next]
        exact .raises exception
    · have below : Frame.scopeEnd :: piece <+: Frame.scopeEnd :: piece ++ rest := List.prefix_append ..
      rcases outcome with (rfl | ⟨f, rfl⟩) | ⟨f, rfl, exception⟩
      · rw [← Transition.next.inj next]
        exact .inl (.left (.inl rfl) below (.inl (.inl rfl)))
      · rw [← Transition.next.inj next]
        exact .inl (.left (.inl rfl) below (.inl (.inr ⟨f, rfl⟩)))
      · rw [← Transition.next.inj next]
        refine .inl (.left (.inl rfl) ?_ (.inr ⟨f, rfl, exception⟩))
        simp only [World.onRaise, World.pass, if_pos exception]
        exact below

theorem Run.inFrame_step (accepted : Accepted config program) (run : Run config program L s)
    (isPiece : piece.IsPiece a) (inFrame : s.InFrame piece) (leads : s.Leads s') :
    s'.InFrame piece ∨ (∃ r, s'.Brings r piece) ∨ s.Strands piece := by
  let _ : Node.Strays := ⟨program.strayLabels⟩
  cases inFrame with
  | body holds =>
    rcases run.holds_step accepted (isPiece.cons rfl) holds leads with holds | arrives | strands
    · exact .inl (.body holds)
    · obtain ⟨w, c, rest, rfl, outcome⟩ := arrives.split
      have next := leads.next outcome
      cases (run.good accepted fun _ => id).completed outcome rfl with
      | complete =>
        rw [← Transition.next.inj next]
        exact .inl (.leaves leaves_leaveBody)
      | @raise failure exception =>
        rw [← Transition.next.inj next]
        simp only [World.onRaise]
        split
        · contradiction
        · rw [if_pos exception]
          exact .inl (.leaves leaves_leaveBody)
      | forced v =>
        rw [← Transition.next.inj next]
        exact .inl (.leaves leaves_leaveBody)
    · exact .inr (.inr (strands.mono (List.suffix_cons ..).isInfix))
  | leaves h =>
    rcases run.leaves_step accepted isPiece h leads with leaves | brings | strands
    · exact .inl (.leaves leaves)
    · exact .inr (.inl ⟨_, brings⟩)
    · exact .inr (.inr strands)

end Runs

/-! ### Order among frames -/

/-- The actions of a frame of an activation have all been started, the last one first, or none has, as far
as an observer of a run can tell. -/
structure Running.InOrder (config : Config) (program : Node) (s : Running) : Prop where
  /-- Of all frames that the code of an activation has left, the actions have been started. -/
  drained : ∀ L, Run config program L s → ∀ a, .activationEnd a ∈ s.stack → ∀ id, ¬ s.stack.IsIn a id →
    L.registered a id = (L.started a id).reverse
  /-- Of those that it is in, none has. -/
  untouched : ∀ L, Run config program L s → ∀ a (handle : FrameHandle) atEnd,
    .scopeBody a handle atEnd ∈ s.stack → ∀ id : Nat, handle.frame = id → L.started a id = []

theorem Accepted.inOrder {config : Config} {program : Node} (accepted : Accepted config program) {s : Running}
    (outcome : s.control.isOutcome = true) : s.InOrder config program := by
  have code : s.HasCode s.stack := by
    obtain ⟨w, c, stack⟩ := s
    cases c <;> first | contradiction | exact .running
  exact ⟨fun L run a mem id outside => (run.keeps_discipline accepted).complete _ code a mem id outside,
    fun L run a handle atEnd mem id e => (run.keeps_discipline accepted).untouched _ code a handle atEnd mem id e⟩

/-! ### Processes -/

/-- A process gets from stage to stage in a run by turns. -/
inductive Running.Goes {σ : Type} (turn : σ → Running → σ → Running → Prop) (first : σ) (s : Running) :
    σ → Running → Prop
  | start : Goes turn first s first s
  | next {k k' : σ} {t t' : Running} (before : Goes turn first s k t) (leads : t.Leads t')
      (turns : turn k t k' t') : Goes turn first s k' t'

/-- A process that always has a turn gets on as long as the run goes on. -/
theorem Run.goes {config : Config} {program : Node} {L : Ledger} {s t : Running} (run : Run config program L s)
    {σ : Type} {turn : σ → Running → σ → Running → Prop} (there : σ → Running → Prop) {first : σ}
    (start : there first s)
    (step : ∀ {L t t' k}, Run config program L t → there k t → t.Leads t' → ∃ k', turn k t k' t' ∧ there k' t')
    (later : s.Later t) : ∃ k, s.Goes turn first k t ∧ there k t := by
  have on : ∀ {t t'}, s.Later t → t.Leads t' → (∃ k, s.Goes turn first k t ∧ there k t) →
      ∃ k, s.Goes turn first k t' ∧ there k t' := by
    rintro t t' later leads ⟨k, goes, at_k⟩
    obtain ⟨L, after⟩ := run.later later
    obtain ⟨k', turns, at_k'⟩ := step after at_k leads
    exact ⟨k', goes.next leads turns, at_k'⟩
  induction later with
  | refl => exact ⟨first, .start, start⟩
  | step before next ih => exact on before (.step next) ih
  | reorder before other ih => exact on before (.reorder other) ih

end Script

end ScopeExit
