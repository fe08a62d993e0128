import ScopeExit.Engine.Dispatch
/-!
Frames that may hold more actions.

Whether a frame may hold asynchronous actions is looked at in one place, when an action is registered.
So a registry whose frames are relaxed, so that they may hold such actions too, behaves as the registry
did: every operation gives the same answer and leaves the same registry, relaxed, but for the
registration of an asynchronous action.
-/
namespace ScopeExit

/-- The same frame; it may hold asynchronous actions if `free` says so. -/
def ScopeFrame.relaxed (free : Bool) (f : ScopeFrame) : ScopeFrame := { f with isAsync := f.isAsync || free }

/-- The same drain, of a relaxed frame. -/
def Drain.relaxed (free : Bool) (d : Drain) : Drain := { d with frame := d.frame.relaxed free }

/-- The same outcome, of the drain of a relaxed frame. -/
def DrainOutcome.relaxed (free : Bool) (o : DrainOutcome) : DrainOutcome :=
  { o with frame := o.frame.relaxed free }

/-- What comes next in the drain of a relaxed frame. -/
def DrainStep.relaxed {β : Type} (free : Bool) : DrainStep β → DrainStep β
  | .run action d => .run action (d.relaxed free)
  | .ended result => .ended (result.map (DrainOutcome.relaxed free))

variable {β : Type} (free : Bool)

namespace Registry

/-- The same registry with relaxed frames. -/
def relaxed (r : Registry β) : Registry β := { r with frames := r.frames.map (ScopeFrame.relaxed free) }

variable (r : Registry β) (h : FrameHandle)

@[simp] theorem relaxed_length : (r.relaxed free).frames.length = r.frames.length := List.length_map ..

theorem signedPosition_relaxed (n : Int) :
    signedPosition (r.relaxed free).frames n = signedPosition r.frames n := by
  simp [signedPosition]

theorem signedGet?_relaxed (n : Int) :
    signedGet? (r.relaxed free).frames n = (signedGet? r.frames n).map (ScopeFrame.relaxed free) := by
  rw [signedGet?, signedPosition_relaxed, signedGet?, relaxed, List.getElem?_map]

theorem frame_relaxed : (r.relaxed free).frame h = (r.frame h).map (ScopeFrame.relaxed free) := by
  unfold frame
  rw [relaxed_length, signedGet?_relaxed]
  split
  · rfl
  · cases signedGet? r.frames h.depth with
    | none => rfl
    | some f =>
      simp only [Option.map_some, ScopeFrame.relaxed]
      split <;> rfl

theorem innermostFrame_relaxed (verb : FrameVerb) : (r.relaxed free).innermostFrame h verb =
    (r.innermostFrame h verb).map (ScopeFrame.relaxed free) := by
  unfold innermostFrame
  rw [frame_relaxed, relaxed_length]
  cases r.frame h with
  | error failure => rfl
  | ok f =>
    simp only [Except.map, Bind.bind, Except.bind]
    split <;> rfl

theorem pending_relaxed : (r.relaxed free).pending h = r.pending h := by
  unfold pending
  rw [frame_relaxed, signedGet?_relaxed]
  cases r.frame h with
  | error failure => rfl
  | ok f =>
    cases signedGet? r.frames (h.depth + 1) <;>
      simp [Except.map, Bind.bind, Except.bind, ScopeFrame.relaxed, relaxed]

theorem hasAsyncActions_relaxed : (r.relaxed free).hasAsyncActions h = r.hasAsyncActions h := by
  unfold hasAsyncActions
  rw [frame_relaxed]
  cases r.frame h <;> rfl

theorem innermost?_relaxed : (r.relaxed free).innermost? = r.innermost? := by
  unfold innermost?
  rw [relaxed_length, relaxed, List.getLast?_map]
  cases r.frames.getLast? <;> rfl

theorem enter_relaxed (kind : FrameKind) (isAsync : Bool) (span : Span) :
    (r.relaxed free).enter kind (isAsync || free) span =
      ((r.enter kind isAsync span).1, (r.enter kind isAsync span).2.relaxed free) := by
  have hparent : ((r.relaxed free).frames.getLast?).map ScopeFrame.id =
      (r.frames.getLast?).map ScopeFrame.id := by
    rw [relaxed, List.getLast?_map]
    cases r.frames.getLast? <;> rfl
  unfold enter
  rw [hparent, relaxed_length]
  simp [relaxed, ScopeFrame.relaxed]

theorem setFrame_relaxed (f : ScopeFrame) : (r.relaxed free).setFrame h (f.relaxed free) =
    (r.setFrame h f).relaxed free := by
  unfold setFrame
  rw [signedPosition_relaxed]
  simp [relaxed, List.map_set]

theorem exit_relaxed : (r.relaxed free).exit h = (r.exit h).map (relaxed free) := by
  unfold exit
  rw [innermostFrame_relaxed, pending_relaxed]
  cases r.innermostFrame h .exit with
  | error failure => rfl
  | ok f =>
    cases r.pending h with
    | error failure => rfl
    | ok n =>
      simp only [Except.map, Bind.bind, Except.bind, ScopeFrame.relaxed]
      split
      · rfl
      · simp [relaxed, List.map_dropLast, Pure.pure, Except.pure]

/-- An action that is asynchronous only where that was allowed before. -/
theorem register_relaxed (a : Action β) (sync : free = true → a.mode = .sync) :
    (r.relaxed free).register h a = (r.register h a).map (relaxed free) := by
  unfold register
  rw [innermostFrame_relaxed]
  cases r.innermostFrame h .registerInto with
  | error failure => rfl
  | ok f =>
    have hmode : (decide (a.mode = .async) && !(f.relaxed free).isAsync) =
        (decide (a.mode = .async) && !f.isAsync) := by
      cases free with
      | false => simp [ScopeFrame.relaxed]
      | true => simp [sync rfl]
    have hset := r.setFrame_relaxed free h { f with
      registered := f.registered + 1
      asyncActions := if a.mode = .async then f.asyncActions + 1 else f.asyncActions }
    simp only [ScopeFrame.relaxed] at hset
    simp only [Except.map, hmode]
    by_cases closed : (f.drained || f.draining) = true
    · simp [ScopeFrame.relaxed, closed]
    · by_cases outside : (decide (a.mode = .async) && !f.isAsync) = true
      · simp [ScopeFrame.relaxed, closed, outside]
      · by_cases leaves : (!a.transfers.isEmpty) = true
        · simp [ScopeFrame.relaxed, closed, outside, leaves]
        · simp only [ScopeFrame.relaxed, closed, outside, leaves, hset]
          rfl

theorem beginDrain_relaxed : (r.relaxed free).beginDrain h =
    (r.beginDrain h).map fun x => (x.1.relaxed free, x.2.relaxed free) := by
  unfold beginDrain
  rw [innermostFrame_relaxed]
  cases r.innermostFrame h .drain with
  | error failure => rfl
  | ok f =>
    have hset := r.setFrame_relaxed free h { f with draining := true }
    simp only [Except.map, Bind.bind, Except.bind, ScopeFrame.relaxed] at hset ⊢
    split
    · rfl
    · rw [hset]
      rfl

theorem popAction_relaxed : (r.relaxed free).popAction h =
    (r.popAction h).map fun x => (x.1, x.2.relaxed free) := by
  unfold popAction
  rw [frame_relaxed]
  cases r.frame h with
  | error failure => rfl
  | ok f =>
    simp only [Except.map, Bind.bind, Except.bind, ScopeFrame.relaxed]
    split
    · rfl
    · cases hpop : r.arena.pop? f.mark <;> simp [relaxed, hpop] <;> rfl

theorem finishDrain_relaxed : (r.relaxed free).finishDrain h = (r.finishDrain h).map (relaxed free) := by
  unfold finishDrain
  rw [frame_relaxed]
  cases r.frame h with
  | error failure => rfl
  | ok f =>
    have hset := r.setFrame_relaxed free h { f with draining := false, drained := true }
    simp only [Except.map, Bind.bind, Except.bind, ScopeFrame.relaxed] at hset ⊢
    rw [hset]
    rfl

/-- Relaxing frames makes no difference to how a frame is left. -/
theorem leave_relaxed (result : Except Failure DrainOutcome) :
    (r.relaxed free).leave h (result.map (DrainOutcome.relaxed free)) =
      { result := (r.leave h result).result
        record? := (r.leave h result).record?
        registry := (r.leave h result).registry.relaxed free } := by
  unfold leave
  rw [exit_relaxed]
  cases r.exit h with
  | error failure => rfl
  | ok r' => cases result <;> rfl

end Registry

namespace Drain

variable (r : Registry β)

theorem start_relaxed (h : FrameHandle) (mode : ActionMode) (pending : ExitReason) :
    start (r.relaxed free) h mode pending =
      (start r h mode pending).map fun x => (x.1.relaxed free, x.2.relaxed free) := by
  unfold start
  rw [Registry.hasAsyncActions_relaxed, Registry.beginDrain_relaxed]
  cases r.hasAsyncActions h with
  | error failure => cases mode <;> cases r.beginDrain h <;> rfl
  | ok holds =>
    simp only [Bind.bind, Except.bind]
    split
    · rfl
    · cases r.beginDrain h <;> rfl

variable (d : Drain)

theorem close_relaxed (result : Except Failure DrainOutcome) :
    (d.relaxed free).close (r.relaxed free) (result.map (DrainOutcome.relaxed free)) =
      ((d.close r result).1.map (DrainOutcome.relaxed free), (d.close r result).2.relaxed free) := by
  unfold close
  simp only [Drain.relaxed, Registry.finishDrain_relaxed]
  cases r.finishDrain d.handle <;> rfl

theorem advance_relaxed : (d.relaxed free).advance (r.relaxed free) =
    ((d.advance r).1.relaxed free, (d.advance r).2.relaxed free) := by
  have hclose := fun r : Registry β => d.close_relaxed free r
  unfold advance
  simp only [Drain.relaxed] at hclose ⊢
  rw [Registry.popAction_relaxed]
  cases r.popAction d.handle with
  | error failure =>
    have hfailed := hclose r (.error failure)
    simp only [Except.map] at hfailed ⊢
    rw [hfailed]
    rfl
  | ok x =>
    obtain ⟨action?, r'⟩ := x
    cases action? with
    | none =>
      have hdone := hclose r' (.ok d.outcome)
      simp only [Except.map, DrainOutcome.relaxed, outcome] at hdone ⊢
      rw [hdone]
      rfl
    | some action => rfl

theorem settle_relaxed (failure? : Option Failure) :
    (d.relaxed free).settle (r.relaxed free) failure? =
      ((d.settle r failure?).1.relaxed free, (d.settle r failure?).2.relaxed free) := by
  unfold settle
  cases failure? with
  | none => exact d.advance_relaxed free r
  | some failure =>
    dsimp only
    split
    · exact advance_relaxed free r { d with aggregator := d.aggregator.record failure }
    · have hclose := d.close_relaxed free r (.error failure)
      simp only [Except.map] at hclose
      rw [hclose]
      rfl

end Drain

end ScopeExit
