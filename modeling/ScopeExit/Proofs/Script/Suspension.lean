import ScopeExit.Proofs.Script.Expression
/-!
Suspensions.

What may suspend stands above a boundary that can deal with it.  Asynchronous code is above the start of
its call, which makes a task of it, or above the drive of a task, which serves the request; a frame of a
generator is above whoever resumed it.  No other boundary is ever reached by a suspension, so none
refuses one.
-/
namespace ScopeExit.Script

open World

/-- Code that waits is not at its first step. -/
theorem not_isFirst_settling (stack : Stack) : ¬ IsFirst (.settling :: stack) := by
  rintro ⟨request, rest, h⟩
  cases h

section Suspension

variable [Node.Strays] {L : Ledger} {loc : Nat → Host} {w : World} {stack : Stack} {p : Port} {Γ : Region}

/-- The nearest boundary below asynchronous code takes suspensions. -/
theorem Spans.async_boundary {marks : List Mark} (h : Spans w p stack marks .bottom) {a : Nat}
    {context : Node.Context} (home : p.home? = some (a, context)) (async : context.isAsync = true) :
    ∃ f rest, stack.fromBoundary = f :: rest ∧ (f = .asyncStart ∨ f = .asyncDrive) := by
  obtain ⟨q, above, below, -, hbelow, -, meets⟩ := h.split home
  generalize hstack : stack.fromBoundary = rest at hbelow
  cases meets with
  | action hc _ =>
    rw [hc] at async
    cases hbelow with
    | asyncAction => exact ⟨_, _, rfl, .inr rfl⟩
    | syncAction => contradiction
  | ended =>
    cases hbelow with
    | asyncCall => exact ⟨_, _, rfl, .inl rfl⟩
    | asyncTask => exact ⟨_, _, rfl, .inr rfl⟩
    | syncCall | generator => contradiction

/-- Asynchronous code that asks for something becomes a task, or is served. -/
theorem reached_request {form : Form} {extra : List Mark} {request : Request}
    (r : Ready L loc w stack (.code form Γ) extra) (async : Γ.context.isAsync = true)
    (frames : FramesOf Γ.activation extra)
    (starts : ∀ w' stack marks, Spans w' (.code form Γ) stack marks .bottom →
      Spans w' .woken (.taskStart request :: stack) (extra ++ marks) .bottom)
    (served : Reached L (w.serve stack request)) : Reached L (w.suspend stack request) := by
  obtain ⟨marks, spans, -⟩ := r.path
  obtain ⟨f, rest, hstack, rfl | rfl⟩ := spans.async_boundary rfl async
  · obtain ⟨loc', hready⟩ := r.spawned frames hstack starts
    unfold World.suspend
    rw [hstack]
    exact .value hready rfl _
  · unfold World.suspend
    rw [hstack]
    exact served

theorem reached_await (r : Ready L loc w stack (.code .value Γ) []) (async : Γ.context.isAsync = true)
    (value : Value) : Reached L (w.await stack value) := by
  have settling : ∀ {w}, Ready L loc w stack (.code .value Γ) [] →
      Ready L loc w (.settling :: stack) (.code .value Γ) [] := fun r =>
    r.through fun _ => .settling async
  have first := not_isFirst_settling stack
  have turn : Reached L ⟨{ w with
      loop := w.loop.giveWay w.current (.settling :: stack) (.ok value) }, .parked, []⟩ := by
    refine (settling r).parks rfl (fun good h hg => ?_) (by simp [Loop.giveWay, Loop.enqueue])
    exact h.giveWay r.sys.current hg first (by simp)
  unfold World.await
  cases value with
  | promise p =>
    have hquiet : Quiet w { w with observed := p :: w.observed } := .same rfl rfl rfl rfl rfl rfl rfl
    have r' := settling (r.quiet hquiet)
    simp only
    cases hp : w.loop.outcome? p with
    | some outcome =>
      cases outcome with
      | ok v => exact .value r' rfl v
      | error f => exact .fail r' (r.sys.loop.settled p f hp)
    | none =>
      refine r'.parks rfl (fun good h hg => ?_) ?_
      · split
        · exact h.giveWay r.sys.current hg first fun f e => Except.error.inj e ▸ Failure.clean_host _
        · exact h.park p r.sys.current hg first
      · split
        · simp [Loop.giveWay, Loop.enqueue]
        · simp [Loop.park]
  | _ => exact turn

/-- The drain of a frame that may wait for its actions. -/
theorem reached_close {handle : FrameHandle} {reason : ExitReason}
    (r : Ready L loc w stack (.code .completion Γ)
      [.frame Γ.activation handle false Γ.context.isAsync])
    (async : Γ.context.isAsync = true) (completes : Γ.Completes reason) :
    Reached L (w.serve stack (.drain Γ.activation handle reason)) := by
  have settling : Ready L loc w (.settling :: stack) (.code .completion Γ)
      [.frame Γ.activation handle false Γ.context.isAsync] := r.through fun _ => .settling async
  exact reached_drain settling (by simp) completes

/-- Code waits for a value. -/
theorem reached_suspendAwait (r : Ready L loc w stack (.code .value Γ) [])
    (async : Γ.context.isAsync = true) (value : Value) :
    Reached L (w.suspend stack (.await value)) :=
  reached_request r async (by simp [FramesOf]) (fun _ _ _ h => .awaiting async h)
    (reached_await r async value)

/-- Code waits for the drain of the frame that it leaves. -/
theorem reached_suspendDrain {handle : FrameHandle} {reason : ExitReason}
    (r : Ready L loc w stack (.code .completion Γ)
      [.frame Γ.activation handle false Γ.context.isAsync])
    (async : Γ.context.isAsync = true) (completes : Γ.Completes reason) :
    Reached L (w.suspend stack (.drain Γ.activation handle reason)) :=
  reached_request r async (by simp [FramesOf, Mark.frame]) (fun _ _ _ h => .closing async completes h)
    (reached_close r async completes)

/-- A generator hands out a value. -/
theorem reached_suspendYield (r : Ready L loc w stack (.code .value Γ) [])
    (generator : Γ.permits.isGenerator = true) (value : Value) :
    Reached L (w.suspend stack (.yield value)) := by
  obtain ⟨g, rest, Γ', loc', hstack, hready⟩ := r.yielded generator
  unfold World.suspend
  rw [hstack]
  exact .resumed hready _ _

end Suspension

end ScopeExit.Script
