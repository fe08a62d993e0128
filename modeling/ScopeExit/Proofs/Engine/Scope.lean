import ScopeExit.DeferScope
import ScopeExit.Proofs.Engine.Failure
/-!
A scope from one use to the next.

A scope has one registry for all its uses, and each use takes one frame of it.  Between two uses there
is no live frame and nothing in the arena, so a use begins as the first one did; what was used up are
identities of frames, and no handle of an earlier use means anything.  Within a use the registered
callbacks are the arena, and leaving is one drain of it.

What the code in the scope does to the world around, and what happens to it between two uses, is left
open: only what the callbacks do while the scope is left goes along with the drain.
-/
namespace ScopeExit

variable {β σ : Type}

/-- The action that a registration makes of a callback. -/
def Registration.action (how : Registration) (body : β) : Action β :=
  { body, kind := how.kind, mode := how.mode }

/-- What is left of the outcome of the code in a scope when a callback fails on top of it: closing a
generator counts as a return. -/
def heldBack : Option Failure → List Fault
  | none | some (.single (.closing _)) => []
  | some failure => failure.leaves

theorem heldBack_eq (failure? : Option Failure) :
    (ExitReason.ofBody failure?).error?.elim [] Failure.leaves = heldBack failure? := by
  cases failure? with
  | none => rfl
  | some failure =>
    cases failure with
    | single fault => cases fault <;> rfl
    | suppressing => rfl

/-- What comes out of a scope whose code came to an end with `failure?` and whose callbacks failed with
`failures`, in this order. -/
structure Propagates (failure? : Option Failure) (failures : List Failure)
    (raised? : Option Failure) : Prop where
  /-- The code ends as it would have without the scope if no callback failed. -/
  unchanged : failures = [] → raised? = failure?
  /-- Otherwise a failure comes out that holds them all, the most recent one first. -/
  leaves : failures ≠ [] → ∃ e, raised? = some e ∧
    e.leaves = failures.reverse.flatMap Failure.leaves ++ heldBack failure?

/-- The failure that goes on when a scope was left: that of leaving itself, that of the callbacks, or
else that of the code in the scope. -/
def Dispatched.outgoing? (o : Dispatched β) (result : Except Failure DrainOutcome)
    (failure? : Option Failure) : Option Failure :=
  match o.result, result with
  | .error e, _ => some e
  | .ok _, .error e => some e
  | .ok _, .ok outcome => outcome.raised?.or failure?

namespace DeferScope

/-! ### Using a scope -/

/-- How a frame of a scope is drained: only where waiting is possible, and only if that is needed, as an
asynchronous one. -/
def leavingMode (s : DeferScope β) (h : FrameHandle) (canWait : Bool) : Except Failure ActionMode :=
  if canWait then
    (s.registry.hasAsyncActions h).map fun hasAsync => if hasAsync then .async else .sync
  else .ok .sync

/-- Leaving an active scope whose code has come to an end with `failure?`.  The lists tell which
callbacks were run and how they ended; the last failure is the one that goes on. -/
inductive Leaves (body : BodyRuns β σ) (canWait : Bool) (failure? : Option Failure) :
    DeferScope β → σ → List (Action β × Option Failure) → Option Failure → DeferScope β → σ → Prop
  | drained {s : DeferScope β} {h : FrameHandle} {mode : ActionMode} {d : Drain}
      {r₁ r₂ : Registry β} {x x' : σ} {ran : List (Action β × Option Failure)}
      {result : Except Failure DrainOutcome} {o : Dispatched β} {raised? : Option Failure}
      (active : s.handle? = some h) (way : s.leavingMode h canWait = .ok mode)
      (start : Drain.start s.registry h mode (.ofBody failure?) = .ok (d, r₁))
      (runs : Drain.Runs body (d.advance r₁) x ran result x' r₂) (leave : r₂.leave h result = o)
      (goes : o.outgoing? result failure? = raised?) :
      Leaves body canWait failure? s x ran raised? { s.detached with registry := o.registry } x'
  | refused {s : DeferScope β} {h : FrameHandle} {mode : ActionMode} {x : σ} {e : Failure}
      {o : Dispatched β} {raised? : Option Failure} (active : s.handle? = some h)
      (way : s.leavingMode h canWait = .ok mode)
      (start : Drain.start s.registry h mode (.ofBody failure?) = .error e)
      (leave : s.registry.leave h (.error e) = o)
      (goes : o.outgoing? (.error e) failure? = raised?) :
      Leaves body canWait failure? s x [] raised? { s.detached with registry := o.registry } x
  | lost {s : DeferScope β} {h : FrameHandle} {x : σ} {e : Failure} (active : s.handle? = some h)
      (way : s.leavingMode h canWait = .error e) :
      Leaves body canWait failure? s x [] (some e) s.detached x

/-- Some callbacks are registered, one after the other. -/
inductive Filled : DeferScope β → List (Registration × β) → DeferScope β → Prop
  | none (s : DeferScope β) : Filled s [] s
  | more {s s₁ s₂ : DeferScope β} {callbacks : List (Registration × β)} {how : Registration}
      {body : β} (before : Filled s callbacks s₁) (e : s₁.register how body = .ok s₂) :
      Filled s (callbacks ++ [(how, body)]) s₂

/-- A use of a scope, as seen from outside. -/
structure Use (β : Type) where
  isAsync : Bool
  /-- What was registered, in this order. -/
  callbacks : List (Registration × β)
  /-- How the code in the scope came to its end. -/
  failure? : Option Failure
  /-- Which callbacks were run, and how they ended. -/
  ran : List (Action β × Option Failure)
  /-- The failure that went on. -/
  raised? : Option Failure

/-- Some uses of a scope in a row. -/
inductive Uses (body : BodyRuns β σ) : DeferScope β → List (Use β) → DeferScope β → Prop
  | none (s : DeferScope β) : Uses body s [] s
  | again {s s₁ s₂ s₃ s₄ : DeferScope β} {us : List (Use β)} {u : Use β} {x x' : σ}
      (before : Uses body s us s₁) (enter : s₁.enter u.isAsync = .ok s₂)
      (filled : Filled s₂ u.callbacks s₃)
      (leaves : Leaves body u.isAsync u.failure? s₃ x u.ran u.raised? s₄ x') :
      Uses body s (us ++ [u]) s₄

/-! ### Between two uses and within one -/

/-- A scope that nobody uses. -/
structure Idle (s : DeferScope β) : Prop where
  inactive : s.handle? = none
  reachable : s.registry.Reachable
  frames : s.registry.frames = []
  arena : s.registry.arena = .empty

/-- A scope in use: its frame is the only one, and the actions are in the arena. -/
structure Active (s : DeferScope β) (f : ScopeFrame) (actions : List (Action β)) : Prop where
  handle : s.handle? = some ⟨f.id, 0⟩
  reachable : s.registry.Reachable
  frames : s.registry.frames = [f]
  fresh : f.begun = false
  arena : s.registry.arena = ⟨actions⟩
  modes : f.isAsync = false → ∀ a ∈ actions, a.mode = .sync

theorem idle_new (kind : FrameKind) (name : Text) : (new kind name : DeferScope β).Idle :=
  ⟨rfl, ⟨_, .refl⟩, rfl, rfl⟩

/-- A scope that nobody uses has no callbacks. -/
theorem Idle.pending {s : DeferScope β} (h : s.Idle) : s.pending = .ok 0 := by
  simp [DeferScope.pending, h.inactive]

/-- It can be entered, and nothing is registered then. -/
theorem Idle.enter {s : DeferScope β} (h : s.Idle) (isAsync : Bool) :
    ∃ s', s.enter isAsync = .ok s' ∧ ∃ f, s'.Active f [] ∧ f.isAsync = isAsync := by
  obtain ⟨kind, ⟨name, arena, frames, nextId⟩, handle?⟩ := s
  obtain ⟨inactive, reachable, hframes, harena⟩ := h
  simp only at inactive hframes harena
  subst inactive hframes harena
  exact ⟨_, rfl, _, ⟨rfl, reachable.operation (.enter _ _ _ _), rfl, rfl, rfl, by simp⟩,
    rfl⟩

section Active

variable {s s' : DeferScope β} {f : ScopeFrame} {actions : List (Action β)} (h : s.Active f actions)

include h

/-- The arena is the part of the frame. -/
theorem Active.part : f.mark = 0 ∧ f.asyncActions = Registry.asyncCount actions ∧
    s.registry.pending ⟨f.id, 0⟩ = .ok (actions.length : Int) ∧
    s.registry.pendingActions ⟨f.id, 0⟩ = .ok actions := by
  have hframes : s.registry.frames = [] ++ [f] := h.frames
  obtain ⟨below, own, hacts, hout, hmark, hcounts⟩ := h.reachable.sound.innermost hframes
  cases hout
  obtain rfl : own = actions := by simpa [h.arena] using hacts.symm
  have hsplit : s.registry.arena.actions = [] ++ own ++ [] := by simp [h.arena]
  exact ⟨hmark, (hcounts h.fresh).2, Registry.pendingActions_of_split hframes hsplit hmark rfl⟩

theorem Active.pending : s.pending = .ok actions.length := by
  simp only [DeferScope.pending, h.handle]
  exact h.part.2.2.1

/-- A callback may be registered, one that is waited for only where waiting is possible. -/
theorem Active.register (how : Registration) (body : β) (fits : how = .await → f.isAsync = true) :
    ∃ s', s.register how body = .ok s' := by
  have hframes : s.registry.frames = [] ++ [f] := h.frames
  have hmode : (how.action body).mode = .async → f.isAsync = true := by
    intro hm
    cases how <;> first | contradiction | exact fits rfl
  obtain ⟨r', hr⟩ : ∃ r', s.registry.register ⟨f.id, 0⟩ (how.action body) = .ok r' :=
    ⟨_, Registry.register_eq hframes h.fresh hmode rfl⟩
  refine ⟨{ s with registry := r' }, ?_⟩
  simp only [DeferScope.register, h.handle]
  rw [Registration.action] at hr
  rw [hr]
  rfl

theorem Active.registered {how : Registration} {body : β} (e : s.register how body = .ok s') :
    ∃ f', s'.Active f' (actions ++ [how.action body]) ∧ f'.isAsync = f.isAsync := by
  simp only [DeferScope.register, h.handle] at e
  cases hr : s.registry.register ⟨f.id, 0⟩ { body, kind := how.kind, mode := how.mode } with
  | error failure => simp [hr, Except.map] at e
  | ok r' =>
    rw [hr] at e
    obtain rfl := Except.ok.inj e
    obtain ⟨outer, g, hframes, -, hb, hmode, -, rfl⟩ := Registry.register_ok hr
    obtain ⟨rfl, rfl⟩ : outer = [] ∧ g = f := by
      have := hframes.symm.trans h.frames
      simpa [List.append_eq_cons_iff] using this
    refine ⟨Registry.counted g (how.action body),
      ⟨rfl, h.reachable.operation (.register hr), rfl, hb, ?_, ?_⟩, rfl⟩
    · simp only [Arena.push, h.arena]
      rfl
    · intro hsync a ha
      rcases List.mem_append.mp ha with ha | ha
      · exact h.modes hsync a ha
      · obtain rfl := List.mem_singleton.mp ha
        cases hm : (how.action body).mode with
        | sync => rfl
        | async => exact absurd (hmode hm) (by simp [show g.isAsync = false from hsync])

/-- Its frame can be drained in the way in which leaving the scope does it. -/
theorem Active.leavingMode : ∃ mode, s.leavingMode ⟨f.id, 0⟩ f.isAsync = .ok mode ∧
    (mode = .sync → ∀ a ∈ actions, a.mode = .sync) := by
  have hframes : s.registry.frames = [] ++ [f] := h.frames
  cases hasync : f.isAsync with
  | false => exact ⟨.sync, rfl, fun _ => h.modes hasync⟩
  | true =>
    have hcount : s.registry.hasAsyncActions ⟨f.id, 0⟩ = .ok (decide (f.asyncActions > 0)) := by
      have := Registry.frame_innermost hframes
      simp only [Registry.hasAsyncActions, Bind.bind, Except.bind]
      rw [show s.registry.frame ⟨f.id, 0⟩ = .ok f from this]
      rfl
    refine ⟨if decide (f.asyncActions > 0) then .async else .sync, ?_, ?_⟩
    · simp only [DeferScope.leavingMode, hcount, if_true]
      rfl
    · intro hmode a ha
      have hzero : Registry.asyncCount actions = 0 := by
        rw [← h.part.2.1]
        by_contra hpos
        have : f.asyncActions > 0 := Nat.pos_of_ne_zero hpos
        simp [this] at hmode
      have := List.countP_eq_zero.mp hzero a ha
      cases hm : a.mode with
      | sync => rfl
      | async => simp [hm] at this

/-- A scope in use is ready to be drained. -/
theorem Active.start (failure? : Option Failure) : ∃ mode d r₁,
    s.leavingMode ⟨f.id, 0⟩ f.isAsync = .ok mode ∧
      Drain.start s.registry ⟨f.id, 0⟩ mode (.ofBody failure?) = .ok (d, r₁) ∧
      s.registry.Reaches r₁ ∧ d.InProgress r₁ [] { f with draining := true } [] actions := by
  obtain ⟨mode, hmode, sync⟩ := h.leavingMode
  have hframes : s.registry.frames = [] ++ [f] := h.frames
  have hf := Registry.innermostFrame_eq hframes .drain
  obtain ⟨outer, below, d, r₁, hr, -, hacts, hmark, hstart, hreach, hp⟩ :=
    Registry.start_innermost h.reachable hf h.fresh h.part.2.2.2 sync (.ofBody failure?)
  obtain rfl : outer = [] := by simpa [h.frames, List.append_eq_cons_iff] using hr.symm
  obtain rfl : below = [] := by simpa [h.part.1] using hmark.symm
  exact ⟨mode, d, r₁, hmode, hstart, hreach, hp⟩

end Active

/-- What comes out of a drain that has folded the failures of its actions. -/
theorem propagates_outcome {failure? : Option Failure} {failures : List Failure} {d : Drain}
    (e : d.aggregator = failures.foldl Aggregator.record (.start (.ofBody failure?))) :
    Propagates failure? failures (d.outcome.raised?.or failure?) := by
  have hreason : d.outcome.reason =
      (failures.foldl Aggregator.record (.start (.ofBody failure?))).resolve :=
    congrArg Aggregator.resolve e
  have hcount : d.outcome.failures = failures.length := by
    show d.aggregator.failures = _
    rw [e, Aggregator.foldl_record]
  have folded := Folded.of_resolve (.ofBody failure?) failures
  rw [← hreason] at folded
  constructor
  · rintro rfl
    simp [DrainOutcome.raised?, DrainOutcome.overridden, hcount]
  · intro hne
    obtain ⟨e, he, hleaves⟩ := folded.leaves hne
    have hpos : 0 < failures.length := List.length_pos_iff.mpr hne
    refine ⟨e, ?_, by rw [hleaves, heldBack_eq]⟩
    simp [DrainOutcome.raised?, DrainOutcome.overridden, hcount, hpos, he, ExitReason.error?]

section Leaving

variable {body : BodyRuns β σ} {s s' : DeferScope β} {f : ScopeFrame} {actions : List (Action β)}
  (h : s.Active f actions) (orderly : ∀ a ∈ actions, Orderly (body a.body))

include h orderly

/-- Leaving a scope comes to an end. -/
theorem Active.exists_leaves (failure? : Option Failure) (x : σ) :
    ∃ ran raised? s' x', Leaves body f.isAsync failure? s x ran raised? s' x' := by
  obtain ⟨mode, d, r₁, hmode, hstart, -, hp⟩ := h.start failure?
  obtain ⟨ran, result, x', r₂, hruns⟩ := hp.exists_runs actions orderly x
  exact ⟨_, _, _, _, .drained h.handle hmode hstart hruns rfl rfl⟩

/-- Leaving a scope runs its callbacks, the most recent one first, and nobody uses it then. -/
theorem Active.leaves {failure? raised? : Option Failure} {x x' : σ}
    {ran : List (Action β × Option Failure)}
    (hl : Leaves body f.isAsync failure? s x ran raised? s' x') :
    ran.map Prod.fst = actions.reverse ∧ Propagates failure? (ran.filterMap Prod.snd) raised? ∧
      s'.Idle := by
  obtain ⟨mode, d, r₁, hmode, hstart, hreach₁, hp⟩ := h.start failure?
  cases hl with
  | lost active way =>
    obtain rfl := Option.some.inj (h.handle.symm.trans active)
    simp [hmode] at way
  | refused active way start _ _ =>
    obtain rfl := Option.some.inj (h.handle.symm.trans active)
    obtain rfl := Except.ok.inj (hmode.symm.trans way)
    simp [hstart] at start
  | drained active way start runs leave goes =>
    obtain rfl := Option.some.inj (h.handle.symm.trans active)
    obtain rfl := Except.ok.inj (hmode.symm.trans way)
    rw [hstart] at start
    simp only [Except.ok.injEq, Prod.mk.injEq] at start
    obtain ⟨rfl, rfl⟩ := start
    obtain ⟨horder, ⟨o, rfl⟩, hreach₂, hframes, harena⟩ := hp.runs actions orderly runs
    obtain ⟨d', rfl, haggregator⟩ := runs.outcome rfl rfl
    rw [Drain.start_ok hstart] at haggregator
    obtain ⟨r₃, hleave, hreach₃, hframes₃, harena₃⟩ :=
      Registry.leave_eq hframes harena h.part.1 d'.outcome
    rw [show (([] : List ScopeFrame).length : Int) = 0 from rfl] at hleave
    have hreach : s.registry.Reaches r₃ := (hreach₁.trans hreach₂).trans hreach₃
    obtain rfl := hleave.symm.trans leave
    subst goes
    exact ⟨horder, propagates_outcome haggregator, rfl, h.reachable.reaches hreach, hframes₃, harena₃⟩

end Leaving

/-! ### Any number of uses -/

/-- Registered callbacks wait in the arena in the order of their registration. -/
theorem Filled.active {s s' : DeferScope β} {callbacks : List (Registration × β)}
    (h : Filled s callbacks s') {f : ScopeFrame} (active : s.Active f []) :
    ∃ f', s'.Active f' (callbacks.map fun c => c.1.action c.2) ∧ f'.isAsync = f.isAsync := by
  induction h with
  | none => exact ⟨f, active, rfl⟩
  | more _ e ih =>
    obtain ⟨f₁, active₁, hasync₁⟩ := ih
    obtain ⟨f₂, active₂, hasync₂⟩ := active₁.registered e
    exact ⟨f₂, by simpa using active₂, hasync₂.trans hasync₁⟩

/-- Callbacks may be registered one after the other, those that are waited for only where waiting is
possible. -/
theorem Active.exists_filled {s : DeferScope β} {f : ScopeFrame} (active : s.Active f [])
    (callbacks : List (Registration × β))
    (fits : ∀ c ∈ callbacks, c.1 = .await → f.isAsync = true) : ∃ s', Filled s callbacks s' := by
  induction callbacks using List.reverseRecOn with
  | nil => exact ⟨s, .none s⟩
  | append_singleton callbacks c ih =>
    obtain ⟨s₁, filled⟩ := ih fun c hc => fits c (by simp [hc])
    obtain ⟨f₁, active₁, hasync⟩ := filled.active active
    obtain ⟨s₂, e⟩ := active₁.register c.1 c.2 fun hc => hasync.trans (fits c (by simp) hc)
    exact ⟨s₂, .more filled e⟩

/-- What a use of a scope was like. -/
structure Use.Proper (u : Use β) : Prop where
  /-- Each callback was run once, the most recent one first. -/
  order : u.ran.map Prod.fst = (u.callbacks.map fun c => c.1.action c.2).reverse
  propagates : Propagates u.failure? (u.ran.filterMap Prod.snd) u.raised?

theorem Uses.proper {body : BodyRuns β σ} {s s' : DeferScope β} {us : List (Use β)}
    (h : Uses body s us s') (idle : s.Idle)
    (orderly : ∀ u ∈ us, ∀ c ∈ u.callbacks, Orderly (body c.2)) :
    (∀ u ∈ us, u.Proper) ∧ s'.Idle := by
  induction h with
  | none => exact ⟨by simp, idle⟩
  | @again _ _ _ _ us u _ _ _ enter filled leaves ih =>
    obtain ⟨proper, idle₁⟩ := ih fun u hu => orderly u (by simp [hu])
    obtain ⟨s₂, enter', f, active, hasync⟩ := idle₁.enter u.isAsync
    obtain rfl := Except.ok.inj (enter'.symm.trans enter)
    obtain ⟨f₁, active₁, hasync₁⟩ := filled.active active
    rw [← hasync, ← hasync₁] at leaves
    have bodies : ∀ a ∈ u.callbacks.map fun c => c.1.action c.2, Orderly (body a.body) := by
      intro a ha
      obtain ⟨c, hc, rfl⟩ := List.mem_map.mp ha
      exact orderly u (by simp) c hc
    obtain ⟨order, propagates, idle'⟩ := active₁.leaves bodies leaves
    refine ⟨fun v hv => ?_, idle'⟩
    rcases List.mem_append.mp hv with hv | hv
    · exact proper v hv
    · obtain rfl := List.mem_singleton.mp hv
      exact ⟨order, propagates⟩

/-- A use in which a generator is closed while it is in the scope, and the callback that is waited for
fails. -/
def closedUse : Use Nat where
  isAsync := true
  callbacks := [(.call, 0), (.await, 1)]
  failure? := some (.single (.closing ""))
  ran := [({ body := 1, mode := .async }, some (.typeError "")), ({ body := 0 }, none)]
  raised? := some (.typeError "")

end DeferScope

end ScopeExit
