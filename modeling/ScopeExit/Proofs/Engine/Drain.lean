import Mathlib.Data.List.Induction
import ScopeExit.Proofs.Engine.Registry
/-!
The actions of a frame run most recent first, each once.

The engine does not run actions; it hands them out to the owner of a drain, who may do anything with
the registry before it asks for the next one.  So the bodies of actions are an arbitrary relation here,
and a whole drain is what `Drain.advance` and `Drain.settle` make of it.  An orderly body may enter,
fill and dispatch frames of its own as long as it leaves the live frames and the arena as it found
them; then the part of the arena that the drain has not handed out yet is a prefix of what it was, and
this prefix is what the induction over a drain is on.
-/
namespace ScopeExit

variable {β σ : Type}

/-! ### Running a drain -/

/-- How bodies run: from a state of the world around and a registry to a failure, if there is one, and
to what they leave. -/
abbrev BodyRuns (β σ : Type) := β → σ → Registry β → Option Failure → σ → Registry β → Prop

/-- A drain to its end: whatever action it hands out is run, and the drain is told how the action
ended.  The list tells which actions were run, in this order, and how they ended. -/
inductive Drain.Runs (body : BodyRuns β σ) :
    DrainStep β × Registry β → σ → List (Action β × Option Failure) →
      Except Failure DrainOutcome → σ → Registry β → Prop
  | ended {result : Except Failure DrainOutcome} {r : Registry β} {s : σ} :
      Runs body (.ended result, r) s [] result s r
  | run {a : Action β} {d : Drain} {r r' r'' : Registry β} {s s' s'' : σ}
      {failure? : Option Failure} {ran : List (Action β × Option Failure)}
      {result : Except Failure DrainOutcome} (h : body a.body s r failure? s' r')
      (rest : Runs body (d.settle r' failure?) s' ran result s'' r'') :
      Runs body (.run a d, r) s ((a, failure?) :: ran) result s'' r''

/-- A dispatch: the frame is drained and left.  The list tells which actions were run. -/
inductive Registry.Dispatches (body : BodyRuns β σ) :
    List (Action β × Option Failure) → Registry β → σ → FrameHandle → ActionMode → ExitReason →
      Dispatched β → σ → Prop
  | drained {r r₁ r₂ : Registry β} {s s' : σ} {h : FrameHandle} {mode : ActionMode}
      {reason : ExitReason} {d : Drain} {ran : List (Action β × Option Failure)}
      {result : Except Failure DrainOutcome} (start : Drain.start r h mode reason = .ok (d, r₁))
      (runs : Drain.Runs body (d.advance r₁) s ran result s' r₂) :
      Dispatches body ran r s h mode reason (r₂.leave h result) s'
  | refused {r : Registry β} {s : σ} {h : FrameHandle} {mode : ActionMode} {reason : ExitReason}
      {failure : Failure} (start : Drain.start r h mode reason = .error failure) :
      Dispatches body [] r s h mode reason (r.leave h (.error failure)) s

/-- A body succeeds or fails in an ordinary way.  It may do operations on the registry, but it leaves
the live frames and the arena as it found them. -/
structure Orderly (body : σ → Registry β → Option Failure → σ → Registry β → Prop) : Prop where
  /-- It comes to an end. -/
  ends : ∀ s r, r.Reachable → ∃ failure? s' r', body s r failure? s' r'
  /-- Its failures are ordinary ones. -/
  ordinary : ∀ {s r failure? s' r'}, r.Reachable → body s r failure? s' r' →
    ∀ e ∈ failure?, e.severity = .ordinary
  /-- All that it does with the registry are operations. -/
  reaches : ∀ {s r failure? s' r'}, r.Reachable → body s r failure? s' r' → r.Reaches r'
  frames : ∀ {s r failure? s' r'}, r.Reachable → body s r failure? s' r' → r'.frames = r.frames
  arena : ∀ {s r failure? s' r'}, r.Reachable → body s r failure? s' r' → r'.arena = r.arena

namespace Drain

/-! ### A drain in progress -/

/-- The frame as its drain leaves it. -/
def closed (f : ScopeFrame) : ScopeFrame := { f with draining := false, drained := true }

/-- The drain with what an action came to, which was an ordinary failure if it was one. -/
def take (d : Drain) (failure? : Option Failure) : Drain :=
  match failure? with
  | none => d
  | some e => { d with aggregator := d.aggregator.record e }

@[simp] theorem take_handle (d : Drain) (failure? : Option Failure) :
    (d.take failure?).handle = d.handle := by
  cases failure? <;> rfl

/-- After an ordinary end of an action the drain goes on. -/
theorem settle_ordinary (d : Drain) (r : Registry β) {failure? : Option Failure}
    (h : ∀ e ∈ failure?, e.severity = .ordinary) :
    d.settle r failure? = (d.take failure?).advance r := by
  cases failure? with
  | none => rfl
  | some e => simp [settle, take, h e rfl]

/-- The innermost frame is being drained, and `own` are its actions that are not handed out yet. -/
structure InProgress (d : Drain) (r : Registry β) (outer : List ScopeFrame) (f : ScopeFrame)
    (below own : List (Action β)) : Prop where
  reachable : r.Reachable
  frames : r.frames = outer ++ [f]
  draining : f.draining = true
  handle : d.handle = ⟨f.id, outer.length⟩
  arena : r.arena = ⟨below ++ own⟩
  mark : f.mark = below.length

/-- With no action left the drain ends with its outcome. -/
theorem InProgress.advance_nil {d : Drain} {r : Registry β} {outer : List ScopeFrame}
    {f : ScopeFrame} {below : List (Action β)} (h : d.InProgress r outer f below []) :
    ∃ r', d.advance r = (.ended (.ok d.outcome), r') ∧ r.Reaches r' ∧
      r'.frames = outer ++ [closed f] ∧ r'.arena = ⟨below⟩ := by
  have hpop : r.popAction d.handle = .ok (none, r) := by
    have hnone : r.arena.pop? f.mark = none := by
      rw [Arena.pop?_eq_none_iff]
      simp [Arena.size, h.arena, h.mark]
    rw [h.handle, Registry.popAction_eq h.frames h.draining, hnone]
  have hfinish := Registry.finishDrain_eq h.frames
  rw [← h.handle] at hfinish
  refine ⟨_, ?_, .single (.finishDrain hfinish), rfl, by simpa using h.arena⟩
  simp [advance, hpop, close, hfinish]

/-- Otherwise it hands out the most recent action. -/
theorem InProgress.advance_snoc {d : Drain} {r : Registry β} {outer : List ScopeFrame}
    {f : ScopeFrame} {below own : List (Action β)} {a : Action β}
    (h : d.InProgress r outer f below (own ++ [a])) :
    ∃ r', d.advance r = (.run a { d with executed := d.executed + 1 }, r') ∧ r.Reaches r' ∧
      { d with executed := d.executed + 1 }.InProgress r' outer f below own := by
  have hsome : r.arena.pop? f.mark = some (a, ⟨below ++ own⟩) := by
    have hpush : r.arena = (⟨below ++ own⟩ : Arena (Action β)).push a := by
      simp [Arena.push, h.arena]
    rw [hpush]
    apply Arena.pop?_push
    simp [Arena.size, h.mark]
  have hpop : r.popAction d.handle = .ok (some a, { r with arena := ⟨below ++ own⟩ }) := by
    rw [h.handle, Registry.popAction_eq h.frames h.draining, hsome]
  have hop : Registry.Operation r { r with arena := ⟨below ++ own⟩ } := by
    refine .popAction (h := d.handle) (f := f) ?_ hpop
    rw [h.handle]
    exact Registry.innermostFrame_eq h.frames _
  refine ⟨_, by simp only [advance, hpop], .single hop, ?_⟩
  exact ⟨h.reachable.operation hop, h.frames, h.draining, h.handle, rfl, h.mark⟩

/-- What a drain hands out is one of its actions. -/
theorem InProgress.advance_run {d d' : Drain} {r r' : Registry β} {outer : List ScopeFrame}
    {f : ScopeFrame} {below own : List (Action β)} {a : Action β}
    (h : d.InProgress r outer f below own) (e : d.advance r = (.run a d', r')) :
    a ∈ own ∧ d'.mode = d.mode := by
  rcases List.eq_nil_or_concat own with rfl | ⟨own, x, rfl⟩
  · obtain ⟨r₁, hadvance, -⟩ := h.advance_nil
    rw [hadvance] at e
    cases e
  · rw [List.concat_eq_append] at h ⊢
    obtain ⟨r₁, hadvance, -⟩ := h.advance_snoc
    rw [hadvance] at e
    cases e
    exact ⟨by simp, rfl⟩

/-- So it is after an action, however that has ended. -/
theorem InProgress.settle_run {d d' : Drain} {r r' : Registry β} {outer : List ScopeFrame}
    {f : ScopeFrame} {below own : List (Action β)} {a : Action β} {failure? : Option Failure}
    (h : d.InProgress r outer f below own) (e : d.settle r failure? = (.run a d', r')) :
    a ∈ own ∧ d'.mode = d.mode := by
  unfold settle at e
  split at e
  · exact h.advance_run e
  · rename_i failure
    have taken : ({ d with aggregator := d.aggregator.record failure } : Drain).InProgress r outer f
        below own := ⟨h.reachable, h.frames, h.draining, h.handle, h.arena, h.mark⟩
    split at e
    · exact taken.advance_run e
    · cases e

/-- An orderly body leaves the drain in progress. -/
theorem InProgress.body {d : Drain} {r r' : Registry β} {outer : List ScopeFrame} {f : ScopeFrame}
    {below own : List (Action β)} (h : d.InProgress r outer f below own)
    {body : σ → Registry β → Option Failure → σ → Registry β → Prop} (orderly : Orderly body)
    {s s' : σ} {failure? : Option Failure} (hb : body s r failure? s' r') :
    (d.take failure?).InProgress r' outer f below own where
  reachable := h.reachable.reaches (orderly.reaches h.reachable hb)
  frames := (orderly.frames h.reachable hb).trans h.frames
  draining := h.draining
  handle := (take_handle _ _).trans h.handle
  arena := (orderly.arena h.reachable hb).trans h.arena
  mark := h.mark

/-! ### A whole drain -/

/-- A drain whose actions have orderly bodies comes to an end. -/
theorem InProgress.exists_runs {body : BodyRuns β σ} {outer : List ScopeFrame} {f : ScopeFrame}
    {below : List (Action β)} (own : List (Action β))
    (orderly : ∀ a ∈ own, Orderly (body a.body)) :
    ∀ {d : Drain} {r : Registry β} (s : σ), d.InProgress r outer f below own →
      ∃ ran result s' r', Runs body (d.advance r) s ran result s' r' := by
  induction own using List.reverseRecOn with
  | nil =>
    intro d r s h
    obtain ⟨r', hadvance, -⟩ := h.advance_nil
    refine ⟨[], .ok d.outcome, s, r', ?_⟩
    rw [hadvance]
    exact .ended
  | append_singleton own a ih =>
    intro d r s h
    obtain ⟨r₁, hadvance, -, h₁⟩ := h.advance_snoc
    have ha : Orderly (body a.body) := orderly a (by simp)
    obtain ⟨failure?, s₁, r₂, hb⟩ := ha.ends s r₁ h₁.reachable
    have hsettle := settle_ordinary { d with executed := d.executed + 1 } r₂
      (ha.ordinary h₁.reachable hb)
    obtain ⟨ran, result, s', r', hrest⟩ :=
      ih (fun b hb => orderly b (by simp [hb])) s₁ (h₁.body ha hb)
    rw [← hsettle] at hrest
    refine ⟨(a, failure?) :: ran, result, s', r', ?_⟩
    rw [hadvance]
    exact .run hb hrest

/-- However the bodies end, a drain hands out all actions of its frame, the most recent first, and
ends with an outcome. -/
theorem InProgress.runs {body : BodyRuns β σ} {outer : List ScopeFrame} {f : ScopeFrame}
    {below : List (Action β)} (own : List (Action β))
    (orderly : ∀ a ∈ own, Orderly (body a.body)) :
    ∀ {d : Drain} {r r' : Registry β} {s s' : σ} {ran : List (Action β × Option Failure)}
      {result : Except Failure DrainOutcome}, d.InProgress r outer f below own →
      Runs body (d.advance r) s ran result s' r' →
      ran.map Prod.fst = own.reverse ∧ (∃ o, result = .ok o) ∧
        r.Reaches r' ∧ r'.frames = outer ++ [closed f] ∧ r'.arena = ⟨below⟩ := by
  induction own using List.reverseRecOn with
  | nil =>
    intro d r r' s s' ran result h hruns
    obtain ⟨r₁, hadvance, hreach, hframes, harena⟩ := h.advance_nil
    rw [hadvance] at hruns
    cases hruns
    exact ⟨rfl, ⟨_, rfl⟩, hreach, hframes, harena⟩
  | append_singleton own a ih =>
    intro d r r' s s' ran result h hruns
    obtain ⟨r₁, hadvance, hreach, h₁⟩ := h.advance_snoc
    have ha : Orderly (body a.body) := orderly a (by simp)
    rw [hadvance] at hruns
    cases hruns with
    | run hb hrest =>
      rw [settle_ordinary _ _ (ha.ordinary h₁.reachable hb)] at hrest
      obtain ⟨horder, hresult, hreach', hframes, harena⟩ :=
        ih (fun b hb => orderly b (by simp [hb])) (h₁.body ha hb) hrest
      refine ⟨?_, hresult, ?_, hframes, harena⟩
      · rw [List.map_cons, horder, List.reverse_append, List.reverse_singleton,
          List.singleton_append]
      · exact (hreach.trans (ha.reaches h₁.reachable hb)).trans hreach'

/-- What all bodies do to the world around, one after the other. -/
inductive Chain (P : σ → Option Failure → σ → Prop) : σ → List (Option Failure) → σ → Prop
  | nil {s : σ} : Chain P s [] s
  | cons {s s' s'' : σ} {failure? : Option Failure} {rest : List (Option Failure)}
      (h : P s failure? s') (next : Chain P s' rest s'') : Chain P s (failure? :: rest) s''

theorem Chain.forall {Q : Option Failure → Prop} {s s' : σ} {ends : List (Option Failure)}
    (h : Chain (fun _ failure? _ => Q failure?) s ends s') : ∀ failure? ∈ ends, Q failure? := by
  induction h with
  | nil => simp
  | cons h _ ih =>
    intro failure? hmem
    rcases List.mem_cons.mp hmem with rfl | hmem
    · exact h
    · exact ih failure? hmem

/-- What is true of every run of the body of an action is true along the drain. -/
theorem InProgress.chain {body : BodyRuns β σ} {outer : List ScopeFrame} {f : ScopeFrame}
    {below : List (Action β)} (own : List (Action β))
    (orderly : ∀ a ∈ own, Orderly (body a.body)) {P : σ → Option Failure → σ → Prop}
    (hP : ∀ a ∈ own, ∀ {s r failure? s' r'}, r.Reachable → body a.body s r failure? s' r' →
      P s failure? s') :
    ∀ {d : Drain} {r r' : Registry β} {s s' : σ} {ran : List (Action β × Option Failure)}
      {result : Except Failure DrainOutcome}, d.InProgress r outer f below own →
      Runs body (d.advance r) s ran result s' r' → Chain P s (ran.map Prod.snd) s' := by
  induction own using List.reverseRecOn with
  | nil =>
    intro d r r' s s' ran result h hruns
    obtain ⟨r₁, hadvance, -⟩ := h.advance_nil
    rw [hadvance] at hruns
    cases hruns
    exact .nil
  | append_singleton own a ih =>
    intro d r r' s s' ran result h hruns
    obtain ⟨r₁, hadvance, -, h₁⟩ := h.advance_snoc
    have ha : Orderly (body a.body) := orderly a (by simp)
    rw [hadvance] at hruns
    cases hruns with
    | run hb hrest =>
      rw [settle_ordinary _ _ (ha.ordinary h₁.reachable hb)] at hrest
      exact .cons (hP a (by simp) h₁.reachable hb)
        (ih (fun b hb => orderly b (by simp [hb])) (fun b hb => hP b (by simp [hb]))
          (h₁.body ha hb) hrest)

/-- The drain of the innermost frame can be opened if it was not opened before, and a synchronous one
if the frame has no asynchronous actions. -/
theorem start_eq {r : Registry β} {outer : List ScopeFrame} {f : ScopeFrame}
    (hr : r.frames = outer ++ [f]) (fresh : f.begun = false) {mode : ActionMode}
    (sync : mode = .sync → f.asyncActions = 0) (reason : ExitReason) :
    Drain.start r ⟨f.id, outer.length⟩ mode reason =
      .ok (⟨⟨f.id, outer.length⟩, closed f, mode, 0, .start reason⟩,
        { r with frames := outer ++ [{ f with draining := true }] }) := by
  have hasync : r.hasAsyncActions ⟨f.id, outer.length⟩ = .ok (decide (f.asyncActions > 0)) := by
    simp [Registry.hasAsyncActions, Registry.frame_innermost hr, Bind.bind, Except.bind,
      Pure.pure, Except.pure]
  have hmode : (decide (mode = .sync) && decide (f.asyncActions > 0)) = false := by
    cases mode with
    | sync => simp [sync rfl]
    | async => rfl
  simp [Drain.start, hasync, hmode, Registry.beginDrain_eq hr fresh, Bind.bind, Except.bind,
    Pure.pure, Except.pure, closed]

/-- An opened drain is in progress. -/
theorem start_inProgress {r : Registry β} (hreach : r.Reachable) {outer : List ScopeFrame}
    {f : ScopeFrame} (hr : r.frames = outer ++ [f]) (fresh : f.begun = false)
    {below own : List (Action β)} (hacts : r.arena.actions = below ++ own)
    (hmark : f.mark = below.length) (mode : ActionMode) (reason : ExitReason) :
    (⟨⟨f.id, outer.length⟩, closed f, mode, 0, .start reason⟩ : Drain).InProgress
      { r with frames := outer ++ [{ f with draining := true }] } outer
      { f with draining := true } below own where
  reachable := hreach.operation (.beginDrain (Registry.beginDrain_eq hr fresh))
  frames := rfl
  draining := rfl
  handle := rfl
  arena := by rw [← hacts]
  mark := hmark

end Drain

namespace Registry

/-! ### A whole dispatch -/

/-- What a dispatch that goes well has done: `actions` are the actions of the frame, `ran` those that
were run. -/
structure Unwound (r : Registry β) (h : FrameHandle) (f : ScopeFrame) (actions : List (Action β))
    (ran : List (Action β × Option Failure)) (o : Dispatched β) : Prop where
  /-- The dispatch itself does not fail. -/
  succeeds : ∃ reason, o.result = .ok reason
  /-- Each action was run once, the most recent one first. -/
  order : ran.map Prod.fst = actions.reverse
  /-- The frame is gone, and no other one. -/
  frames : o.registry.frames = r.frames.dropLast
  /-- Its actions are gone, and no other ones. -/
  arena : o.registry.arena = r.arena.truncate f.mark
  /-- The handle is stale from now on. -/
  stale : ∀ r', o.registry.Reaches r' → r'.frame h = .error (.engine (.staleHandle h.frame))
  /-- The frames around it keep their records and their actions. -/
  outer : ∀ g : FrameHandle, 0 ≤ g.depth → g.depth < h.depth →
    o.registry.frame g = r.frame g ∧ o.registry.pendingActions g = r.pendingActions g

/-- Leaving the frame after its drain. -/
theorem leave_eq {r : Registry β} {outer : List ScopeFrame} {f : ScopeFrame}
    {below : List (Action β)} (hr : r.frames = outer ++ [Drain.closed f]) (ha : r.arena = ⟨below⟩)
    (hm : f.mark = below.length) (d : DrainOutcome) :
    ∃ r', r.leave ⟨f.id, outer.length⟩ (.ok d) = ⟨.ok d.reason, r'.recordOf? d, r'⟩ ∧
      r.Reaches r' ∧ r'.frames = outer ∧ r'.arena = ⟨below⟩ := by
  have hexit := exit_eq hr rfl
  refine ⟨_, ?_, .single (.exit hexit), rfl, ?_⟩
  · simp only [leave]
    rw [show f.id = (Drain.closed f).id from rfl, hexit]
  · show r.arena.truncate f.mark = ⟨below⟩
    simp [ha, Arena.truncate, hm]

/-- When the innermost frame is gone, its handle is stale for good, and the frames around it keep their
records and their actions. -/
theorem Reachable.removed_innermost {r r' : Registry β} (hreach : r.Reachable)
    {outer : List ScopeFrame} {f : ScopeFrame} (hr : r.frames = outer ++ [f])
    (hreaches : r.Reaches r') (hframes : r'.frames = outer)
    (hcut : r'.arena = r.arena.truncate f.mark) :
    (∀ r'', r'.Reaches r'' → r''.frame ⟨f.id, outer.length⟩ = .error (.engine (.staleHandle f.id))) ∧
      ∀ g : FrameHandle, 0 ≤ g.depth → g.depth < outer.length →
        r'.frame g = r.frame g ∧ r'.pendingActions g = r.pendingActions g := by
  constructor
  · intro r'' hr''
    have hids := hreach.sound.ids
    rw [hr, List.pairwise_append] at hids
    apply Reaches.stale hr''
    · exact Nat.lt_of_lt_of_le (hreach.sound.issued f (by simp [hr])) hreaches.nextId_le
    · rw [hframes, List.mem_map]
      rintro ⟨g, hg, hid⟩
      have := hids.2.2 g hg f (by simp)
      omega
  · intro g hlow hhigh
    exact hreach.sound.outer_eq (hreach.reaches hreaches).sound hr hframes hcut hlow hhigh

section Innermost

/-! The frame of the handle `h` is the innermost one, its drain is not begun, and its `actions` may be
run in the mode. -/

variable {body : BodyRuns β σ} {r : Registry β} (hreach : r.Reachable) {h : FrameHandle}
  {f : ScopeFrame} (hf : r.innermostFrame h .drain = .ok f) (fresh : f.begun = false)
  {actions : List (Action β)} (hactions : r.pendingActions h = .ok actions) {mode : ActionMode}
  (sync : mode = .sync → ∀ a ∈ actions, a.mode = .sync)

include hreach hf fresh hactions sync in
/-- Its drain can be opened. -/
theorem start_innermost (reason : ExitReason) :
    ∃ outer below d r₁, r.frames = outer ++ [f] ∧ h = ⟨f.id, outer.length⟩ ∧
      r.arena.actions = below ++ actions ∧ f.mark = below.length ∧
      Drain.start r h mode reason = .ok (d, r₁) ∧ r.Reaches r₁ ∧
      d.InProgress r₁ outer { f with draining := true } below actions := by
  obtain ⟨outer, below, own, hr, rfl, hacts, hmark, hcounts, hown⟩ :=
    hreach.sound.of_innermostFrame hf
  obtain rfl : own = actions := by simpa [hown] using hactions
  have hasync : mode = .sync → f.asyncActions = 0 := fun hm =>
    (hcounts fresh).2.trans (asyncCount_eq_zero (sync hm))
  exact ⟨outer, below, _, _, hr, rfl, hacts, hmark, Drain.start_eq hr fresh hasync reason,
    .single (.beginDrain (beginDrain_eq hr fresh)),
    Drain.start_inProgress hreach hr fresh hacts hmark mode reason⟩

variable (orderly : ∀ a ∈ actions, Orderly (body a.body))

include hreach hf fresh hactions sync orderly

/-- If the bodies are orderly, a dispatch of the frame comes to an end. -/
theorem exists_dispatches (reason : ExitReason) (s : σ) :
    ∃ ran o s', Dispatches body ran r s h mode reason o s' := by
  obtain ⟨_, _, d, r₁, -, -, -, -, hstart, -, hp⟩ :=
    start_innermost hreach hf fresh hactions sync reason
  obtain ⟨ran, result, s', r', hruns⟩ := hp.exists_runs actions orderly s
  exact ⟨_, _, _, .drained hstart hruns⟩

/-- If the bodies are orderly, every dispatch unwinds the frame. -/
theorem Dispatches.unwound {reason : ExitReason} {s s' : σ}
    {ran : List (Action β × Option Failure)} {o : Dispatched β}
    (hd : Dispatches body ran r s h mode reason o s') :
    Unwound r h f actions ran o ∧ r.Reaches o.registry := by
  obtain ⟨outer, below, d, r₁, hr, rfl, hacts, hmark, hstart, hreach₁, hp⟩ :=
    start_innermost hreach hf fresh hactions sync reason
  cases hd with
  | refused start => simp [hstart] at start
  | drained start runs =>
    rw [hstart] at start
    simp only [Except.ok.injEq, Prod.mk.injEq] at start
    obtain ⟨rfl, rfl⟩ := start
    obtain ⟨horder, ⟨outcome, rfl⟩, hreach₂, hframes, harena⟩ := hp.runs actions orderly runs
    obtain ⟨r', hleave, hreach₃, hframes', harena'⟩ := leave_eq hframes harena hmark outcome
    rw [hleave]
    have hreaches : r.Reaches r' := (hreach₁.trans hreach₂).trans hreach₃
    have hcut : r'.arena = r.arena.truncate f.mark := by
      simp [harena', Arena.truncate, hacts, hmark]
    obtain ⟨stale, outer⟩ := hreach.removed_innermost hr hreaches hframes' hcut
    exact ⟨⟨⟨_, rfl⟩, horder, by simp [hframes', hr], hcut, stale, outer⟩, hreaches⟩

/-- What all bodies do to the world around, a dispatch does once for each action. -/
theorem Dispatches.chain {P : σ → Option Failure → σ → Prop}
    (hP : ∀ a ∈ actions, ∀ {s r failure? s' r'}, r.Reachable → body a.body s r failure? s' r' →
      P s failure? s')
    {reason : ExitReason} {s s' : σ} {ran : List (Action β × Option Failure)} {o : Dispatched β}
    (hd : Dispatches body ran r s h mode reason o s') :
    Drain.Chain P s (ran.map Prod.snd) s' := by
  obtain ⟨_, _, d, r₁, -, -, -, -, hstart, -, hp⟩ :=
    start_innermost hreach hf fresh hactions sync reason
  cases hd with
  | refused start => simp [hstart] at start
  | drained start runs =>
    rw [hstart] at start
    simp only [Except.ok.injEq, Prod.mk.injEq] at start
    obtain ⟨rfl, rfl⟩ := start
    exact hp.chain actions orderly hP runs

end Innermost

/-- **Main result.**  Whatever operations led to a registry, and whatever exit reason is pending: a
synchronous dispatch of the innermost frame, whose drain is not begun and whose actions are
synchronous with orderly bodies, comes to an end, and it unwinds the frame. -/
theorem dispatch_lifo {body : BodyRuns β σ} {r : Registry β} (hreach : r.Reachable)
    {h : FrameHandle} {f : ScopeFrame} (hf : r.innermostFrame h .drain = .ok f)
    (fresh : f.begun = false) {actions : List (Action β)}
    (hactions : r.pendingActions h = .ok actions) (sync : ∀ a ∈ actions, a.mode = .sync)
    (orderly : ∀ a ∈ actions, Orderly (body a.body)) (reason : ExitReason) (s : σ) :
    (∃ ran o s', Dispatches body ran r s h .sync reason o s') ∧
      ∀ ran o s', Dispatches body ran r s h .sync reason o s' → Unwound r h f actions ran o := by
  refine ⟨exists_dispatches hreach hf fresh hactions (fun _ => sync) orderly reason s, ?_⟩
  intro ran o s' hd
  exact (hd.unwound hreach hf fresh hactions (fun _ => sync) orderly).1

/-- A body that leaves everything as it is, and fails if its number is not zero. -/
def quietBody (n : Nat) (_ : Unit) (r : Registry Nat) (failure? : Option Failure) (_ : Unit)
    (r' : Registry Nat) : Prop :=
  failure? = (if n = 0 then none else some (.typeError "")) ∧ r' = r

theorem quietBody_orderly (n : Nat) : Orderly (quietBody n) where
  ends _ r _ := ⟨_, (), r, rfl, rfl⟩
  ordinary := by
    rintro _ _ _ _ _ - ⟨rfl, -⟩ e he
    split at he
    · contradiction
    · simp only [Option.mem_def, Option.some.injEq] at he
      rw [← he]
      rfl
  reaches := by
    rintro _ r _ _ _ - ⟨-, rfl⟩
    exact .refl
  frames := by
    rintro _ r _ _ _ - ⟨-, rfl⟩
    rfl
  arena := by
    rintro _ r _ _ _ - ⟨-, rfl⟩
    rfl

/-- A frame with two actions, the second of which fails. -/
def twoActions : Registry Nat :=
  { name := "f", nextId := 1, arena := ⟨[{ body := 0 }, { body := 1 }]⟩,
    frames := [{ id := 0, kind := .block, isAsync := false, mark := 0, parent := none,
                 span := .unknown, registered := 2 }] }

theorem twoActions_reachable : twoActions.Reachable := by
  have entered : Operation { name := "f" } (({ name := "f" } : Registry Nat).enter .block false
    .unknown).2 := .enter _ _ _ _
  have first : Operation (({ name := "f" } : Registry Nat).enter .block false .unknown).2
      { twoActions with
        arena := ⟨[{ body := 0 }]⟩
        frames := twoActions.frames.map fun f => { f with registered := 1 } } :=
    .register (h := ⟨0, 0⟩) (a := { body := 0 }) rfl
  exact ⟨"f", ((Relation.ReflTransGen.single entered).tail first).tail
    (.register (h := ⟨0, 0⟩) (a := { body := 1 }) rfl)⟩

theorem dispatch_lifo_twoActions :
    ∃ ran o, Dispatches quietBody ran twoActions () ⟨0, 0⟩ .sync .normal o () ∧
      ran.map (fun x => x.1.body) = [1, 0] ∧ o.registry.frames = [] := by
  obtain ⟨⟨ran, o, s, hd⟩, all⟩ :=
    dispatch_lifo twoActions_reachable (h := ⟨0, 0⟩) rfl rfl rfl (by decide)
      (fun a _ => quietBody_orderly a.body) .normal ()
  have u := all _ _ _ hd
  refine ⟨ran, o, hd, ?_, u.frames⟩
  have horder := congrArg (List.map Action.body) u.order
  rw [List.map_map] at horder
  exact horder

/-- A frame in which an action was registered after the drain of a frame around it has taken off an
action from below the mark of the frame in between. -/
def crossedMarks : Registry Nat :=
  { name := "f", nextId := 3, arena := ⟨[{ body := 1 }, { body := 3 }]⟩,
    frames := [
      { id := 0, kind := .block, isAsync := false, mark := 0, parent := none, span := .unknown,
        registered := 2, draining := true },
      { id := 1, kind := .block, isAsync := false, mark := 2, parent := some 0, span := .unknown },
      { id := 2, kind := .block, isAsync := false, mark := 1, parent := some 1, span := .unknown,
        registered := 1 }] }

/-- The frame with two actions after its drain was closed, although it was never opened. -/
def closedEarly : Registry Nat :=
  { twoActions with frames := twoActions.frames.map Drain.closed }

/-- Without the condition that only the innermost frame gives up actions, operations lead to a
registry in which the dispatch of the innermost frame changes the actions of an outer one.  And it is
not enough that the drain of the innermost frame is not open: where it is closed already, the dispatch
leaves the frame without running its actions, and fails. -/
theorem dispatch_not_lifo :
    ((do let (h₀, r) := ({ name := "f" } : Registry Nat).enter .block false .unknown
         let r ← r.register h₀ { body := 1 }
         let r ← r.register h₀ { body := 2 }
         let (_, r) ← r.beginDrain h₀
         let (_, r) := r.enter .block false .unknown
         let (_, r) ← r.popAction h₀
         let (h₂, r) := r.enter .block false .unknown
         r.register h₂ { body := 3 }) = .ok crossedMarks ∧
      crossedMarks.innermost? = some ⟨2, 2⟩ ∧
      crossedMarks.pendingActions ⟨2, 2⟩ = .ok [{ body := 3 }] ∧
      crossedMarks.pendingActions ⟨0, 0⟩ = .ok [{ body := 1 }, { body := 3 }] ∧
      ∃ ran o, Dispatches quietBody ran crossedMarks () ⟨2, 2⟩ .sync .normal o () ∧
        o.registry.pendingActions ⟨0, 0⟩ = .ok [{ body := 1 }]) ∧
    closedEarly.Reachable ∧
      (∃ f, closedEarly.innermostFrame ⟨0, 0⟩ .drain = .ok f ∧ f.draining = false) ∧
      closedEarly.pendingActions ⟨0, 0⟩ = .ok [{ body := 0 }, { body := 1 }] ∧
      ∃ o, Dispatches quietBody [] closedEarly () ⟨0, 0⟩ .sync .normal o () ∧
        o.result = .error (.engine (.alreadyDrained 0 .block)) ∧ o.registry.frames = [] := by
  refine ⟨?crossed, ?closed⟩
  case crossed =>
    exact ⟨rfl, rfl, rfl, rfl, _, _, .drained rfl (.run ⟨rfl, rfl⟩ .ended), rfl⟩
  case closed =>
    have reached : closedEarly.Reachable :=
      twoActions_reachable.operation (.finishDrain (h := ⟨0, 0⟩) rfl)
    exact ⟨reached, ⟨_, rfl, rfl⟩, rfl, _, .refused rfl, rfl, rfl⟩

end Registry

end ScopeExit
