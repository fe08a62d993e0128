import ScopeExit.Proofs.Engine.Drain
/-!
A drain that waits for its actions does what a drain that does not wait would do.

The owner of an asynchronous drain calls the bodies of the actions as they are handed out.  Where the
call of an asynchronous action gives something to wait for, the drain is suspended and other tasks run
until that has settled.  They may do anything to the world, except for this one registry.  A body may
enter and leave frames of its own before it gives something to wait for; of this nothing remains but
the identities that were used.

The synchronous drain to compare with knows nothing of all this: its frame has the same actions, all of
them synchronous, and the body of the first action that it starts ends as the first action of the
asynchronous drain has ended, and so on.
-/
namespace ScopeExit

variable {β ω σ : Type}

/-! ### Waiting -/

/-- What the call of a body gives. -/
inductive Called (ω : Type) where
  | returned
  | raised (failure : Failure)
  | awaitable (x : ω)

/-- What is waited for after a call; a synchronous action is never waited for. -/
def Called.awaited? (mode : ActionMode) : Called ω → Option ω
  | .awaitable x => if mode = .async then some x else none
  | _ => none

/-- The failure of a call. -/
def Called.failure? : Called ω → Option Failure
  | .raised failure => some failure
  | _ => none

/-- What the program around a drain does. -/
structure Tasks (β ω σ : Type) where
  /-- The call of a body, and how many frames it has entered and left. -/
  calls : β → σ → Called ω → Nat → σ → Prop
  /-- While the drain is suspended other tasks run. -/
  ticks : σ → σ → Prop
  /-- What is waited for has settled. -/
  settles : ω → σ → Option Failure → Prop

/-- How an action came to its end. -/
structure Ending where
  failure? : Option Failure
  /-- How many frames its body has entered and left. -/
  frames : Nat

/-- The registry after some frames were entered and left. -/
def Registry.passed (r : Registry β) (n : Nat) : Registry β := { r with nextId := r.nextId + n }

/-- What an asynchronous dispatch is at. -/
inductive Stage (β ω : Type) where
  | going (step : DrainStep β)
  /-- The drain is suspended in an action. -/
  | waiting (a : Action β) (frames : Nat) (d : Drain) (x : ω)
  | finished (o : Dispatched β)

/-- A moment of an asynchronous dispatch. -/
structure Moment (β ω σ : Type) where
  stage : Stage β ω
  registry : Registry β
  world : σ
  /-- The actions that were started so far, in the order of time. -/
  started : List (Action β)
  /-- How those of them that have ended came to their end. -/
  ends : List Ending

/-- The drain takes in how an action ended. -/
def Moment.settled (q : Moment β ω σ) (d : Drain) (r : Registry β) (e : Ending) : Moment β ω σ :=
  { q with stage := .going (d.settle r e.failure?).1, registry := (d.settle r e.failure?).2,
           ends := q.ends ++ [e] }

/-- One step of an asynchronous dispatch. -/
inductive Moment.Step (tasks : Tasks β ω σ) (h : FrameHandle) : Moment β ω σ → Moment β ω σ → Prop
  /-- An action ends with the call of its body. -/
  | ended {q : Moment β ω σ} {a : Action β} {d : Drain} {called : Called ω} {n : Nat} {s : σ}
      (stage : q.stage = .going (.run a d)) (calls : tasks.calls a.body q.world called n s)
      (now : called.awaited? a.mode = none) :
      Step tasks h q (Moment.settled { q with world := s, started := q.started ++ [a] } d
        (q.registry.passed n) ⟨called.failure?, n⟩)
  /-- An action is waited for. -/
  | suspended {q : Moment β ω σ} {a : Action β} {d : Drain} {called : Called ω} {n : Nat} {s : σ}
      {x : ω} (stage : q.stage = .going (.run a d)) (calls : tasks.calls a.body q.world called n s)
      (later : called.awaited? a.mode = some x) :
      Step tasks h q { q with stage := .waiting a n d x, registry := q.registry.passed n,
                              world := s, started := q.started ++ [a] }
  | tick {q : Moment β ω σ} {a : Action β} {n : Nat} {d : Drain} {x : ω} {s : σ}
      (stage : q.stage = .waiting a n d x) (ticks : tasks.ticks q.world s) :
      Step tasks h q { q with world := s }
  | woken {q : Moment β ω σ} {a : Action β} {n : Nat} {d : Drain} {x : ω} {failure? : Option Failure}
      (stage : q.stage = .waiting a n d x) (settles : tasks.settles x q.world failure?) :
      Step tasks h q (q.settled d q.registry ⟨failure?, n⟩)
  | left {q : Moment β ω σ} {result : Except Failure DrainOutcome}
      (stage : q.stage = .going (.ended result)) :
      Step tasks h q { q with stage := .finished (q.registry.leave h result),
                              registry := (q.registry.leave h result).registry }

/-- Some steps. -/
abbrev Moment.Steps (tasks : Tasks β ω σ) (h : FrameHandle) :
    Moment β ω σ → Moment β ω σ → Prop := Relation.ReflTransGen (Moment.Step tasks h)

/-- The asynchronous dispatch of a frame begins. -/
def Moment.start (r : Registry β) (h : FrameHandle) (reason : ExitReason) (s : σ) : Moment β ω σ :=
  match Drain.start r h .async reason with
  | .ok (d, r₁) => ⟨.going (d.advance r₁).1, (d.advance r₁).2, s, [], []⟩
  | .error failure =>
    ⟨.finished (r.leave h (.error failure)), (r.leave h (.error failure)).registry, s, [], []⟩

/-! ### The synchronous counterpart -/

/-- The same action, to be run without waiting. -/
def Action.synced (a : Action β) : Action β := { a with mode := .sync }

/-- The same frame without asynchronous actions. -/
def ScopeFrame.synced (f : ScopeFrame) : ScopeFrame := { f with asyncActions := 0 }

/-- The same registry with synchronous actions in the innermost frame. -/
def Registry.synced (r : Registry β) : Registry β :=
  match r.frames.getLast? with
  | none => r
  | some f =>
    { r with
      frames := r.frames.dropLast ++ [f.synced]
      arena := ⟨r.arena.actions.take f.mark ++ (r.arena.above f.mark).map Action.synced⟩ }

/-- Bodies that end as the list says, one after the other. -/
def replay : BodyRuns β (List Ending) := fun _ ends r failure? rest r' =>
  ∃ e, ends = e :: rest ∧ failure? = e.failure? ∧ r' = r.passed e.frames

def DrainOutcome.synced (o : DrainOutcome) : DrainOutcome :=
  { o with mode := .sync, frame := o.frame.synced }

def Drain.synced (d : Drain) : Drain := { d with mode := .sync, frame := d.frame.synced }

def DrainStep.synced : DrainStep β → DrainStep β
  | .run a d => .run a.synced d.synced
  | .ended result => .ended (result.map DrainOutcome.synced)

namespace Registry

variable {r : Registry β} {outer : List ScopeFrame} {f : ScopeFrame}

theorem synced_eq (hr : r.frames = outer ++ [f]) :
    r.synced =
      { r with
        frames := outer ++ [f.synced]
        arena := ⟨r.arena.actions.take f.mark ++ (r.arena.above f.mark).map Action.synced⟩ } := by
  simp [synced, hr]

@[simp] theorem synced_passed (r : Registry β) (n : Nat) : (r.passed n).synced = r.synced.passed n := by
  simp only [synced, passed]
  split <;> rfl

/-- An action that is taken off was above the mark. -/
theorem pop?_some {arena arena' : Arena (Action β)} {mark : Nat} {a : Action β}
    (e : arena.pop? mark = some (a, arena')) :
    ∃ below own, arena = ⟨below ++ own ++ [a]⟩ ∧ arena' = ⟨below ++ own⟩ ∧ mark = below.length := by
  have hlt : mark < arena.size := by
    by_contra hle
    rw [(Arena.pop?_eq_none_iff _ _).mpr (Nat.le_of_not_lt hle)] at e
    contradiction
  have hmark : mark = (arena.actions.take mark).length := by
    rw [List.length_take]
    simp only [Arena.size] at hlt
    omega
  obtain ⟨own, hown, harena⟩ := popped_own (List.take_append_drop mark arena.actions).symm hmark e
  refine ⟨_, own, ?_, harena, hmark⟩
  rw [List.append_assoc, ← hown, List.take_append_drop]

/-- The parts of a registry with synchronous actions. -/
theorem synced_split (hr : r.frames = outer ++ [f]) {below own : List (Action β)}
    (hacts : r.arena.actions = below ++ own) (hmark : f.mark = below.length) :
    r.synced = { r with frames := outer ++ [f.synced], arena := ⟨below ++ own.map Action.synced⟩ } := by
  rw [synced_eq hr, Arena.above, hacts, hmark, List.take_left, List.drop_left]

/-- Taking an action off makes no difference to which actions are synchronous. -/
theorem popAction_synced (hr : r.frames = outer ++ [f]) (hd : f.draining = true)
    {a? : Option (Action β)} {r' : Registry β}
    (e : r.popAction ⟨f.id, outer.length⟩ = .ok (a?, r')) :
    r.synced.popAction ⟨f.id, outer.length⟩ = .ok (a?.map Action.synced, r'.synced) ∧
      r'.frames = r.frames := by
  have hframes : r.synced.frames = outer ++ [f.synced] := by rw [synced_eq hr]
  have hpop := popAction_eq hframes hd
  obtain ⟨-, ⟨rfl, hle, rfl⟩ | ⟨a, arena, rfl, ha, rfl⟩⟩ := popAction_ok (frame_innermost hr) e
  · have hnone : r'.synced.arena.pop? f.synced.mark = none := by
      rw [Arena.pop?_eq_none_iff, synced_eq hr]
      simp only [Arena.size, Arena.above, List.length_append, List.length_map, List.length_take,
        List.length_drop] at hle ⊢
      simp only [ScopeFrame.synced]
      omega
    rw [hnone] at hpop
    exact ⟨hpop, rfl⟩
  · obtain ⟨below, own, harena, rfl, hmark⟩ := pop?_some ha
    have hacts : r.arena.actions = below ++ (own ++ [a]) := by rw [harena, List.append_assoc]
    have hsplit := synced_split hr hacts hmark
    have hsome : r.synced.arena.pop? f.synced.mark =
        some (a.synced, ⟨below ++ own.map Action.synced⟩) := by
      have hpush : r.synced.arena =
          (⟨below ++ own.map Action.synced⟩ : Arena (Action β)).push a.synced := by
        simp [hsplit, Arena.push]
      rw [hpush]
      apply Arena.pop?_push
      simp [Arena.size, ScopeFrame.synced, hmark]
    have hrest : ({ r with arena := ⟨below ++ own⟩ } : Registry β).synced =
        { r.synced with arena := ⟨below ++ own.map Action.synced⟩ } := by
      rw [synced_split (r := { r with arena := ⟨below ++ own⟩ }) hr rfl hmark, hsplit]
    rw [hsome] at hpop
    exact ⟨hrest ▸ hpop, rfl⟩

/-- Nor does closing a drain. -/
theorem finishDrain_synced (hr : r.frames = outer ++ [f]) :
    ∃ r', r.finishDrain ⟨f.id, outer.length⟩ = .ok r' ∧ r'.frames = outer ++ [Drain.closed f] ∧
      r'.arena = r.arena ∧ r.synced.finishDrain ⟨f.id, outer.length⟩ = .ok r'.synced := by
  have hframes : r.synced.frames = outer ++ [f.synced] := by rw [synced_eq hr]
  refine ⟨_, finishDrain_eq hr, rfl, rfl, (finishDrain_eq hframes).trans ?_⟩
  rw [synced_eq hr, synced_eq (f := Drain.closed f) rfl]
  rfl

/-- Nor does leaving the frame. -/
theorem exit_synced (hr : r.frames = outer ++ [Drain.closed f]) :
    r.synced.exit ⟨f.id, outer.length⟩ = r.exit ⟨f.id, outer.length⟩ := by
  have hframes : r.synced.frames = outer ++ [(Drain.closed f).synced] := by rw [synced_eq hr]
  have harena : r.synced.arena.truncate f.mark = r.arena.truncate f.mark := by
    rw [synced_eq hr]
    simp only [Arena.truncate, Arena.above, Drain.closed]
    congr 1
    rcases Nat.le_total f.mark r.arena.actions.length with hle | hle
    · rw [List.take_left' (by rw [List.length_take]; omega)]
    · rw [List.drop_eq_nil_of_le hle, List.map_nil, List.append_nil, List.take_take, Nat.min_self]
  have hout := exit_eq hr rfl
  have hin := exit_eq hframes rfl
  refine hin.trans (Eq.trans ?_ hout.symm)
  simp only [ScopeFrame.synced, Drain.closed] at harena ⊢
  rw [harena, synced_eq hr]

end Registry

/-! ### Step by step -/

/-- What a drain asks for after an action of the innermost frame has ended, or at its start.  Either an
action is taken off and handed out, or the drain is closed. -/
structure DrainStep.Fits (h : FrameHandle) (outer : List ScopeFrame) (f : ScopeFrame)
    (arena : Arena (Action β)) (failure? : Option Failure) (next : DrainStep β × Registry β) : Prop
    where
  run : ∀ a d, next.1 = .run a d → d.handle = h ∧ next.2.frames = outer ++ [f] ∧
    arena.above f.mark = next.2.arena.above f.mark ++ [a] ∧ next.2.arena.size < arena.size
  ended : ∀ result, next.1 = .ended result → next.2.frames = outer ++ [Drain.closed f] ∧
    next.2.arena = arena ∧ ((∀ e ∈ failure?, e.severity = .ordinary) → ∃ o, result = .ok o)

namespace Drain

/-! The frame `f` is the innermost one, it is draining, and `h` is its handle. -/

variable {d : Drain} {r : Registry β} {h : FrameHandle} {outer : List ScopeFrame} {f : ScopeFrame}
  (hh : h = ⟨f.id, outer.length⟩) (hd : d.handle = h) (hr : r.frames = outer ++ [f])

include hh hd hr

/-- Closing a drain makes no difference to which actions are synchronous. -/
theorem close_synced (result : Except Failure DrainOutcome) :
    ∃ r', d.close r result = (result, r') ∧ r'.frames = outer ++ [closed f] ∧ r'.arena = r.arena ∧
      d.synced.close r.synced (result.map DrainOutcome.synced) =
        (result.map DrainOutcome.synced, r'.synced) := by
  obtain ⟨r', hfinish, hframes, harena, hsynced⟩ := Registry.finishDrain_synced hr
  refine ⟨r', ?_, hframes, harena, ?_⟩
  · simp only [close, hd, hh, hfinish]
  · simp only [close, synced, hd, hh, hsynced]

variable (draining : f.draining = true)

include draining

/-- What a drain asks for next, and that its synchronous counterpart asks for the same. -/
theorem advance_synced :
    DrainStep.Fits h outer f r.arena none (d.advance r) ∧
      d.synced.advance r.synced = ((d.advance r).1.synced, (d.advance r).2.synced) := by
  have hpop := Registry.popAction_eq hr draining
  have hhandle : d.synced.handle = ⟨f.id, outer.length⟩ := hd.trans hh
  cases ha : r.arena.pop? f.mark with
  | none =>
    rw [ha] at hpop
    obtain ⟨hsynced, -⟩ := Registry.popAction_synced hr draining hpop
    obtain ⟨r', hclose, hframes, harena, hclosed⟩ := close_synced hh hd hr (.ok d.outcome)
    have hadvance : d.advance r = (.ended (.ok d.outcome), r') := by
      simp only [advance, hd.trans hh, hpop, hclose]
    have houtcome : (.ok d.synced.outcome : Except Failure DrainOutcome) =
        (Except.ok d.outcome).map DrainOutcome.synced := rfl
    rw [hadvance]
    constructor
    · refine ⟨by simp, ?_⟩
      rintro result he
      obtain rfl := DrainStep.ended.inj he
      exact ⟨hframes, harena, fun _ => ⟨_, rfl⟩⟩
    · simp only [advance, hhandle, hsynced, Option.map_none, houtcome, hclosed]
      rfl
  | some popped =>
    obtain ⟨a, arena⟩ := popped
    rw [ha] at hpop
    obtain ⟨hsynced, -⟩ := Registry.popAction_synced hr draining hpop
    obtain ⟨below, own, harena, rfl, hmark⟩ := Registry.pop?_some ha
    have hadvance : d.advance r =
        (.run a { d with executed := d.executed + 1 }, { r with arena := ⟨below ++ own⟩ }) := by
      simp only [advance, hd.trans hh, hpop]
    rw [hadvance]
    constructor
    · refine ⟨?_, by simp⟩
      rintro a' d' he
      obtain ⟨rfl, rfl⟩ := DrainStep.run.inj he
      refine ⟨hd, hr, ?_, ?_⟩
      · simp [Arena.above, harena, hmark]
      · simp [Arena.size, harena]
    · simp only [advance, hhandle, hsynced, Option.map_some]
      rw [← hhandle]
      rfl

/-- The same after an action has ended. -/
theorem settle_synced (failure? : Option Failure) :
    DrainStep.Fits h outer f r.arena failure? (d.settle r failure?) ∧
      d.synced.settle r.synced failure? =
        ((d.settle r failure?).1.synced, (d.settle r failure?).2.synced) := by
  cases failure? with
  | none => exact advance_synced hh hd hr draining
  | some failure =>
    simp only [settle]
    split
    · obtain ⟨fits, hsynced⟩ := advance_synced (d := { d with aggregator := d.aggregator.record failure })
        hh hd hr draining
      refine ⟨⟨fits.run, fun result he => ?_⟩, hsynced⟩
      obtain ⟨hframes, harena, hok⟩ := fits.ended result he
      exact ⟨hframes, harena, fun _ => hok (by simp)⟩
    · rename_i hsevere
      obtain ⟨r', hclose, hframes, harena, hclosed⟩ := close_synced hh hd hr (.error failure)
      have hfailure : (.error failure : Except Failure DrainOutcome) =
          (Except.error failure).map DrainOutcome.synced := rfl
      rw [hclose]
      constructor
      · refine ⟨by simp, fun result _ => ⟨hframes, harena, fun hordinary => ?_⟩⟩
        exact absurd (hordinary failure rfl) hsevere
      · rw [hfailure, hclosed]
        rfl

end Drain

/-- Leaving the frame makes no difference to which actions were synchronous, except in the record. -/
theorem Registry.leave_synced {r : Registry β} {outer : List ScopeFrame} {f : ScopeFrame}
    (hr : r.frames = outer ++ [Drain.closed f]) (result : Except Failure DrainOutcome) :
    r.synced.leave ⟨f.id, outer.length⟩ (result.map DrainOutcome.synced) =
      { r.leave ⟨f.id, outer.length⟩ result with
        record? := (r.leave ⟨f.id, outer.length⟩ result).record?.map fun x =>
          { x with mode := .sync } } := by
  have hexit := exit_eq hr rfl
  rw [show (Drain.closed f).id = f.id from rfl] at hexit
  simp only [leave, exit_synced hr, hexit]
  cases result with
  | error failure => rfl
  | ok o =>
    simp only [Except.map, recordOf?, DrainOutcome.synced]
    split <;> rfl

/-! ### What is true at every moment -/

section Moments

variable {tasks : Tasks β ω σ} {h : FrameHandle} {outer : List ScopeFrame} {f : ScopeFrame}
  {own : List (Action β)} {q q' : Moment β ω σ}

/-- All failures so far are ordinary ones. -/
def Moment.Ordinary (q : Moment β ω σ) : Prop :=
  ∀ e ∈ q.ends, ∀ failure ∈ e.failure?, failure.severity = .ordinary

/-- At every moment the actions that were taken off are those that were started, and all of them but
the one that is waited for have ended. -/
def Moment.Fits (h : FrameHandle) (outer : List ScopeFrame) (f : ScopeFrame) (own : List (Action β))
    (q : Moment β ω σ) : Prop :=
  match q.stage with
  | .going (.run a d) => d.handle = h ∧ q.registry.frames = outer ++ [f] ∧
      own = q.registry.arena.above f.mark ++ [a] ++ q.started.reverse ∧
      q.started.length = q.ends.length
  | .going (.ended result) => q.registry.frames = outer ++ [Drain.closed f] ∧
      q.started.length = q.ends.length ∧ (q.Ordinary → ∃ o, result = .ok o)
  | .waiting a _ d _ => d.handle = h ∧ q.registry.frames = outer ++ [f] ∧
      own = q.registry.arena.above f.mark ++ q.started.reverse ∧
      ∃ earlier, q.started = earlier ++ [a] ∧ earlier.length = q.ends.length
  | .finished o => q.started.length = q.ends.length ∧ (q.Ordinary → ∃ reason, o.result = .ok reason)

/-- A drain goes on with what fits. -/
theorem Moment.Fits.going {step : DrainStep β} {r : Registry β} {s : σ} {started : List (Action β)}
    {ends : List Ending} {arena : Arena (Action β)} {failure? : Option Failure}
    (fits : DrainStep.Fits h outer f arena failure? (step, r))
    (hown : own = arena.above f.mark ++ started.reverse) (hlength : started.length = ends.length)
    (last : (⟨.going step, r, s, started, ends⟩ : Moment β ω σ).Ordinary →
      ∀ e ∈ failure?, e.severity = .ordinary) :
    Moment.Fits h outer f own (⟨.going step, r, s, started, ends⟩ : Moment β ω σ) := by
  cases step with
  | run a d =>
    obtain ⟨hd, hframes, habove, -⟩ := fits.run a d rfl
    exact ⟨hd, hframes, by rw [hown, habove], hlength⟩
  | ended result =>
    obtain ⟨hframes, -, hok⟩ := fits.ended result rfl
    exact ⟨hframes, hlength, fun hordinary => hok (last hordinary)⟩

variable (hh : h = ⟨f.id, outer.length⟩) (draining : f.draining = true)

include hh draining

theorem Moment.Fits.settled {d : Drain} {r : Registry β} {e : Ending} (hd : d.handle = h)
    (hr : r.frames = outer ++ [f]) (hown : own = r.arena.above f.mark ++ q.started.reverse)
    (hlength : q.started.length = q.ends.length + 1) :
    (q.settled d r e).Fits h outer f own := by
  refine .going (Drain.settle_synced hh hd hr draining e.failure?).1 hown (by simp [hlength]) ?_
  exact fun hordinary => hordinary e (by simp)

/-- What one step keeps. -/
theorem Moment.Fits.step (fits : q.Fits h outer f own) (st : Moment.Step tasks h q q') :
    q'.Fits h outer f own := by
  cases st with
  | @ended a d called n s stage calls now =>
    simp only [Moment.Fits, stage] at fits
    obtain ⟨hd, hr, hown, hlength⟩ := fits
    exact .settled hh draining hd hr (by simpa [Registry.passed] using hown) (by simp [hlength])
  | @suspended a d called n s x stage calls later =>
    simp only [Moment.Fits, stage] at fits
    obtain ⟨hd, hr, hown, hlength⟩ := fits
    exact ⟨hd, hr, by simpa [Registry.passed] using hown, _, rfl, hlength⟩
  | @tick a n d x s stage ticks =>
    simp only [Moment.Fits, stage] at fits ⊢
    exact fits
  | @woken a n d x failure? stage settles =>
    simp only [Moment.Fits, stage] at fits
    obtain ⟨hd, hr, hown, earlier, hstarted, hlength⟩ := fits
    exact .settled hh draining hd hr hown (by simp [hstarted, hlength])
  | @left result stage =>
    simp only [Moment.Fits, stage] at fits
    obtain ⟨hr, hlength, hok⟩ := fits
    refine ⟨hlength, fun hordinary => ?_⟩
    obtain ⟨o, rfl⟩ := hok hordinary
    have hexit := Registry.exit_eq hr rfl
    rw [show (Drain.closed f).id = f.id from rfl, ← hh] at hexit
    exact ⟨o.reason, by simp only [Registry.leave, hexit]⟩

/-- What a run keeps. -/
theorem Moment.Fits.steps (fits : q.Fits h outer f own) (sts : Moment.Steps tasks h q q') :
    q'.Fits h outer f own := by
  induction sts with
  | refl => exact fits
  | tail _ st ih => exact ih.step hh draining st

/-! ### The rest of a dispatch -/

/-- From what a drain asks for to the end of the dispatch: the synchronous counterpart runs the same
actions, which end in the same way, and comes to the same end. -/
def Rest (h : FrameHandle) (outer : List ScopeFrame) (f : ScopeFrame)
    (next : DrainStep β × Registry β) (ran : List (Action β × Option Failure)) (ends : List Ending)
    (o : Dispatched β) : Prop :=
  ∃ (result : Except Failure DrainOutcome) (r : Registry β),
    Drain.Runs replay (next.1.synced, next.2.synced) ends ran (result.map DrainOutcome.synced) []
      r.synced ∧
    r.frames = outer ++ [Drain.closed f] ∧ o = r.leave h result

/-- An action that has ended comes before the rest. -/
theorem Rest.cons {a : Action β} {d : Drain} {r : Registry β} {n : Nat} {failure? : Option Failure}
    {ran : List (Action β × Option Failure)} {ends : List Ending} {o : Dispatched β}
    (hd : d.handle = h) (hr : r.frames = outer ++ [f])
    (rest : Rest h outer f (d.settle (r.passed n) failure?) ran ends o) :
    Rest h outer f (.run a d, r) ((a.synced, failure?) :: ran) (⟨failure?, n⟩ :: ends) o := by
  obtain ⟨result, r', hruns, hr', ho⟩ := rest
  have hsettle := (Drain.settle_synced (r := r.passed n) hh hd hr draining failure?).2
  rw [← hsettle, Registry.synced_passed] at hruns
  exact ⟨result, r', .run ⟨_, rfl, rfl, rfl⟩ hruns, hr', ho⟩

/-- The synchronous counterpart starts what is started from some moment on, and sees it end in the same
way. -/
theorem Moment.Fits.rest (fits : q.Fits h outer f own) (sts : Moment.Steps tasks h q q')
    {o : Dispatched β} (finished : q'.stage = .finished o) :
    ∃ ran ends, q'.ends = q.ends ++ ends ∧
      q'.started.map Action.synced = q.started.map Action.synced ++ ran.map Prod.fst ∧
      match q.stage with
      | .going step => Rest h outer f (step, q.registry) ran ends o
      | .waiting _ n d _ => ∃ failure? rest, ends = ⟨failure?, n⟩ :: rest ∧
          Rest h outer f (d.settle q.registry failure?) ran rest o
      | .finished o' => ran = [] ∧ ends = [] ∧ o' = o := by
  induction sts using Relation.ReflTransGen.head_induction_on with
  | refl =>
    refine ⟨[], [], by simp, by simp, ?_⟩
    rw [finished]
    exact ⟨rfl, rfl, rfl⟩
  | @head q q₁ st _ ih =>
    obtain ⟨ran, ends, hends, hstarted, hrest⟩ := ih (fits.step hh draining st)
    cases st with
    | @ended a d called n s stage calls now =>
      simp only [Moment.Fits, stage] at fits
      obtain ⟨hd, hr, -⟩ := fits
      simp only [Moment.settled, List.append_assoc] at hends
      refine ⟨(a.synced, called.failure?) :: ran, _, hends, by simpa [Moment.settled] using hstarted, ?_⟩
      rw [stage]
      exact Rest.cons hh draining hd hr hrest
    | @suspended a d called n s x stage calls later =>
      simp only [Moment.Fits, stage] at fits
      obtain ⟨hd, hr, -⟩ := fits
      obtain ⟨failure?, rest, rfl, hrest⟩ := hrest
      refine ⟨(a.synced, failure?) :: ran, _, hends, by simpa using hstarted, ?_⟩
      rw [stage]
      exact Rest.cons hh draining hd hr hrest
    | @tick a n d x s stage ticks =>
      refine ⟨ran, ends, hends, hstarted, ?_⟩
      simp only [stage] at hrest ⊢
      exact hrest
    | @woken a n d x failure? stage settles =>
      simp only [Moment.settled, List.append_assoc] at hends
      refine ⟨ran, _, hends, hstarted, ?_⟩
      rw [stage]
      exact ⟨failure?, ends, rfl, hrest⟩
    | @left result stage =>
      simp only [Moment.Fits, stage] at fits
      obtain ⟨rfl, rfl, rfl⟩ := hrest
      refine ⟨[], [], hends, hstarted, ?_⟩
      rw [stage]
      exact ⟨result, _, .ended, fits.1, rfl⟩

end Moments

/-! ### Coming to an end -/

section Completion

variable {tasks : Tasks β ω σ} (calls : ∀ b s, ∃ called n s', tasks.calls b s called n s')
  (settles : ∀ x s, ∃ s' failure?, Relation.ReflTransGen tasks.ticks s s' ∧
    tasks.settles x s' failure?)
  {h : FrameHandle} {q : Moment β ω σ}

include settles in
/-- What is waited for settles. -/
theorem Moment.waits {a : Action β} {n : Nat} {d : Drain} {x : ω}
    (stage : q.stage = .waiting a n d x) :
    ∃ s e, Moment.Steps tasks h q (Moment.settled { q with world := s } d q.registry e) := by
  obtain ⟨s, failure?, hticks, hsettles⟩ := settles x q.world
  have suspended : ∀ s, Relation.ReflTransGen tasks.ticks q.world s →
      Moment.Steps tasks h q { q with world := s } := by
    intro s hs
    induction hs with
    | refl => exact .refl
    | @tail s s' _ hs ih => exact ih.tail (.tick (q := { q with world := s }) stage hs)
  exact ⟨s, ⟨failure?, n⟩, (suspended s hticks).tail (.woken (q := { q with world := s }) stage hsettles)⟩

include calls settles in
/-- An action that is handed out ends. -/
theorem Moment.runs {a : Action β} {d : Drain} (stage : q.stage = .going (.run a d)) :
    ∃ s n e, Moment.Steps tasks h q (Moment.settled { q with world := s, started := q.started ++ [a] } d
      (q.registry.passed n) e) := by
  obtain ⟨called, n, s, hcalls⟩ := calls a.body q.world
  cases hx : called.awaited? a.mode with
  | none => exact ⟨s, n, _, .single (.ended stage hcalls hx)⟩
  | some x =>
    have hstep := Moment.Step.suspended (h := h) stage hcalls hx
    obtain ⟨s', e, hwaits⟩ := Moment.waits settles (h := h)
      (q := { q with stage := .waiting a n d x, registry := q.registry.passed n,
                     world := s, started := q.started ++ [a] }) rfl
    exact ⟨s', n, e, (Relation.ReflTransGen.single hstep).trans hwaits⟩

variable {outer : List ScopeFrame} {f : ScopeFrame} {own : List (Action β)}
  (hh : h = ⟨f.id, outer.length⟩) (draining : f.draining = true)

include calls settles hh draining

/-- After an action the dispatch comes to its end: each time there is an action less. -/
theorem Moment.settled_completes : ∀ {size : Nat} {q : Moment β ω σ} {d : Drain} {r : Registry β}
    {e : Ending}, r.arena.size = size → d.handle = h → r.frames = outer ++ [f] →
    ∃ q' o, Moment.Steps tasks h (q.settled d r e) q' ∧ q'.stage = .finished o := by
  intro size
  induction size using Nat.strongRecOn with
  | _ size ih =>
    intro q d r e hsize hd hr
    have fits := (Drain.settle_synced hh hd hr draining e.failure?).1
    cases hnext : (d.settle r e.failure?).1 with
    | ended result =>
      have stage : (q.settled d r e).stage = .going (.ended result) := by
        simp only [Moment.settled, hnext]
      exact ⟨_, _, .single (.left stage), rfl⟩
    | run a d' =>
      obtain ⟨hd', hr', -, hlt⟩ := fits.run a d' hnext
      have stage : (q.settled d r e).stage = .going (.run a d') := by
        simp only [Moment.settled, hnext]
      obtain ⟨s, n, e', hruns⟩ := Moment.runs calls settles (h := h) stage
      rw [hsize] at hlt
      obtain ⟨q', o, hsteps, hover⟩ := ih _ hlt
        (q := { q.settled d r e with world := s, started := (q.settled d r e).started ++ [a] })
        (e := e') (d := d') (r := (q.settled d r e).registry.passed n) rfl hd' hr'
      exact ⟨q', o, hruns.trans hsteps, hover⟩

/-- If whatever is waited for settles, a dispatch can always come to its end. -/
theorem Moment.Fits.completes (fits : q.Fits h outer f own) :
    ∃ q' o, Moment.Steps tasks h q q' ∧ q'.stage = .finished o := by
  cases hstage : q.stage with
  | finished o => exact ⟨q, o, .refl, hstage⟩
  | waiting a n d x =>
    simp only [Moment.Fits, hstage] at fits
    obtain ⟨s, e, hwaits⟩ := Moment.waits settles (h := h) hstage
    obtain ⟨q', o, hsteps, hover⟩ :=
      Moment.settled_completes calls settles hh draining (q := { q with world := s }) (e := e) rfl
        fits.1 fits.2.1
    exact ⟨q', o, hwaits.trans hsteps, hover⟩
  | going step =>
    cases step with
    | ended result => exact ⟨_, _, .single (.left hstage), rfl⟩
    | run a d =>
      simp only [Moment.Fits, hstage] at fits
      obtain ⟨s, n, e, hruns⟩ := Moment.runs calls settles (h := h) hstage
      obtain ⟨q', o, hsteps, hover⟩ :=
        Moment.settled_completes calls settles hh draining
          (q := { q with world := s, started := q.started ++ [a] }) (e := e)
          (r := q.registry.passed n) rfl fits.1 fits.2.1
      exact ⟨q', o, hruns.trans hsteps, hover⟩

end Completion

/-! ### A whole dispatch -/

/-- The list of endings determines what a drain with these endings does. -/
theorem Drain.Runs.unique {next : DrainStep β × Registry β} {ends rest rest' : List Ending}
    {ran ran' : List (Action β × Option Failure)} {result result' : Except Failure DrainOutcome}
    {r r' : Registry β} (h : Drain.Runs replay next ends ran result rest r)
    (h' : Drain.Runs replay next ends ran' result' rest' r') :
    ran' = ran ∧ result' = result ∧ r' = r := by
  induction h generalizing ran' with
  | ended =>
    cases h'
    exact ⟨rfl, rfl, rfl⟩
  | run body _ ih =>
    cases h' with
    | run body' rest' =>
      obtain ⟨e, rfl, rfl, rfl⟩ := body
      obtain ⟨e', he, rfl, rfl⟩ := body'
      obtain ⟨rfl, rfl⟩ := List.cons.inj he
      obtain ⟨rfl, hresult, hr⟩ := ih rest'
      exact ⟨rfl, hresult, hr⟩

/-- An action is waited for: those that were started before it have ended, and no other action of the
frame was taken off. -/
structure Moment.Serial (r : Registry β) (h : FrameHandle) (q : Moment β ω σ) (a : Action β) : Prop where
  settled : ∃ earlier, q.started = earlier ++ [a] ∧ earlier.length = q.ends.length
  left : ∃ rest, q.registry.pendingActions h = .ok rest ∧
    r.pendingActions h = .ok (rest ++ q.started.reverse)

/-- A dispatch is over: it came to what the synchronous dispatch comes to if the actions are
synchronous and end in the same way. -/
structure Moment.Refines (r : Registry β) (h : FrameHandle) (reason : ExitReason)
    (q : Moment β ω σ) (o : Dispatched β) : Prop where
  /-- The exit reason is the same, and so is the registry.  The record has the same counts. -/
  sync : ∃ ran, Registry.Dispatches replay ran r.synced q.ends h .sync reason
      { o with record? := o.record?.map fun x => { x with mode := .sync } } [] ∧
    ran.map Prod.fst = q.started.map Action.synced
  unique : ∀ ran o' rest, Registry.Dispatches replay ran r.synced q.ends h .sync reason o' rest →
    o' = { o with record? := o.record?.map fun x => { x with mode := .sync } }
  ended : q.started.length = q.ends.length
  succeeds : q.Ordinary → ∃ reason', o.result = .ok reason'

/-- **Main result.**  Whatever the registry and the exit reason: the asynchronous dispatch of the
innermost frame, whose drain is not begun, can always go on to its end if whatever is waited for
settles.  While it waits it has taken off and started no other action, and at its end it has come to
what the synchronous dispatch of synchronous actions with the same endings comes to. -/
theorem Registry.suspended_dispatch {tasks : Tasks β ω σ}
    (calls : ∀ b s, ∃ called n s', tasks.calls b s called n s')
    (settles : ∀ x s, ∃ s' failure?, Relation.ReflTransGen tasks.ticks s s' ∧
      tasks.settles x s' failure?)
    {r : Registry β} {h : FrameHandle} {f : ScopeFrame} (hf : r.innermostFrame h .drain = .ok f)
    (fresh : f.begun = false) (reason : ExitReason) (s : σ) {q : Moment β ω σ}
    (steps : Moment.Steps tasks h (.start r h reason s) q) :
    (∃ q' o, Moment.Steps tasks h q q' ∧ q'.stage = .finished o) ∧
      (∀ a n d x, q.stage = .waiting a n d x → q.Serial r h a) ∧
      ∀ o, q.stage = .finished o → q.Refines r h reason o := by
  obtain ⟨outer, hr, hh⟩ := innermostFrame_ok hf
  -- the drain is opened in the same way in the counterpart
  have hframes : r.synced.frames = outer ++ [f.synced] := by rw [synced_eq hr]
  have hstart : Drain.start r _ .async reason = _ := Drain.start_eq hr fresh (by simp) reason
  have hsync : Drain.start r.synced _ .sync reason = _ :=
    Drain.start_eq hframes fresh (fun _ => rfl) reason
  obtain ⟨d, hd⟩ : ∃ d : Drain, d = ⟨h, Drain.closed f, .async, 0, .start reason⟩ := ⟨_, rfl⟩
  obtain ⟨r₁, hr₁⟩ : ∃ r₁ : Registry β,
      r₁ = { r with frames := outer ++ [{ f with draining := true }] } := ⟨_, rfl⟩
  rw [← hh, ← hd, ← hr₁] at hstart
  have hframes₁ : r₁.frames = outer ++ [{ f with draining := true }] := by rw [hr₁]
  have hsync : Drain.start r.synced h .sync reason = .ok (d.synced, r₁.synced) := by
    have hsynced₁ := synced_eq hframes₁
    have hhandle : h = ⟨f.synced.id, outer.length⟩ := hh
    rw [hhandle, hsync, hsynced₁, hd, hr₁, synced_eq hr, hh]
    rfl
  have hh₁ : h = ⟨({ f with draining := true } : ScopeFrame).id, outer.length⟩ := hh
  obtain ⟨hfits, hadvance⟩ := Drain.advance_synced (d := d) hh₁ (by rw [hd]) hframes₁ rfl
  have hmoment : Moment.start (ω := ω) r h reason s =
      ⟨.going (d.advance r₁).1, (d.advance r₁).2, s, [], []⟩ := by
    simp only [Moment.start, hstart]
  have hown : r.pendingActions h = .ok (r.arena.above f.mark) := by
    rw [hh]
    exact pendingActions_innermost hr
  rw [hmoment] at steps
  have first : Moment.Fits h outer { f with draining := true } (r.arena.above f.mark)
      (⟨.going (d.advance r₁).1, (d.advance r₁).2, s, [], []⟩ : Moment β ω σ) :=
    .going hfits (by simp [hr₁]) rfl (by simp)
  have fits := first.steps hh₁ rfl steps
  refine ⟨fits.completes calls settles hh₁ rfl, ?_, ?_⟩
  · intro a n d' x hstage
    simp only [Moment.Fits, hstage] at fits
    obtain ⟨-, hq, habove, hstarted⟩ := fits
    refine ⟨hstarted, _, ?_, hown.trans (congrArg Except.ok habove)⟩
    rw [hh₁]
    exact pendingActions_innermost hq
  · intro o hstage
    obtain ⟨ran, ends, hends, hstarted, result, r', hruns, hr', ho⟩ :=
      first.rest hh₁ rfl steps hstage
    simp only [List.nil_append, List.map_nil] at hends hstarted
    simp only [Moment.Fits, hstage] at fits
    rw [← hadvance, ← hends] at hruns
    have hleave := leave_synced hr' result
    rw [← hh₁, ← ho] at hleave
    refine ⟨⟨ran, ?_, hstarted.symm⟩, ?_, fits.1, fits.2⟩
    · rw [← hleave]
      exact .drained hsync hruns
    · intro ran' o' rest hd'
      cases hd' with
      | refused start => simp [hsync] at start
      | drained start runs =>
        rw [hsync] at start
        obtain ⟨rfl, rfl⟩ := Prod.mk.inj (Except.ok.inj start)
        obtain ⟨-, hresult, hregistry⟩ := hruns.unique runs
        rw [hresult, hregistry, hleave]

/-- A frame with an asynchronous action on top of a synchronous one. -/
def mixedActions : Registry Nat :=
  { name := "f", nextId := 1, arena := ⟨[{ body := 0 }, { body := 1, mode := .async }]⟩,
    frames := [{ id := 0, kind := .block, isAsync := true, mark := 0, parent := none,
                 span := .unknown, registered := 2, asyncActions := 1 }] }

/-- The world is a clock.  The body with the number 1 gives something to wait for, which fails at the
third tick. -/
def clock : Tasks Nat Unit Nat where
  calls b s called n s' := called = (if b = 1 then .awaitable () else .returned) ∧ n = 0 ∧ s' = s
  ticks s s' := s' = s + 1
  settles _ s failure? := 3 ≤ s ∧ failure? = some (.typeError "")

theorem suspended_dispatch_mixedActions :
    ∃ q o, Moment.Steps clock ⟨0, 0⟩ (.start mixedActions ⟨0, 0⟩ .normal 0) q ∧ q.stage = .finished o ∧
      q.Refines mixedActions ⟨0, 0⟩ .normal o := by
  have calls : ∀ b s, ∃ called n s', clock.calls b s called n s' := fun b s =>
    ⟨_, 0, s, rfl, rfl, rfl⟩
  have settles : ∀ x s, ∃ s' failure?, Relation.ReflTransGen clock.ticks s s' ∧
      clock.settles x s' failure? := by
    intro x s
    have tick : ∀ n, clock.ticks n (n + 1) := fun _ => rfl
    refine ⟨s + 3, some (.typeError ""), ?_, by omega, rfl⟩
    exact ((Relation.ReflTransGen.single (tick s)).tail (tick _)).tail (tick _)
  have dispatched := fun q steps => Registry.suspended_dispatch (q := q) (r := mixedActions)
    (h := ⟨0, 0⟩) calls settles rfl rfl .normal 0 steps
  obtain ⟨q, o, steps, stage⟩ := (dispatched _ .refl).1
  exact ⟨q, o, steps, stage, (dispatched q steps).2.2 o stage⟩

end ScopeExit
