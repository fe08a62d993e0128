import ScopeExit.Proofs.Engine.Drain
/-!
When a dispatch is refused, and what it leaves then.

Opening a drain makes all its checks before it changes anything.  But a dispatch leaves its frame
whatever the drain did, and leaving has checks of its own: they let go a frame that is drained or that
has no actions.  So a refused dispatch changes nothing unless these checks pass.  When they do can be
told from the parts of the arena, as long as actions are taken off through the innermost frame only.  A
frame whose drain is not begun counts its actions then, so one that holds asynchronous actions is not
empty; what is left are frames whose drain was begun and has nothing more to hand out.
-/
namespace ScopeExit

variable {β σ : Type}

namespace Registry

/-! ### What is refused -/

/-- Why the drain of a frame may not be opened in a mode, and the failure that says so. -/
inductive Refusal (r : Registry β) (h : FrameHandle) (mode : ActionMode) : Failure → Prop
  /-- No live frame has the handle. -/
  | lost {failure : Failure} (e : r.frame h = .error failure) : Refusal r h mode failure
  /-- The frame holds asynchronous actions. -/
  | async {f : ScopeFrame} (e : r.frame h = .ok f) (sync : mode = .sync)
      (holds : 0 < f.asyncActions) : Refusal r h mode (.engine .holdsAsync)
  /-- The frame is not the innermost one. -/
  | around {f : ScopeFrame} (e : r.frame h = .ok f) (sync : mode = .sync → f.asyncActions = 0)
      (outer : h.depth + 1 ≠ r.frames.length) :
      Refusal r h mode (.engine (.notInnermost .drain f.id f.kind))
  /-- The drain of the frame is in progress or over. -/
  | begun {f : ScopeFrame} (e : r.frame h = .ok f) (sync : mode = .sync → f.asyncActions = 0)
      (innermost : h.depth + 1 = r.frames.length) (begun : f.begun = true) :
      Refusal r h mode (.engine (.alreadyDrained f.id f.kind))

/-- The checks of leaving let the frame go: it is the innermost one, and it is drained or nothing lies in
the arena above its mark. -/
def Leavable (r : Registry β) (h : FrameHandle) : Prop :=
  ∃ f, r.innermostFrame h .exit = .ok f ∧ (f.drained = true ∨ r.pending h = .ok 0)

/-- The drain of the innermost frame was begun, and it is over or has no action left to hand out. -/
def Spent (r : Registry β) (h : FrameHandle) : Prop :=
  ∃ f, r.innermostFrame h .exit = .ok f ∧ f.begun = true ∧
    (f.drained = true ∨ r.pendingActions h = .ok [])

/-- A handle names no live frame if it is stale, or counts from the end and goes too far. -/
theorem frame_error {r : Registry β} {h : FrameHandle} {failure : Failure}
    (e : r.frame h = .error failure) :
    failure = .engine (.staleHandle h.frame) ∨
      (h.depth < -(r.frames.length : Int) ∧ failure = .host .index) := by
  simp only [frame] at e
  split at e
  · rename_i low
    exact .inr ⟨low, (Except.error.inj e).symm⟩
  · split at e
    · split at e
      · contradiction
      · exact .inl (Except.error.inj e).symm
    · exact .inl (Except.error.inj e).symm

theorem innermostFrame_of_frame {r : Registry β} {h : FrameHandle} {f : ScopeFrame}
    (e : r.frame h = .ok f) (verb : FrameVerb) :
    r.innermostFrame h verb =
      if h.depth + 1 = r.frames.length then .ok f
      else .error (.engine (.notInnermost verb f.id f.kind)) := by
  simp only [innermostFrame, e, Bind.bind, Except.bind]
  split <;> rfl

theorem innermostFrame_error {r : Registry β} {h : FrameHandle} {failure : Failure}
    (e : r.frame h = .error failure) (verb : FrameVerb) :
    r.innermostFrame h verb = .error failure := by
  simp only [innermostFrame, e, Bind.bind, Except.bind]

/-- Opening a drain of a live frame, check by check. -/
theorem start_of_frame {r : Registry β} {h : FrameHandle} {f : ScopeFrame} (e : r.frame h = .ok f)
    (mode : ActionMode) (reason : ExitReason) :
    Drain.start r h mode reason =
      if mode = .sync ∧ 0 < f.asyncActions then .error (.engine .holdsAsync)
      else if h.depth + 1 ≠ r.frames.length then
        .error (.engine (.notInnermost .drain f.id f.kind))
      else if f.begun = true then .error (.engine (.alreadyDrained f.id f.kind))
      else .ok (⟨h, Drain.closed f, mode, 0, .start reason⟩,
        r.setFrame h { f with draining := true }) := by
  have hasync : r.hasAsyncActions h = .ok (decide (0 < f.asyncActions)) := by
    simp [hasAsyncActions, e, Bind.bind, Except.bind, Pure.pure, Except.pure]
  simp only [Drain.start, hasync, beginDrain, innermostFrame_of_frame e, Bind.bind, Except.bind,
    Bool.and_eq_true, decide_eq_true_eq]
  by_cases holds : mode = .sync ∧ 0 < f.asyncActions
  · simp only [holds, and_self, if_true]
    rfl
  · simp only [holds, if_false]
    by_cases hd : h.depth + 1 = r.frames.length
    · simp only [hd, if_true, ne_eq, not_true_eq_false, if_false]
      by_cases hb : f.begun = true
      · have hb' : (f.drained || f.draining) = true := hb
        simp only [hb, hb', if_true]
        rfl
      · have hb' : ¬ (f.drained || f.draining) = true := hb
        simp only [hb, hb']
        rfl
    · simp only [hd, if_false, ne_eq, not_false_eq_true, if_true]

/-- The drain of a frame is refused for the reasons listed, and for no other one. -/
theorem start_error_iff {r : Registry β} {h : FrameHandle} {mode : ActionMode} {failure : Failure}
    (reason : ExitReason) :
    Drain.start r h mode reason = .error failure ↔ Refusal r h mode failure := by
  constructor
  · intro start
    cases e : r.frame h with
    | error lost =>
      have hlost : Drain.start r h mode reason = .error lost := by
        simp only [Drain.start, hasAsyncActions, e, Bind.bind, Except.bind]
      rw [hlost] at start
      exact .lost (Except.error.inj start ▸ e)
    | ok f =>
      rw [start_of_frame e] at start
      split at start
      · rename_i holds
        exact Except.error.inj start ▸ .async e holds.1 holds.2
      · rename_i holds
        have sync : mode = .sync → f.asyncActions = 0 := by
          intro hm
          have : ¬ 0 < f.asyncActions := fun hpos => holds ⟨hm, hpos⟩
          omega
        split at start
        · rename_i outer
          exact Except.error.inj start ▸ .around e sync outer
        · rename_i innermost
          split at start
          · rename_i begun
            exact Except.error.inj start ▸ .begun e sync (by simpa using innermost) begun
          · contradiction
  · intro refusal
    cases refusal with
    | lost e => simp only [Drain.start, hasAsyncActions, e, Bind.bind, Except.bind]
    | async e sync holds => rw [start_of_frame e, if_pos ⟨sync, holds⟩]
    | around e sync outer =>
      rw [start_of_frame e, if_neg (fun holds => by have := sync holds.1; omega), if_pos outer]
    | begun e sync innermost begun =>
      rw [start_of_frame e, if_neg (fun holds => by have := sync holds.1; omega),
        if_neg (fun outer => outer innermost), if_pos begun]

/-! ### Leaving a frame that may not be drained -/

/-- The number of actions of a live frame is always known. -/
theorem pending_of_frame {r : Registry β} {h : FrameHandle} {f : ScopeFrame} (e : r.frame h = .ok f) :
    ∃ n, r.pending h = .ok n := by
  simp only [pending, e, Bind.bind, Except.bind]
  split <;> exact ⟨_, rfl⟩

/-- Leaving a frame is a breach of a contract or goes well, if its handle does not go too far. -/
theorem exit_error {r : Registry β} {h : FrameHandle} {failure : Failure}
    (e : r.exit h = .error failure) :
    (∃ cause, failure = .engine cause) ∨ h.depth < -(r.frames.length : Int) := by
  cases hf : r.frame h with
  | error lost =>
    simp only [exit, innermostFrame_error hf, Bind.bind, Except.bind, Except.error.injEq] at e
    subst e
    rcases frame_error hf with hstale | ⟨low, -⟩
    · exact .inl ⟨_, hstale⟩
    · exact .inr low
  | ok f =>
    left
    simp only [exit, innermostFrame_of_frame hf, Bind.bind, Except.bind] at e
    by_cases hd : h.depth + 1 = r.frames.length
    · obtain ⟨n, hn⟩ := pending_of_frame hf
      simp only [hd, if_true, hn] at e
      split at e
      · exact ⟨_, (Except.error.inj e).symm⟩
      · contradiction
    · simp only [hd, if_false, Except.error.injEq] at e
      exact ⟨_, e.symm⟩

/-- A frame is left exactly if the checks of leaving let it go. -/
theorem exit_ok_iff {r : Registry β} {h : FrameHandle} : (∃ r', r.exit h = .ok r') ↔ Leavable r h := by
  unfold Leavable
  cases hf : r.innermostFrame h .exit with
  | error failure => simp [exit, hf, Bind.bind, Except.bind]
  | ok f =>
    obtain ⟨outer, hr, rfl⟩ := innermostFrame_ok hf
    obtain ⟨n, hn⟩ := pending_of_frame (frame_innermost hr)
    simp only [exit, hf, hn, Bind.bind, Except.bind, Except.ok.injEq, exists_eq_left']
    by_cases hleft : f.drained = true ∨ n = 0
    · have hpass : (!f.drained && decide (n ≠ 0)) = false := by
        rcases hleft with hd | rfl <;> simp [*]
      simp only [hpass, hleft, iff_true]
      exact ⟨_, rfl⟩
    · have hstop : (!f.drained && decide (n ≠ 0)) = true := by simpa using hleft
      simp only [hstop, if_true]
      simpa using hleft

/-- Where the parts of the arena are in order, a frame whose drain is refused is let go exactly if it is
spent. -/
theorem Refusal.leavable_iff {r : Registry β} (hs : r.Sound) {h : FrameHandle} {mode : ActionMode}
    {failure : Failure} (refusal : Refusal r h mode failure) : Leavable r h ↔ Spent r h := by
  have empty : ∀ {f}, r.innermostFrame h .exit = .ok f →
      (r.pending h = .ok 0 ↔ r.pendingActions h = .ok []) := by
    intro f hf
    obtain ⟨outer, below, own, hr, rfl, hacts, hmark, -, hown⟩ := hs.of_innermostFrame hf
    have hsplit : r.arena.actions = below ++ own ++ [] := by simpa using hacts
    rw [(pendingActions_of_split hr hsplit hmark rfl).1, hown]
    simp
  constructor
  · rintro ⟨f, hf, hleft⟩
    rw [empty hf] at hleft
    refine ⟨f, hf, ?_, hleft⟩
    obtain ⟨outer, below, own, hr, rfl, -, -, hcounts, hown⟩ := hs.of_innermostFrame hf
    have hframe := frame_innermost hr
    cases refusal with
    | lost e => simp [hframe] at e
    | around e _ outer => simp [hr] at outer
    | begun e _ _ begun =>
      obtain rfl := Except.ok.inj (hframe.symm.trans e)
      exact begun
    | async e _ holds =>
      obtain rfl := Except.ok.inj (hframe.symm.trans e)
      rcases hleft with hdrained | hnone
      · simp [ScopeFrame.begun, hdrained]
      · -- a frame that counts its actions and has none holds no asynchronous ones
        by_contra hb
        obtain rfl : own = [] := by simpa [hown] using hnone
        have := (hcounts (by simpa using hb)).2
        simp only [asyncCount, List.countP_nil] at this
        omega
  · rintro ⟨f, hf, -, hleft⟩
    exact ⟨f, hf, hleft.imp id (empty hf).mpr⟩

/-! ### A refused dispatch -/

/-- What a dispatch has done whose drain was refused with a failure. -/
structure Declined (r : Registry β) (s : σ) (h : FrameHandle) (failure : Failure)
    (ran : List (Action β × Option Failure)) (o : Dispatched β) (s' : σ) : Prop where
  /-- No action was run. -/
  idle : ran = []
  world : s' = s
  /-- No drain is reported. -/
  silent : o.record? = none
  /-- The dispatch fails: a contract was breached, unless the handle goes too far. -/
  fails : ∃ e, o.result = .error e ∧
    ((∃ cause, e = .engine cause) ∨ h.depth < -(r.frames.length : Int))
  /-- The registry is the same as before exactly if the checks of leaving hold the frame back. -/
  kept : o.registry = r ↔ ¬ Leavable r h
  /-- A frame that they let go is left with all that lies above its mark, and no other one. -/
  left : Leavable r h → o.result = .error failure ∧ ∃ f, r.innermostFrame h .exit = .ok f ∧
    o.registry = { r with frames := r.frames.dropLast, arena := r.arena.truncate f.mark }
  /-- If actions were taken off through the innermost frame only, they let go spent frames and no
  others. -/
  spent : r.Reachable → (Leavable r h ↔ Spent r h)

theorem Refusal.breach {r : Registry β} {h : FrameHandle} {mode : ActionMode} {failure : Failure}
    (refusal : Refusal r h mode failure) :
    (∃ cause, failure = .engine cause) ∨ h.depth < -(r.frames.length : Int) := by
  cases refusal with
  | lost e =>
    rcases frame_error e with hstale | ⟨low, -⟩
    · exact .inl ⟨_, hstale⟩
    · exact .inr low
  | async => exact .inl ⟨_, rfl⟩
  | around => exact .inl ⟨_, rfl⟩
  | begun => exact .inl ⟨_, rfl⟩

theorem Refusal.declined {body : BodyRuns β σ} {r : Registry β} {h : FrameHandle} {mode : ActionMode}
    {failure : Failure} (refusal : Refusal r h mode failure)
    {reason : ExitReason} {s s' : σ} {ran : List (Action β × Option Failure)} {o : Dispatched β}
    (hd : Dispatches body ran r s h mode reason o s') : Declined r s h failure ran o s' := by
  have hstart := (start_error_iff reason).mpr refusal
  have spent : r.Reachable → (Leavable r h ↔ Spent r h) := fun hreach =>
    refusal.leavable_iff hreach.sound
  cases hd with
  | drained start => simp [hstart] at start
  | refused start =>
    obtain rfl := Except.error.inj (hstart.symm.trans start)
    cases hexit : r.exit h with
    | error e =>
      have kept : ¬ Leavable r h := by
        rw [← exit_ok_iff, hexit]
        simp
      have hleave : r.leave h (.error failure) = ⟨.error e, none, r⟩ := by simp [leave, hexit]
      rw [hleave]
      exact ⟨rfl, rfl, rfl, ⟨e, rfl, exit_error hexit⟩, by simp [kept], fun h => absurd h kept, spent⟩
    | ok r' =>
      have leavable : Leavable r h := exit_ok_iff.mp ⟨r', hexit⟩
      have hleave : r.leave h (.error failure) = ⟨.error failure, none, r'⟩ := by
        simp [leave, hexit]
      obtain ⟨outer, f, hr, rfl, rfl⟩ := exit_ok hexit
      rw [hleave]
      have left : ({ r with frames := outer, arena := r.arena.truncate f.mark } : Registry β) =
          { r with frames := r.frames.dropLast, arena := r.arena.truncate f.mark } := by simp [hr]
      refine ⟨rfl, rfl, rfl, ⟨failure, rfl, refusal.breach⟩, ?_,
        fun _ => ⟨rfl, f, innermostFrame_eq hr .exit, left⟩, spent⟩
      simp only [leavable, not_true_eq_false, iff_false]
      intro same
      have := congrArg (fun r => r.frames.length) same
      simp [hr] at this

/-- **Main result.**  In every registry, whatever has led to it: a dispatch that may not drain the frame
of its handle in its mode runs no action, reports no drain and fails, and it leaves the registry as it
is, except that a frame is left which is spent, or which looks so because actions were taken off through
the frames around it. -/
theorem refused_dispatch {body : BodyRuns β σ} {r : Registry β} {h : FrameHandle} {mode : ActionMode}
    {failure : Failure} (refusal : Refusal r h mode failure) (reason : ExitReason) (s : σ) :
    (∃ o, Dispatches body [] r s h mode reason o s) ∧
      ∀ ran o s', Dispatches body ran r s h mode reason o s' → Declined r s h failure ran o s' :=
  ⟨⟨_, .refused ((start_error_iff reason).mpr refusal)⟩, fun _ _ _ hd => refusal.declined hd⟩

/-- The frame with two actions after its drain was opened. -/
def openedDrain : Registry Nat :=
  { twoActions with frames := twoActions.frames.map fun f => { f with draining := true } }

theorem openedDrain_reachable : openedDrain.Reachable :=
  twoActions_reachable.operation (.beginDrain (h := ⟨0, 0⟩) rfl)

/-- While a drain has actions left, a second dispatch of its frame changes nothing. -/
theorem refused_dispatch_openedDrain :
    Refusal openedDrain ⟨0, 0⟩ .sync (.engine (.alreadyDrained 0 .block)) ∧
      ∃ o, Dispatches quietBody [] openedDrain () ⟨0, 0⟩ .sync .normal o () ∧
        o.registry = openedDrain := by
  have refusal : Refusal openedDrain ⟨0, 0⟩ .sync (.engine (.alreadyDrained 0 .block)) :=
    (start_error_iff .normal).mp rfl
  have kept : ¬ Spent openedDrain ⟨0, 0⟩ := by
    rintro ⟨f, hf, -, hleft⟩
    obtain rfl := Except.ok.inj hf
    rcases hleft with hdrained | hnone
    · exact Bool.noConfusion hdrained
    · exact List.cons_ne_nil _ _ (Except.ok.inj hnone)
  obtain ⟨o, hd⟩ : ∃ o, Dispatches quietBody [] openedDrain () ⟨0, 0⟩ .sync .normal o () :=
    (refused_dispatch refusal .normal ()).1
  have declined := (refused_dispatch refusal .normal ()).2 _ _ _ hd
  exact ⟨refusal, o, hd, declined.kept.mpr fun leavable =>
    kept ((declined.spent openedDrain_reachable).mp leavable)⟩

/-- A body that dispatches the frame it was registered in and takes no notice of the failure. -/
def redispatch (_ : Nat) (s : Unit) (r : Registry Nat) (failure? : Option Failure) (s' : Unit)
    (r' : Registry Nat) : Prop :=
  failure? = none ∧ ∃ o, Dispatches quietBody [] r s ⟨0, 0⟩ .sync .normal o s' ∧ r' = o.registry

/-- Once a drain has handed out its last action its frame is spent.  When that action dispatches the
frame again, the refused dispatch takes the frame away, and the drain that is running fails. -/
theorem twoActions_redispatch :
    (∃ r : Registry Nat, r.Reachable ∧
      Refusal r ⟨0, 0⟩ .sync (.engine (.alreadyDrained 0 .block)) ∧
      ∃ o, Dispatches quietBody [] r () ⟨0, 0⟩ .sync .normal o () ∧
        r.frames.length = 1 ∧ o.registry.frames = []) ∧
      ∃ ran o, Dispatches redispatch ran twoActions () ⟨0, 0⟩ .sync .normal o () ∧
        ran.map (fun x => x.1.body) = [1, 0] ∧
        o.result = .error (.engine (.staleHandle 0)) := by
  have first : openedDrain.popAction ⟨0, 0⟩ =
      .ok (some { body := 1 }, { openedDrain with arena := ⟨[{ body := 0 }]⟩ }) := rfl
  have last : ({ openedDrain with arena := ⟨[{ body := 0 }]⟩ } : Registry Nat).popAction ⟨0, 0⟩ =
      .ok (some { body := 0 }, { openedDrain with arena := ⟨[]⟩ }) := rfl
  constructor
  · refine ⟨{ openedDrain with arena := ⟨[]⟩ }, ?_, (start_error_iff .normal).mp rfl,
      _, .refused rfl, rfl, rfl⟩
    exact (openedDrain_reachable.operation (.popAction rfl first)).operation (.popAction rfl last)
  · refine ⟨_, _, .drained rfl (.run ⟨rfl, _, .refused rfl, rfl⟩
      (.run ⟨rfl, _, .refused rfl, rfl⟩ .ended)), rfl, rfl⟩

end Registry

end ScopeExit
