import ScopeExit.Proofs.Script.Places
/-!
Records of drains.

A drain that ran an action leaves a record when its frame is left.  A step files no more than one record, and
only where the running action of a drain ends: then the frame is the innermost one of its activation, the
record says how it was drained, and the frame is gone for good.
-/
namespace ScopeExit

/-- A record is right about its drain. -/
structure DrainRecord.Sound (r : DrainRecord) : Prop where
  ran : 1 ≤ r.executed
  failures : r.failures ≤ r.executed
  thrown : r.outcome = .throw ↔ 0 < r.failures ∨ r.pending = .throw
  kept : ¬ (0 < r.failures ∨ r.pending = .throw) → r.outcome = r.pending
  pass : r.kind = .loopIterationBody → r.pending ≠ .normal
  ends : r.pending = .iterationEnd → r.kind = .loopIterationBody

instance (r : DrainRecord) : Decidable r.Sound :=
  decidable_of_iff (1 ≤ r.executed ∧ r.failures ≤ r.executed ∧
    (r.outcome = .throw ↔ 0 < r.failures ∨ r.pending = .throw) ∧
    (¬ (0 < r.failures ∨ r.pending = .throw) → r.outcome = r.pending) ∧
    (r.kind = .loopIterationBody → r.pending ≠ .normal) ∧
    (r.pending = .iterationEnd → r.kind = .loopIterationBody))
    ⟨fun ⟨a, b, c, d, e, f⟩ => ⟨a, b, c, d, e, f⟩, fun h => ⟨h.ran, h.failures, h.thrown, h.kept, h.pass, h.ends⟩⟩

namespace Script

open World Stack

/-- A record with what it is about: the activation, the frame, and the frames around it, the outermost
first. -/
structure Filing where
  activation : Nat
  frame : ScopeFrame
  outer : List ScopeFrame
  record : DrainRecord

/-- The innermost frame of an activation is left, and its drain is reported. -/
structure World.Files (w w' : World) (x : Filing) : Prop where
  before : (w.registry x.activation).frames.map ScopeFrame.key = (x.outer ++ [x.frame]).map ScopeFrame.key
  after : (w'.registry x.activation).frames = x.outer
  name : x.record.activation = (w.registry x.activation).name
  frame : x.record.frame = x.frame.id
  kind : x.record.kind = x.frame.kind
  ledger : w'.ledger = (w.report x.record).ledger

/-- The ledger stays as it is, or takes a record that is right about a frame that is gone. -/
def World.Books (w w' : World) : Prop :=
  w'.ledger = w.ledger ∨
    ∃ x, w.Files w' x ∧ x.record.Sound ∧ (w'.registry x.activation).Gone x.frame.id

/-- What a step leaves right. -/
structure Running.Books (w : World) (s : Running) : Prop where
  accounted : s.Accounted
  ages : w.Ages s.world
  books : w.Books s.world

/-! ### The end of an action -/

section Settling

variable {w : World} {stack : Stack} {a : Nat}

theorem same_setRegistry (w : World) (a b : Nat) {r : Registry Deferred} (same : (w.registry a).Same r) :
    (w.registry b).Same ((w.setRegistry a r).registry b) := by
  by_cases own : b = a
  · subst own
    by_cases inside : b < w.activations.size
    · rwa [w.registry_setRegistry_self inside]
    · rw [World.registry, World.registry, World.activation_setRegistry, if_neg fun h => inside h.2]
      exact .refl _
  · rw [w.registry_setRegistry_of_ne own]
    exact .refl _

/-- An activation with a live frame is there. -/
theorem inside_of_frames {f : ScopeFrame} (live : f ∈ (w.registry a).frames) : a < w.activations.size := by
  by_contra outside
  rw [World.registry, World.activation, Array.getD_eq_getD_getElem?,
    Array.getElem?_eq_none (Nat.le_of_not_lt outside)] at live
  contradiction

/-- A drain that is right about its frame leaves a sound record. -/
theorem sound_record {d : Drain} {r : DrainRecord} (name : Text) (balanced : d.Balanced)
    (leaves : d.frame.kind.Leaves d.aggregator.pending.kind) (ran : d.executed ≠ 0)
    (e : r = { activation := name, frame := d.frame.id, kind := d.frame.kind, mode := d.mode,
               pending := d.aggregator.pending.kind, outcome := d.outcome.reason.kind,
               executed := d.executed, failures := d.aggregator.failures }) : r.Sound := by
  subst e
  have reason : d.outcome.reason = d.aggregator.pending ∧ d.aggregator.failures = 0 ∨
    d.outcome.reason.kind = .throw ∧ 0 < d.aggregator.failures := balanced.fair.reason
  refine ⟨Nat.pos_of_ne_zero ran, balanced.failures, ?_, ?_, leaves.pass, leaves.ends⟩
  · rcases reason with ⟨same, none⟩ | ⟨thrown, some⟩
    · simp [same, none]
    · simp [thrown, some]
  · intro calm
    rcases reason with ⟨same, -⟩ | ⟨-, some⟩
    · exact congrArg ExitReason.kind same
    · exact absurd (.inl some) calm

/-- A frame is left after its drain. -/
theorem books_leaveFrame {d : Drain} {result : Except Failure DrainOutcome} (dated : (w.registry a).Dated)
    (own : ∀ o, result = .ok o → o = d.outcome) (balanced : d.Balanced) (frame : d.handle.frame = d.frame.id)
    (known : (w.registry a).Knows d.handle (· = d.frame.kind))
    (leaves : d.frame.kind.Leaves d.aggregator.pending.kind) :
    w.Books (w.leaveFrame stack a d.handle result).world := by
  simp only [World.leaveFrame]
  cases left : (w.registry a).exit d.handle with
  | error failure =>
    simp only [Registry.leave, left]
    exact .inl rfl
  | ok r =>
    cases result with
    | error failure =>
      simp only [Registry.leave, left]
      exact .inl rfl
    | ok o =>
      obtain rfl := own o rfl
      obtain ⟨outer, f, frames, handle, exited⟩ := Registry.exit_ok left
      have live : f ∈ (w.registry a).frames := by simp [frames]
      simp only [Registry.leave, left, Registry.recordOf?]
      by_cases none : d.outcome.executed = 0
      · simp only [none, if_true]
        exact .inl rfl
      · simp only [none, if_false]
        have after : (w.setRegistry a r).registry a = r :=
          w.registry_setRegistry_self (inside_of_frames live) r
        have same : f.id = d.frame.id := by
          rw [handle] at frame
          exact Int.ofNat.inj frame
        have kind : f.kind = d.frame.kind := known.kind f live (congrArg FrameHandle.frame handle).symm
        refine .inr ⟨⟨a, f, outer, _⟩, ⟨?_, ?_, ?_, same.symm, kind.symm, rfl⟩,
          sound_record _ balanced leaves none rfl, ?_⟩
        · rw [frames]
        · exact (congrArg Registry.frames after).trans (by rw [exited])
        · rw [exited]
        · have gone := Registry.gone_exit dated frames left
          rw [← after] at gone
          exact gone

/-- What a drain does with its registry before is not seen. -/
theorem World.Books.of_setRegistry {w' : World} {r : Registry Deferred} (same : (w.registry a).Same r)
    (h : (w.setRegistry a r).Books w') : w.Books w' := by
  refine h.imp id ?_
  rintro ⟨x, files, sound, gone⟩
  have same := same_setRegistry w a x.activation same
  exact ⟨x, ⟨same.keys.symm.trans files.before, files.after, files.name.trans same.name, files.frame, files.kind,
    files.ledger⟩, sound, gone⟩

/-- **Main result.**  Where an action ends, its drain goes on, or it is reported as it was. -/
theorem books_settleAction {d : Drain} (hw : w.Accounted) (runs : w.Runs a d stack)
    (failure? : Option Failure) : w.Books (w.settleAction stack a d failure?).world := by
  obtain ⟨d', balanced, handle, frame, pending, goes⟩ :=
    Drain.goes_settle runs.balanced runs.running (w.registry a) failure?
  have same := Registry.same_settle d (w.registry a) failure?
  unfold World.settleAction
  rw [← handle]
  generalize d.settle (w.registry a) failure? = next at goes same
  obtain ⟨step, r⟩ := next
  cases step with
  | run => exact .inl rfl
  | ended result =>
    have later := w.ages_setRegistry same.ages
    refine .of_setRegistry same (books_leaveFrame ((later a).dated (hw.dated a)) ?_ balanced ?_ ?_ ?_)
    · exact fun o e => goes.ended o (e ▸ rfl)
    · rw [handle, frame]
      exact runs.frame
    · rw [handle, frame]
      exact runs.known.mono (later a)
    · rw [frame, pending]
      exact runs.leaves

end Settling

/-! ### Steps -/

section Steps

variable [Node.MainRule] {w : World} {stack : Stack} {s s' : Running}

/-- What is built under the condition that all is accounted for files nothing. -/
theorem Running.Builds.books (h : s'.Builds True w stack) (hw : w.Accounted) (hs : stack.Accounted w) :
    s'.Books w := ⟨h.accounts trivial hw hs, h.evolves.ages, .inl (h.ledger trivial)⟩

theorem books_code (isCode : s.control.isCode = true) (before : s.Accounted) (orderly : s.Orderly)
    (next : s.step = .next s') : s'.Books s.world := by
  obtain ⟨w, c, stack⟩ := s
  cases c with
  | execute node scope =>
    rw [← Transition.next.inj next]
    have fits := orderly.fits.resolve_right fun e => Control.noConfusion e.1
    exact (builds_execute _ _ _ fits).books before.world before.stack
  | evaluate node scope =>
    rw [← Transition.next.inj next]
    exact (builds_evaluate ..).books before.world before.stack
  | _ => contradiction

/-- The end of an action leaves its drain right about its frame. -/
theorem books_settled {a : Nat} {d : Drain} (failure? : Option Failure) (hk : w.Kept) (hw : w.Accounted)
    (hs : Stack.Accounted w (.draining a d :: stack)) :
    (w.settleAction stack a d failure?).Books w where
  accounted := w.accounted_proceed stack a d.handle (tells_settle w stack hs.1 failure?) hw hs.2
  ages := (follows_settleAction _ _ _ _ _ hk).evolves.ages
  books := books_settleAction hw hs.1 failure?

theorem books_frame {f : Frame} (outcome : c.isOutcome = true) (plain : f.isPlain = true)
    (before : Running.Accounted ⟨w, c, f :: stack⟩) (orderly : Running.Orderly ⟨w, c, f :: stack⟩)
    (next : Running.step ⟨w, c, f :: stack⟩ = .next s') :
    s'.Books w ∨ ∃ failure, s' = ⟨w, .raise failure, stack.belowDrive⟩ := by
  have hk : w.Kept := orderly.kept
  have fits : f.Fits w := orderly.frames f List.mem_cons_self
  obtain ⟨hw, ⟨account, hs⟩, control⟩ := before
  have calm : (∀ a d, f ≠ .draining a d) ∨ ∃ a d, f = .draining a d := by
    by_cases drains : ∃ a d, f = .draining a d
    · exact .inr drains
    · exact .inl fun a d e => drains ⟨a, d, e⟩
  cases c with
  | value v =>
    rw [← Transition.next.inj next]
    exact .inl ((builds_onValue _ _ hk plain fits v).books hw hs)
  | complete reason =>
    rw [← Transition.next.inj next]
    rcases calm with calm | ⟨a, d, rfl⟩
    · exact .inl ((builds_onComplete _ _ hk plain fits reason (fun _ => calm) (fun _ => account)
        fun _ => control).books hw hs)
    · exact .inl (books_settled none hk hw ⟨account, hs⟩)
  | resumed v done =>
    rw [← Transition.next.inj next]
    exact .inl ((builds_onResumed _ _ fits v done fun _ => account).books hw hs)
  | raise failure =>
    rw [← Transition.next.inj next]
    rcases calm with calm | ⟨a, d, rfl⟩
    · by_cases settling : f = .settling
      · subst settling
        by_cases exception : failure.isException = true
        · refine .inl ?_
          simp only [World.onRaise, World.pass, if_pos exception]
          exact ⟨⟨hw, hs, trivial⟩, .refl w, .inl rfl⟩
        · refine .inr ⟨failure, ?_⟩
          simp only [World.onRaise, World.pass, if_neg exception]
      · exact .inl ((builds_onRaise _ _ hk plain settling fits failure (fun _ => calm)
          fun _ => account).books hw hs)
    · exact .inl (books_settled (some failure) hk hw ⟨account, hs⟩)
  | _ => contradiction

theorem books_served {request : Request} (h : Served w stack request s') (hk : w.Kept) (hw : w.Accounted)
    (hs : stack.Accounted w) (account : request.Accounts w stack) : s'.Books w := by
  have parked : ∀ {w' : World}, w'.scopes = w.scopes → w'.activations = w.activations →
      w'.generators = w.generators → w'.ledger = w.ledger →
      (∀ t code, (w'.loop.promise t).parked? = some code →
        (w.loop.promise t).parked? = some code ∨ code = .settling :: stack) →
      Running.Books w ⟨w', .parked, []⟩ := by
    intro w' scopes activations generators ledger h
    refine ⟨⟨hw.relooped scopes activations generators fun t code e => (h t code e).imp_right ?_, trivial, trivial⟩,
      World.ages_of_eq activations, .inl ledger⟩
    rintro rfl
    exact ⟨trivial, hs⟩
  cases h with
  | @settled p outcome h =>
    have observed : World.Accounted { w with observed := p :: w.observed } :=
      hw.relooped rfl rfl rfl fun _ _ => .inl
    refine ⟨⟨observed, ⟨trivial, hs.mono (World.ages_of_eq (w := w) rfl)⟩, ?_⟩,
      World.ages_of_eq rfl, .inl rfl⟩
    cases outcome <;> trivial
  | waits => exact parked rfl rfl rfl rfl fun t code e => Loop.parked_park e
  | own | turn => exact parked rfl rfl rfl rfl fun t code e => Loop.parked_hold e
  | drain a handle reason =>
    exact (builds_drain w (.settling :: stack) a handle .async reason hk
      fun _ => ⟨account.known, account.receives⟩).books hw ⟨trivial, hs⟩
  | refused => exact ⟨⟨hw, hs.suffix (belowDrive_suffix stack), trivial⟩, .refl w, .inl rfl⟩

/-- **Main result.**  A step of code that is right about its frames leads to such code, and files no more
than one record. -/
theorem Running.Accounted.step (before : s.Accounted) (orderly : s.Orderly) (next : s.step = .next s') :
    s'.Books s.world := by
  have hw := before.world
  have hs := before.stack
  have reloop : ∀ {w' : World}, w'.scopes = s.world.scopes → w'.activations = s.world.activations →
      w'.generators = s.world.generators →
      (∀ t code, (w'.loop.promise t).parked? = some code →
        (s.world.loop.promise t).parked? = some code ∨ code.Accounted s.world) →
      w'.Accounted := hw.relooped
  have same : ∀ {w' : World}, w'.activations = s.world.activations → s.world.Ages w' :=
    World.ages_of_eq
  -- What changes in the loop or with a generator only.
  have aside : ∀ {w' : World} {c : Control} {stack : Stack}, w'.activations = s.world.activations →
      w'.ledger = s.world.ledger → w'.Accounted → stack.Accounted s.world →
      (∀ reason, c = .complete reason → stack.Receives reason) →
      (∀ request, c ≠ .suspend request) → Running.Books s.world ⟨w', c, stack⟩ := by
    intro w' c stack activations ledger hw' hs receives active
    refine ⟨⟨hw', hs.mono (same activations), ?_⟩, same activations, .inl ledger⟩
    cases c with
    | complete reason => exact receives reason rfl
    | suspend request => exact absurd rfl (active request)
    | _ => trivial
  have ofOutcome : ∀ o : Outcome, (∀ reason, Control.ofOutcome o ≠ .complete reason) ∧
      ∀ request, Control.ofOutcome o ≠ .suspend request := fun o => by
    cases o <;> exact ⟨fun _ e => (by cases e), fun _ e => by cases e⟩
  have below : ∀ {b : Frame} {rest : Stack}, s.stack.fromBoundary = b :: rest →
      rest.Accounted s.world := fun e => hs.suffix (suffix_of_boundary e)
  have segment : ∀ {b : Frame} {rest : Stack}, s.stack.fromBoundary = b :: rest →
      s.control.needsCode = true → b ≠ .syncBoundary → b ≠ .asyncDrive →
      IsSegment s.stack.segment ∧ s.stack.segment.Accounted s.world ∧
        s.stack.turns = s.stack.segment.turns := by
    intro b rest e needs sync drive
    obtain ⟨b', rest', h⟩ := (orderly.isOpen needs).bounded
    obtain ⟨rfl, -⟩ := List.cons.inj (e.symm.trans h.boundary)
    have segment := h.isSegment sync drive
    have parts := s.stack.segment_append_fromBoundary
    have whole : Stack.Accounted s.world (s.stack.segment ++ s.stack.fromBoundary) := by rwa [parts]
    refine ⟨segment, (segment.accounted_append.mp whole).1, ?_⟩
    rw [← segment.turns_append s.stack.fromBoundary, parts]
  cases orderly.moves next with
  | code isCode => exact books_code isCode before orderly next
  | frame outcome plain =>
    rcases books_frame outcome plain before orderly next with h | ⟨failure, rfl⟩
    · exact h
    · exact ⟨⟨hw, hs.2.suffix (belowDrive_suffix _), trivial⟩, .refl _, .inl rfl⟩
  | @pass w c f stack outcome group =>
    refine aside rfl rfl hw hs.2 ?_ ?_
    · rintro reason rfl
      exact receives_of_ne (before.control.ne (by cases f <;> first | rfl | contradiction))
    · rintro request rfl
      contradiction
  | @callEnd w o o' stack =>
    exact aside rfl rfl (hw.deeper _) hs.2 (fun _ e => absurd e ((ofOutcome o').1 _)) (ofOutcome o').2
  | @settled w o stack =>
    refine aside rfl rfl (reloop rfl rfl rfl fun t code e => .inl ?_) hs.2 (fun _ e => by cases e)
      fun _ e => by cases e
    exact (Loop.parked_add e).elim id fun e => by cases e
  | @stepEnd w c c' g stack outcome =>
    refine aside rfl rfl (hw.setGenerator g fun _ e => by cases e) hs.2 ?_ ?_
    · rintro reason rfl
      cases c with
      | complete =>
        obtain rfl := Control.complete.inj (Running.mk.inj (Transition.next.inj next)).2.1
        exact receives_of_ne (before.control.ne rfl)
      | execute | evaluate | suspend =>
        cases orderly.isOpen rfl with
        | frame plain => contradiction
        | action hb => rcases hb with hb | hb <;> contradiction
      | parked => exact absurd (orderly.fits.resolve_left id).2 (List.cons_ne_nil _ _)
      | value | resumed | raise => cases (Running.mk.inj (Transition.next.inj next)).2.1
    · rintro request rfl
      contradiction
  | start h => exact books_served h orderly.kept hw hs.2 hs.1
  | abandon => exact ⟨⟨hw, hs.2.suffix (belowDrive_suffix _), trivial⟩, .refl _, .inl rfl⟩
  | refuse boundary => exact ⟨⟨hw, below boundary, trivial⟩, .refl _, .inl rfl⟩
  | refuseStep boundary =>
    exact aside rfl rfl (hw.setGenerator _ fun _ e => by cases e) (below boundary) (fun _ e => by cases e)
      fun _ e => by cases e
  | yield boundary =>
    obtain ⟨-, suspended, -⟩ := segment boundary rfl (by simp) (by simp)
    refine aside rfl rfl (hw.setGenerator _ fun code e => ?_) (below boundary) (fun _ e => by cases e)
      fun _ e => by cases e
    exact GeneratorState.suspended.inj e ▸ suspended
  | @spawn w request stack rest boundary =>
    obtain ⟨isSegment, taken, turns⟩ := segment boundary rfl (by simp) (by simp)
    refine aside rfl rfl (reloop rfl rfl rfl fun t code e => (Loop.parked_add e).imp_right fun e => ?_)
      (below boundary) (fun _ e => by cases e) fun _ e => by cases e
    obtain rfl := Option.some.inj e
    exact ⟨before.control.congr (turns.trans (isSegment.turns_append _).symm),
      isSegment.accounted_append.mpr ⟨taken, trivial, trivial, trivial⟩⟩
  | serve boundary h => exact books_served h orderly.kept hw hs before.control
  | nap =>
    refine aside rfl rfl (reloop rfl rfl rfl fun t code e => (Loop.parked_rest e).imp_right ?_) trivial
      (fun _ e => by cases e) fun _ e => by cases e
    rintro rfl
    exact hs.2
  | taskEnd =>
    refine aside rfl rfl (reloop rfl rfl rfl fun t code e => .inl ?_) trivial (fun _ e => by cases e)
      fun _ e => by cases e
    rwa [← Loop.parked_settle]
  | programEnd =>
    exact aside rfl rfl (reloop rfl rfl rfl fun _ _ => .inl) trivial (fun _ e => by cases e)
      fun _ e => by cases e
  | @resume w c stack code task o loop _ h =>
    obtain ⟨parked, later⟩ := Loop.parked_resume h
    exact aside rfl rfl (reloop rfl rfl rfl fun t code e => .inl (later t code e)) (hw.parked _ _ parked)
      (fun _ e => absurd e ((ofOutcome o).1 _)) (ofOutcome o).2
  | internal _ h =>
    refine aside rfl rfl (reloop rfl rfl rfl fun t code e => .inl ?_) trivial (fun _ e => by cases e)
      fun _ e => by cases e
    rwa [← Loop.parked_internal h]

end Steps

end Script

end ScopeExit
