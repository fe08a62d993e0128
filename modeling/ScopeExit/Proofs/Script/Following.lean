import ScopeExit.Proofs.Script.Growing
/-!
What one step adds to a stack.

Whatever the first step of a statement, an expression or a call comes to, and whatever a frame does with
an outcome, the stack below stays and some groups of frames come on top of it.  As many calls as are
among them are counted in the depth.

No drain is reported on the way, and what is known about the frames of the engine stays right, unless the
step is the end of an action: then its drain may be at its end, too.
-/
namespace ScopeExit

namespace Script

open World Stack

/-! ### What is built on a stack -/

/-- Frames that may stand on any stack as far as the frames of the engine are concerned. -/
def Frame.isLight : Frame → Bool
  | .scopeBody .. | .draining .. | .finallyBody _ | .forOfClose _ => false
  | f => f.isPlain

/-- What code may do next on any stack. -/
def Control.isLight : Control → Bool
  | .execute .. | .suspend (.drain ..) | .parked => false
  | .complete reason => reason.kind != .iterationEnd
  | _ => true

theorem Frame.isPlain_of_isLight {f : Frame} (light : f.isLight = true) : f.isPlain = true := by
  cases f <;> first | rfl | contradiction

theorem Frame.accounts_of_isLight {w : World} {stack : Stack} {f : Frame} (light : f.isLight = true) :
    f.Accounts w stack := by
  cases f <;> trivial

theorem Control.fits_of_isLight [Node.MainRule] {w : World} {c : Control} (light : c.isLight = true) :
    c.Fits w := by
  cases c <;> trivial

theorem Control.accounts_of_isLight {w : World} {stack : Stack} {c : Control} (light : c.isLight = true) :
    c.Accounts w stack := by
  cases c with
  | complete reason => exact receives_of_ne (bne_iff_ne.mp light)
  | suspend request => cases request <;> trivial
  | _ => trivial

/-- Running code follows on a stack in a world. -/
structure Running.Follows [Node.MainRule] (w : World) (stack : Stack) (r : Running) : Prop where
  evolves : Evolves w r.world
  fits : r.control.Fits r.world
  grows : ∃ upper, r.stack = upper ++ stack ∧ Pile upper ∧ (∀ f ∈ upper, f.Fits r.world) ∧
    r.world.depth = w.depth + calls upper
  /-- Nothing is called beyond the limit. -/
  limit : r.world.depth ≤ max w.depth w.config.maxCallDepth

/-- Running code is built on a stack in a world.  Under the condition `known`, nothing is said of drains, and
what is known about the frames of the engine stays right. -/
structure Running.Builds [Node.MainRule] (known : Prop) (w : World) (stack : Stack) (r : Running) : Prop
    extends Running.Follows w stack r where
  ledger : known → r.world.ledger = w.ledger
  accounts : known → w.Accounted → stack.Accounted w → r.Accounted

theorem Running.Follows.of_builds [Node.MainRule] {w : World} {stack : Stack} {r : Running}
    (h : r.Builds False w stack) : r.Follows w stack := h.toFollows

namespace Running.Builds

variable [Node.MainRule] {known : Prop} {w w' : World} {c : Control} {f : Frame} {stack : Stack} {r : Running}

theorem comes (hc : c.Fits w) (account : known → c.Accounts w stack) : Builds known w stack ⟨w, c, stack⟩ where
  evolves := .refl w
  fits := hc
  grows := ⟨[], rfl, .nil, List.forall_mem_nil _, by simp⟩
  limit := Int.le_max_left ..
  ledger _ := rfl
  accounts k hw hs := ⟨hw, hs, account k⟩

theorem here (light : c.isLight = true) : Builds known w stack ⟨w, c, stack⟩ :=
  comes (Control.fits_of_isLight light) fun _ => Control.accounts_of_isLight light

theorem executes {node : Node} {scope : Nat} (suits : w.Suits scope [node]) :
    Builds known w stack ⟨w, .execute node scope, stack⟩ := comes suits fun _ => trivial

/-- What is built on some frames in another world is built on what is below these frames. -/
theorem beneath (upper : Stack) (h : Builds known w' (upper ++ stack) r) (e : Evolves w w') (pile : Pile upper)
    (fits : ∀ f ∈ upper, f.Fits w) (depth : w'.depth = w.depth + calls upper)
    (limit : w'.depth ≤ max w.depth w.config.maxCallDepth) (ledger : known → w'.ledger = w.ledger)
    (accounts : known → w.Accounted → stack.Accounted w → w'.Accounted ∧ Stack.Accounted w' (upper ++ stack)) :
    Builds known w stack r := by
  obtain ⟨top, hstack, htop, hfits, hdepth⟩ := h.grows
  have hlimit := h.limit
  have evolves := e.trans h.evolves
  refine ⟨⟨evolves, h.fits, ⟨top ++ upper, ?_, htop.append pile, ?_, ?_⟩, ?_⟩,
    fun k => (h.ledger k).trans (ledger k), fun k hw hs => ?_⟩
  · rw [hstack, List.append_assoc]
  · intro f hf
    exact (List.mem_append.mp hf).elim (hfits f) fun hf => (fits f hf).mono evolves.owners
  · rw [hdepth, depth, calls_append]
    omega
  · rw [e.config] at hlimit
    omega
  · obtain ⟨hw', hs'⟩ := accounts k hw hs
    exact h.accounts k hw' hs'

theorem after (h : Builds known w' stack r) (e : Slight w w') : Builds known w stack r :=
  beneath [] h e.toEvolves .nil (List.forall_mem_nil _) (by simpa using e.depth) (e.depth ▸ Int.le_max_left ..)
    (fun _ => e.ledger) fun _ hw hs => ⟨e.accounted hw, hs.mono e.ages⟩

theorem inside (h : Builds known w (f :: stack) r) (plain : f.isPlain = true) (fits : f.Fits w)
    (account : known → w.Accounted → f.Accounts w stack) : Builds known w stack r :=
  beneath [f] h (.refl w) (.frame plain .nil) (List.forall_mem_singleton.mpr fits)
    (by simp [calls_plain _ plain]) (Int.le_max_left ..) (fun _ => rfl) fun k hw hs => ⟨hw, account k hw, hs⟩

theorem under (h : Builds known w (f :: stack) r) (light : f.isLight = true) (fits : f.Fits w) :
    Builds known w stack r :=
  h.inside (Frame.isPlain_of_isLight light) fits fun _ _ => Frame.accounts_of_isLight light

theorem perform {α : Type} {change : World.Change α} {go : World → α → Running} (e : Slight w change.2)
    (h : ∀ x, Builds known change.2 stack (go change.2 x)) :
    Builds known w stack (World.perform stack change go) := by
  obtain ⟨result, w'⟩ := change
  cases result with
  | ok x => exact (h x).after e
  | error failure => exact after (here rfl) e

theorem attempt {α : Type} {result : Except Failure α} {go : World → α → Running}
    (h : ∀ x, Builds known w stack (go w x)) : Builds known w stack (w.attempt stack result go) :=
  .perform (.refl w) h

end Running.Builds

/-! ### Drains take actions off -/

section Drains

variable {β : Type} {r r' : Registry β}

theorem subset_exit {h : FrameHandle} (e : r.exit h = .ok r') : r'.arena.actions ⊆ r.arena.actions := by
  obtain ⟨outer, f, -, -, rfl⟩ := Registry.exit_ok e
  exact List.take_subset _ _

theorem subset_leave (r : Registry β) (h : FrameHandle) (result : Except Failure DrainOutcome) :
    (r.leave h result).registry.arena.actions ⊆ r.arena.actions := by
  unfold Registry.leave
  split
  · exact List.Subset.refl _
  · rename_i e
    split <;> exact subset_exit e

theorem subset_close (d : Drain) (r : Registry β) (result : Except Failure DrainOutcome) :
    (d.close r result).2.arena.actions ⊆ r.arena.actions := by
  unfold Drain.close
  split
  · rename_i e
    obtain ⟨outer, f, inner, -, -, rfl⟩ := Registry.finishDrain_ok e
    exact List.Subset.refl _
  · exact List.Subset.refl _

/-- What a drain does next with a registry: it runs one of the actions and puts none back. -/
structure Draws (r : Registry β) (next : DrainStep β × Registry β) : Prop where
  subset : next.2.arena.actions ⊆ r.arena.actions
  drawn : ∀ action d, next.1 = .run action d → action ∈ r.arena.actions

theorem draws_advance (d : Drain) (r : Registry β) : Draws r (d.advance r) := by
  unfold Drain.advance
  split
  · rename_i action r' e
    cases hframe : r.frame d.handle with
    | error failure => simp [Registry.popAction, hframe, Bind.bind, Except.bind] at e
    | ok f =>
      obtain ⟨-, ⟨hnone, -⟩ | ⟨a, arena, ha, hpop, rfl⟩⟩ := Registry.popAction_ok hframe e
      · contradiction
      · obtain rfl := Option.some.inj ha
        unfold Arena.pop? at hpop
        split at hpop
        · contradiction
        · obtain ⟨x, hlast, hx⟩ := Option.map_eq_some_iff.mp hpop
          obtain ⟨rfl, rfl⟩ := Prod.mk.inj hx
          refine ⟨List.dropLast_subset _, fun action' d' e' => ?_⟩
          obtain ⟨rfl, -⟩ := DrainStep.run.inj e'
          exact List.mem_of_getLast? hlast
  · rename_i r' e
    cases hframe : r.frame d.handle with
    | error failure => simp [Registry.popAction, hframe, Bind.bind, Except.bind] at e
    | ok f =>
      obtain ⟨-, ⟨-, -, rfl⟩ | ⟨a, arena, ha, -⟩⟩ := Registry.popAction_ok hframe e
      · exact ⟨subset_close .., fun _ _ e' => by cases e'⟩
      · contradiction
  · exact ⟨subset_close .., fun _ _ e' => by cases e'⟩

theorem draws_settle (d : Drain) (r : Registry β) (failure? : Option Failure) :
    Draws r (d.settle r failure?) := by
  unfold Drain.settle
  split
  · exact draws_advance ..
  · split
    · exact draws_advance ..
    · exact ⟨subset_close .., fun _ _ e' => by cases e'⟩

theorem subset_start {h : FrameHandle} {mode : ActionMode} {reason : ExitReason} {d : Drain}
    (e : Drain.start r h mode reason = .ok (d, r')) : r'.arena.actions ⊆ r.arena.actions := by
  simp only [Drain.start, Bind.bind, Except.bind] at e
  split at e
  · contradiction
  · split at e
    · contradiction
    · split at e
      · contradiction
      · rename_i begun hbegin
        obtain ⟨outer, f, -, -, -, -, hr⟩ := Registry.beginDrain_ok hbegin
        simp only [Pure.pure, Except.pure, Except.ok.injEq, Prod.mk.injEq] at e
        rw [← e.2, hr]
        exact List.Subset.refl _

end Drains

namespace World

open Running

variable [Node.MainRule] {known : Prop} (w : World) (stack : Stack)

/-! ### Frames of the engine -/

theorem builds_complete (reason : ExitReason) (receives : known → stack.Receives reason) :
    (w.complete stack reason).Builds known w stack := by
  unfold World.complete
  split
  · exact .here rfl
  · exact .here rfl
  · exact .comes trivial receives

/-- The functions among statements are bound, and what comes after that is built on a frame. -/
theorem builds_hoist {w₁ : World} (e : Slight w w₁) (scope : Nat) (statements : List Node) {f : Frame}
    (plain : f.isPlain = true) (fits : f.Fits w) (account : known → w.Accounted → f.Accounts w₁ stack)
    {inside : World → Running} (h : ∀ w', Evolves w w' → (inside w').Builds known w' (f :: stack)) :
    Builds known w stack (match w₁.hoist scope statements with
      | (w', none) => inside w'
      | (w', some failure) => ⟨w', .raise failure, f :: stack⟩) := by
  have hoisted := slight_hoist (w := w₁) scope statements
  refine .beneath [f] (?_ : Running.Builds known w₁ ([f] ++ stack) _) e.toEvolves (.frame plain .nil) (List.forall_mem_singleton.mpr fits)
    (by simp [calls_plain _ plain, e.depth]) (e.depth ▸ Int.le_max_left ..) (fun _ => e.ledger) fun k hw hs =>
      ⟨e.accounted hw, account k hw, hs.mono e.ages⟩
  split
  · rename_i w' eq
    rw [eq] at hoisted
    exact .after (h w' (e.trans hoisted).toEvolves) hoisted
  · rename_i w' failure eq
    rw [eq] at hoisted
    exact .after (.here rfl) hoisted

theorem builds_openFrame (kind : FrameKind) (span : Span) (scope : Nat) (statements : List Node)
    {atEnd : ExitReason} (ends : atEnd = kind.atEnd) (receives : stack.Receives atEnd)
    {inside : World → Stack → Running}
    (h : ∀ w' handle, Evolves w w' →
      (inside w' (.scopeBody (w.scopes.activation scope) handle atEnd :: stack)).Builds known w'
        (.scopeBody (w.scopes.activation scope) handle atEnd :: stack)) :
    (w.openFrame stack kind span scope statements atEnd inside).Builds known w stack := by
  obtain ⟨entered, hentered⟩ : ∃ entered, entered = (w.registry (w.scopes.activation scope)).enter kind
    (w.activation (w.scopes.activation scope)).isAsync span := ⟨_, rfl⟩
  have ages : (w.registry (w.scopes.activation scope)).Ages entered.2 := hentered ▸ Registry.ages_enter ..
  have hset : Slight w (w.setRegistry (w.scopes.activation scope) entered.2) :=
    slight_setRegistry _ ages fun hk x hx => hk.actions (w.scopes.activation scope) x (by rwa [hentered] at hx)
  have counted : Slight w { w.setRegistry (w.scopes.activation scope) entered.2 with
      stats := { w.stats with framesEntered := w.stats.framesEntered + 1 } } := hset.trans (slight_stats rfl)
  unfold World.openFrame
  simp only
  rw [← World.registry, ← hentered]
  refine builds_hoist w stack counted scope statements (f := .scopeBody _ entered.1 atEnd) rfl trivial
    (fun _ hw => ⟨?_, receives⟩) fun w' e => h w' _ e
  have knows := Registry.knows_enter (hw.dated (w.scopes.activation scope)) kind
    (w.activation (w.scopes.activation scope)).isAsync span
  have same := w.registry_setRegistry_self (hw.homes scope) entered.2
  rw [← hentered, ← same] at knows
  exact knows.imp fun k own => own ▸ ends

theorem builds_enterFrame (kind : FrameKind) (span : Span) (scope : Nat) {statements : List Node}
    {atEnd : ExitReason} (ends : atEnd = kind.atEnd) (receives : stack.Receives atEnd)
    (suits : w.Suits scope statements) :
    (w.enterFrame stack kind span scope statements atEnd).Builds known w stack :=
  w.builds_openFrame stack kind span scope statements ends receives fun _ _ e =>
    .under (.here rfl) rfl (suits.mono e.owners)

/-- What a drain does next is right: it goes on with right counts, or its reason may go on. -/
structure Tells (w : World) (stack : Stack) (a : Nat) (next : DrainStep Deferred × Registry Deferred) : Prop where
  ages : (w.registry a).Ages next.2
  run : ∀ action d, next.1 = .run action d → w.Runs a d stack
  ended : ∀ o, next.1 = .ended (.ok o) → stack.Receives o.reason

omit [Node.MainRule] in
/-- The reason that a frame is left with goes on below. -/
theorem receives_leave {r : Registry Deferred} {handle : FrameHandle} {result : Except Failure DrainOutcome}
    {reason : ExitReason} (receives : ∀ o, result = .ok o → stack.Receives o.reason)
    (e : (r.leave handle result).result = .ok reason) : stack.Receives reason := by
  unfold Registry.leave at e
  split at e
  · cases e
  · split at e
    · cases e
    · exact Except.ok.inj e ▸ receives _ rfl

section Leaving

variable (a : Nat) (handle : FrameHandle)

omit [Node.MainRule] in
theorem accounted_setRegistry {r : Registry Deferred} (ages : (w.registry a).Ages r) (hw : w.Accounted) :
    (w.setRegistry a r).Accounted := by
  let _ : Node.MainRule := .any
  exact (slight_setRegistry a ages fun _ _ _ _ _ _ => trivial).accounted hw

theorem follows_leaveFrame (result : Except Failure DrainOutcome) :
    (w.leaveFrame stack a handle result).Follows w stack := by
  have hset : Evolves w (w.setRegistry a ((w.registry a).leave handle result).registry) :=
    evolves_setRegistry _ (Registry.ages_leave ..) fun hk x hx => hk.actions _ x (subset_leave _ _ _ hx)
  have hreport : ∀ (w : World) record, Minor w (w.report record) := fun w record =>
    ⟨rfl, rfl, rfl, rfl, rfl, rfl, rfl, rfl, rfl, fun _ => id⟩
  have here : ∀ {w' : World} {c : Control}, Evolves w w' → w'.depth = w.depth → c.Fits w' →
      Follows w stack ⟨w', c, stack⟩ := fun e depth fits =>
    ⟨e, fits, ⟨[], rfl, .nil, List.forall_mem_nil _, by simpa using depth⟩, depth ▸ Int.le_max_left ..⟩
  simp only [World.leaveFrame]
  cases ((w.registry a).leave handle result).record? with
  | none => split <;> exact here hset rfl trivial
  | some record => split <;> exact here (hset.trans (hreport _ record).evolves) rfl trivial

omit [Node.MainRule] in
theorem accounted_leaveFrame {result : Except Failure DrainOutcome}
    (receives : ∀ o, result = .ok o → stack.Receives o.reason) (hw : w.Accounted) (hs : stack.Accounted w) :
    (w.leaveFrame stack a handle result).Accounted := by
  have ages : (w.registry a).Ages ((w.registry a).leave handle result).registry := Registry.ages_leave ..
  have left := accounted_setRegistry w a ages hw
  have below := hs.mono (w.ages_setRegistry ages)
  have next : ∀ reason, ((w.registry a).leave handle result).result = .ok reason → stack.Receives reason :=
    fun _ e => receives_leave stack receives e
  have reported : ∀ (w : World) record, w.Ages (w.report record) ∧ (w.Accounted → (w.report record).Accounted) :=
    fun w record => ⟨World.ages_of_eq rfl, fun hw =>
      hw.mono (World.ages_of_eq (w := w) rfl) hw.homes hw.generators hw.parked⟩
  simp only [World.leaveFrame]
  cases ((w.registry a).leave handle result).record? with
  | none =>
    split
    · exact ⟨left, below, next _ ‹_›⟩
    · exact ⟨left, below, trivial⟩
  | some record =>
    obtain ⟨ages', reported⟩ := reported (w.setRegistry a ((w.registry a).leave handle result).registry) record
    split
    · exact ⟨reported left, below.mono ages', next _ ‹_›⟩
    · exact ⟨reported left, below.mono ages', trivial⟩

omit [Node.MainRule] in
/-- A frame whose drain has run nothing is left without a word. -/
theorem ledger_leaveFrame {result : Except Failure DrainOutcome}
    (quiet : ∀ o, result = .ok o → o.executed = 0) : (w.leaveFrame stack a handle result).world.ledger = w.ledger := by
  have none : ((w.registry a).leave handle result).record? = none := by
    unfold Registry.leave
    split
    · rfl
    · split
      · rfl
      · exact if_pos (quiet _ rfl)
  simp only [World.leaveFrame, none]
  split <;> rfl

theorem follows_proceed {next : DrainStep Deferred × Registry Deferred} (hk : w.Kept)
    (draws : Draws (w.registry a) next) (ages : (w.registry a).Ages next.2) :
    (w.proceed stack a handle next).Follows w stack := by
  obtain ⟨step, r⟩ := next
  have hset : Evolves w (w.setRegistry a r) :=
    evolves_setRegistry _ ages fun hk x hx => hk.actions _ x (draws.subset hx)
  cases step with
  | run action d =>
    have hsuits : w.Suits action.body.scope [action.body.body] :=
      hk.actions a action (draws.drawn action d rfl)
    simp only [World.proceed]
    refine ⟨hset, hsuits.mono hset.owners,
      ⟨[if action.mode = .async then Frame.asyncDrive else .syncBoundary, .draining a d], rfl, ?_, ?_, ?_⟩,
      Int.le_max_left ..⟩
    · refine .action ?_ .nil
      split
      · exact .inr rfl
      · exact .inl rfl
    · split <;> simp [Frame.Fits]
    · split <;> simp [World.setRegistry, calls_cons, Frame.isCallEnd]
  | ended result =>
    have left := follows_leaveFrame (w.setRegistry a r) stack a handle result
    exact ⟨hset.trans left.evolves, left.fits, left.grows, left.limit⟩

omit [Node.MainRule] in
theorem accounted_proceed {next : DrainStep Deferred × Registry Deferred} (tells : w.Tells stack a next)
    (hw : w.Accounted) (hs : stack.Accounted w) : (w.proceed stack a handle next).Accounted := by
  obtain ⟨step, r⟩ := next
  have ages := w.ages_setRegistry tells.ages
  have set := accounted_setRegistry w a tells.ages hw
  cases step with
  | run action d =>
    have runs : Frame.Accounts (w.setRegistry a r) stack (.draining a d) :=
      Frame.Accounts.mono (f := .draining a d) ages (tells.run action d rfl)
    simp only [World.proceed]
    refine ⟨set, ⟨?_, runs, hs.mono ages⟩, trivial⟩
    split <;> trivial
  | ended result =>
    exact accounted_leaveFrame _ _ _ _ (fun o e => tells.ended o (e ▸ rfl)) set (hs.mono ages)

omit [Node.MainRule] in
theorem ledger_proceed {next : DrainStep Deferred × Registry Deferred}
    (quiet : ∀ o, next.1 = .ended (.ok o) → o.executed = 0) :
    (w.proceed stack a handle next).world.ledger = w.ledger := by
  obtain ⟨step, r⟩ := next
  cases step with
  | run action d => rfl
  | ended result => exact ledger_leaveFrame _ _ _ _ fun o e => quiet o (e ▸ rfl)

end Leaving

omit [Node.MainRule] in
/-- A drain that starts is right about its frame. -/
theorem tells_start {a : Nat} {handle : FrameHandle} {mode : ActionMode} {reason : ExitReason} {d : Drain}
    {r : Registry Deferred} (e : Drain.start (w.registry a) handle mode reason = .ok (d, r))
    (hw : w.Accounted) (leaves : w.Leaves a handle reason stack) : w.Tells stack a (d.advance r) := by
  obtain ⟨ages, rfl, executed, start, f, live, own, key⟩ := Drain.start_innermost e
  obtain ⟨id, kind⟩ := Prod.mk.inj key
  have goes := Drain.goes_advance d r
  have only : ∀ g ∈ (w.registry a).frames, (g.id : Int) = d.handle.frame → g.kind = d.frame.kind := by
    intro g hg same
    rw [(hw.dated a).eq_of_id hg live (Int.ofNat.inj (same.trans own)), kind]
  refine ⟨ages.trans (Registry.same_advance d r).ages, fun action d' next => ?_, fun o next => ?_⟩
  · obtain rfl := goes.run action d' next
    have none : d.aggregator.failures = 0 := by rw [start, Aggregator.failures_start]
    refine ⟨⟨?_, fun some => absurd none some⟩, ?_, own.trans (by rw [id]), ⟨leaves.known.issued, only⟩, ?_, ?_⟩
    · exact Nat.le_trans (Nat.le_of_eq none) (Nat.zero_le _)
    · exact Nat.lt_of_le_of_lt (Nat.le_of_eq none) (Nat.succ_pos _)
    · show d.frame.kind.Leaves d.aggregator.pending.kind
      rw [start, kind]
      exact leaves.known.kind f live own.symm
    · show stack.Receives d.aggregator.pending
      rw [start]
      exact leaves.receives
  · rw [goes.ended o next]
    show stack.Receives d.aggregator.resolve
    rw [start, Aggregator.resolve_start]
    exact leaves.receives

omit [Node.MainRule] in
/-- A drain goes on with what is right about its frame. -/
theorem tells_settle {a : Nat} {d : Drain} (runs : w.Runs a d stack) (failure? : Option Failure) :
    w.Tells stack a (d.settle (w.registry a) failure?) := by
  obtain ⟨d', balanced, handle, frame, pending, goes⟩ :=
    Drain.goes_settle runs.balanced runs.running (w.registry a) failure?
  have receives : stack.Receives d'.aggregator.pending := pending ▸ runs.receives
  refine ⟨(Registry.same_settle ..).ages, fun action d'' next => ?_, fun o next => ?_⟩
  · obtain rfl := goes.run action d'' next
    refine ⟨⟨Nat.le_succ_of_le balanced.failures, balanced.chained⟩, Nat.lt_succ_of_le balanced.failures,
      ?_, ?_, ?_, receives⟩
    · show d'.handle.frame = d'.frame.id
      rw [handle, frame]
      exact runs.frame
    · show (w.registry a).Knows d'.handle (· = d'.frame.kind)
      rw [handle, frame]
      exact runs.known
    · show d'.frame.kind.Leaves d'.aggregator.pending.kind
      rw [frame, pending]
      exact runs.leaves
  · rw [goes.ended o next]
    rcases balanced.fair.reason with ⟨same, -⟩ | ⟨thrown, -⟩
    · exact same ▸ receives
    · exact receives_of_ne (by rw [thrown]; decide)

theorem builds_drain (a : Nat) (handle : FrameHandle) (mode : ActionMode) (reason : ExitReason) (hk : w.Kept)
    (leaves : known → w.Leaves a handle reason stack) :
    (w.drain stack a handle mode reason).Builds known w stack := by
  unfold World.drain
  split
  · rename_i d r e
    have hstart := subset_start e
    have hdraws := draws_advance d r
    have goes := Drain.goes_advance d r
    obtain ⟨ages, -, executed, -⟩ := Drain.start_innermost e
    refine ⟨w.follows_proceed stack a handle hk ⟨fun x hx => hstart (hdraws.subset hx), fun action d' e' =>
      hstart (hdraws.drawn action d' e')⟩ (ages.trans (Registry.same_advance d r).ages), fun _ => ?_, fun k hw hs => ?_⟩
    · exact w.ledger_proceed stack a handle fun o next => by rw [goes.ended o next]; exact executed
    · exact w.accounted_proceed stack a handle (tells_start w stack e hw (leaves k)) hw hs
  · exact ⟨w.follows_leaveFrame .., fun _ => w.ledger_leaveFrame _ _ _ fun _ e => (by cases e),
      fun _ hw hs => w.accounted_leaveFrame _ _ _ (fun _ e => by cases e) hw hs⟩

theorem follows_settleAction (a : Nat) (d : Drain) (failure? : Option Failure) (hk : w.Kept) :
    (w.settleAction stack a d failure?).Follows w stack :=
  w.follows_proceed stack a d.handle hk (draws_settle d _ failure?) (Registry.same_settle ..).ages

theorem builds_leaveBody (a : Nat) (handle : FrameHandle) (reason : ExitReason) (hk : w.Kept)
    (leaves : known → w.Leaves a handle reason stack) :
    (w.leaveBody stack a handle reason).Builds known w stack := by
  have inner : known → w.Leaves a handle reason (.scopeEnd :: stack) := fun k =>
    ⟨(leaves k).known, (leaves k).receives⟩
  unfold World.leaveBody
  split
  · exact .under (.here rfl) rfl trivial
  · exact .under (.comes trivial inner) rfl trivial
  · exact (builds_drain _ _ _ _ _ _ hk inner).under rfl trivial

theorem slight_register (node : Node) (scope : Nat) (suits : w.Suits scope node.children) :
    Slight w (w.register node scope).2 := by
  unfold World.register
  split
  · exact .refl w
  · rename_i body rest hchildren
    dsimp only
    split
    · exact .refl w
    · unfold World.change
      split
      · rename_i r e
        have ages := (Registry.same_register e).ages
        obtain ⟨outer, f, -, -, -, -, -, rfl⟩ := Registry.register_ok e
        refine slight_setRegistry _ ages fun hk x hx => ?_
        rcases List.mem_append.mp hx with hx | hx
        · exact hk.actions _ x hx
        · rw [List.mem_singleton.mp hx]
          exact suits.subset (by simp [hchildren])
      · exact .refl w


/-! ### Calls -/

theorem builds_enterBody (body : Node) {scope : Nat} (other : w.scopes.activation scope ≠ 0) :
    (w.enterBody stack body scope).Builds known w stack := by
  unfold World.enterBody
  split
  · exact (builds_enterFrame _ _ _ _ _ rfl receives_normal fun main => absurd main other).under rfl trivial
  · exact .here rfl

theorem builds_bindParameters (closure : Nat) {scope : Nat} (rest : List Node) (arguments : List Value)
    (other : w.scopes.activation scope ≠ 0) :
    (w.bindParameters stack closure scope rest arguments).Builds known w stack := by
  induction rest generalizing w arguments with
  | nil => exact builds_enterBody _ _ _ other
  | cons p rest ih =>
    have hbind : ∀ v : Value, ((w.bind scope p.name v).bindParameters stack closure scope rest
        (arguments.drop 1)).Builds known w stack := by
      intro v
      have bound := slight_bind (w := w) scope p.name v
      exact .after (ih _ _ fun main => other (bound.owners _ main)) bound
    simp only [World.bindParameters]
    split
    · split
      · exact .under (.here rfl) rfl other
      · exact hbind _
    · exact hbind _

/-- The body of an activation that is not the one of the module starts above what waits for its end. -/
theorem builds_startBody (closure : Nat) {a : Nat} (arguments : List Value)
    (own : a ≠ 0 ∧ a < w.activations.size) :
    (w.startBody stack closure a arguments).Builds known w (.activationEnd a :: stack) := by
  have howner := activation_add w.scopes
    { parent := some (w.heap.closure closure).scope, activation := some a, isFunction := true }
    w.scopes.all.size
  rw [if_pos rfl] at howner
  exact .after (builds_bindParameters _ _ _ _ _ fun main => own.1 (howner.symm.trans main))
    (slight_callScope rfl own.2)

theorem builds_finished (mode : ResumeMode) (value : Value) :
    (resume.finished stack mode value w).Builds known w stack := by
  unfold resume.finished
  split <;> exact .here rfl

theorem builds_resume (hk : w.Kept) (g : Nat) (mode : ResumeMode) (value : Value) :
    (w.resume stack g mode value).Builds known w stack := by
  have hkeeps := hk.generators g
  have hrunning : Slight w (w.setGenerator g .running) := slight_setGenerator g (.inl rfl)
  have hdone : Slight w (w.setGenerator g .done) := slight_setGenerator g (.inr rfl)
  unfold World.resume
  split
  · exact .here rfl
  · exact builds_finished ..
  · rename_i closure arguments a hstate
    rw [hstate] at hkeeps
    split
    · refine .beneath [.activationEnd a, .generatorBoundary g] (builds_startBody _ _ closure arguments hkeeps)
        hrunning.toEvolves (.step .nil) ?_ ?_ (Int.le_max_left ..) (fun _ => rfl) fun _ hw hs =>
          ⟨hrunning.accounted hw, trivial, trivial, hs.mono hrunning.ages⟩
      · simp [Frame.Fits]
      · simp [World.setGenerator, calls_cons, Frame.isCallEnd]
    · exact (builds_finished ..).after hdone
  · rename_i code hstate
    rw [hstate] at hkeeps
    obtain ⟨segment, fits⟩ := hkeeps
    have resumed : ∀ c : Control, c.Fits (w.setGenerator g .running) →
        (known → c.Accounts (w.setGenerator g .running) (code ++ .generatorBoundary g :: stack)) →
        Builds known w stack ⟨w.setGenerator g .running, c, code ++ .generatorBoundary g :: stack⟩ := by
      intro c hc account
      have suspended : w.Accounted → code.Accounted (w.setGenerator g .running) := fun hw =>
        (hw.generators g code hstate).mono hrunning.ages
      have piled : Pile (code ++ [.generatorBoundary g]) ∧ calls (code ++ [.generatorBoundary g]) = 0 := by
        obtain ⟨frames, a, rfl, plain⟩ := segment
        rw [List.append_assoc]
        exact ⟨.frames plain (.step .nil), by simp [calls_frames plain, calls_cons, Frame.isCallEnd]⟩
      have flat : (code ++ [.generatorBoundary g]) ++ stack = code ++ .generatorBoundary g :: stack := by simp
      refine .beneath (code ++ [.generatorBoundary g]) (by rw [flat]; exact .comes hc account)
        hrunning.toEvolves piled.1 ?_ (by simp [World.setGenerator, piled.2]) (Int.le_max_left ..)
        (fun _ => rfl) fun _ hw hs => ?_
      · intro f hf
        rcases List.mem_append.mp hf with hf | hf
        · exact fits f hf
        · rw [List.mem_singleton.mp hf]
          trivial
      · rw [flat]
        exact ⟨hrunning.accounted hw, segment.accounted_append.mpr
          ⟨suspended hw, trivial, hs.mono hrunning.ages⟩⟩
    split
    · exact resumed _ trivial fun _ => trivial
    · exact resumed _ trivial fun _ => trivial
    · split
      · exact resumed _ trivial fun _ => trivial
      · exact .after (.here rfl) hdone

theorem builds_callNative (hk : w.Kept) (n : Native) (arguments : List Value) :
    (w.callNative stack n arguments).Builds known w stack := by
  unfold World.callNative
  split
  · exact (builds_resume _ _ hk ..).under rfl trivial
  · exact .perform (slight_apply ..) fun _ => .here rfl

theorem builds_callClosure (hk : w.Kept) (closure : Nat) (arguments : List Value) :
    (w.callClosure stack closure arguments).Builds known w stack := by
  have hnew := slight_newActivation (w := w) (w.heap.closure closure).name (w.heap.closure closure).isAsync
  have own : w.activations.size ≠ 0 ∧ w.activations.size <
      (w.newActivation (w.heap.closure closure).name (w.heap.closure closure).isAsync).2.activations.size :=
    ⟨Nat.ne_of_gt hk.main, by simp [World.newActivation]⟩
  simp only [World.callClosure]
  split
  · exact .here rfl
  · split
    · exact .after (.here rfl) (hnew.trans (slight_pushGenerator closure arguments (fun _ => own) _))
    · generalize hb : (if (w.heap.closure closure).isAsync = true then Frame.asyncStart else .syncBoundary) = b
      have hboundary : b = .syncBoundary ∨ b = .asyncStart := by
        rw [← hb]
        split
        · exact .inr rfl
        · exact .inl rfl
      have hcounted : Evolves w { (w.newActivation (w.heap.closure closure).name
          (w.heap.closure closure).isAsync).2 with depth := w.depth + 1 } :=
        ⟨rfl, rfl, rfl, rfl, fun _ => id, hnew.activations, .none rfl rfl, fun h =>
          ⟨(hnew.kept h).main, (hnew.kept h).actions, (hnew.kept h).generators, (hnew.kept h).parked⟩, hnew.ages⟩
      refine .beneath [.activationEnd w.activations.size, b, .callEnd]
        (builds_startBody _ _ closure arguments own) hcounted (.call hboundary .nil) ?_ ?_ ?_ (fun _ => rfl)
        fun _ hw hs => ⟨?_, ?_⟩
      · rcases hboundary with rfl | rfl <;> simp [Frame.Fits]
      · have hcalls : calls [.activationEnd w.activations.size, b, .callEnd] = 1 := by
          rcases hboundary with rfl | rfl <;> rfl
        rw [hcalls]
        rfl
      · rename_i hbelow _
        simp only [World.newActivation]
        omega
      · exact (hnew.accounted hw).deeper _
      · have below := hs.mono hcounted.ages
        rcases hboundary with rfl | rfl <;> exact ⟨trivial, trivial, trivial, below⟩

theorem builds_call (hk : w.Kept) (callee : Callee) (arguments : List Value) :
    (w.call stack callee arguments).Builds known w stack := by
  unfold World.call
  split
  · exact builds_callNative _ _ hk ..
  · exact builds_callClosure _ _ hk ..
  · exact .attempt fun _ => .here rfl

theorem builds_construct (hk : w.Kept) (constructor : Value) (arguments : List Value) :
    (w.construct stack constructor arguments).Builds known w stack := by
  have refused : Builds known w stack (w.attempt stack (w.heap.text constructor) fun w name =>
      ⟨w, .raise (.typeError (name ++ " is not a constructor")), stack⟩) :=
    .attempt fun _ => .here rfl
  unfold World.construct
  split
  · split
    · exact builds_callNative _ _ hk ..
    · exact refused
  · exact refused

/-! ### Statements -/

theorem builds_evaluateChild (node : Node) (i scope : Nat) :
    (w.evaluateChild stack node i scope).Builds known w stack := by
  unfold World.evaluateChild
  split <;> exact .here rfl

theorem builds_executeChild (node : Node) (i : Nat) {scope : Nat} (suits : w.Suits scope node.children) :
    (w.executeChild stack node i scope).Builds known w stack := by
  unfold World.executeChild
  split
  · rename_i child e
    exact .executes (suits.one (List.mem_of_getElem? e))
  · exact .here rfl

theorem builds_declare (kind : Text) (scope target : Nat) (rest : List Node) :
    (declare stack kind scope target w rest).Builds known w stack := by
  induction rest generalizing w with
  | nil => exact .here rfl
  | cons d rest ih =>
    unfold World.declare
    split
    · exact .under (.here rfl) rfl trivial
    · split
      · exact ih ..
      · exact .after (ih _) (slight_define ..)

theorem builds_runPass (body : Node) {scope : Nat} (turns : stack.turns = true) (suits : w.Suits scope [body]) :
    (w.runPass stack body scope).Builds known w stack := by
  have hminor := slight_childScope (w := w) scope
  have hinner : (w.childScope scope).2.Suits (w.childScope scope).1 [body] :=
    suits.same (activation_childScope scope)
  refine .after (builds_enterFrame _ _ _ _ _ rfl (fun _ => turns) fun main => ?_) hminor
  have hbody := hinner main body (by simp)
  split
  · rename_i hblock
    exact Node.MainRule.children hbody (by simp [hblock, NodeKind.isFunction])
  · exact List.forall_mem_singleton.mpr hbody

omit [Node.MainRule] in
/-- A loop that ends passes on no end of a pass. -/
theorem afterPass_ne {reason reason' : ExitReason} {labels : List Text}
    (e : afterPass reason labels = some reason') : reason'.kind ≠ .iterationEnd := by
  intro ends
  unfold afterPass at e
  split at e
  · cases e
  · cases e
  · split at e
    · cases e
    · obtain rfl := Option.some.inj e
      simp_all
  · split at e
    · obtain rfl := Option.some.inj e
      cases ends
    · obtain rfl := Option.some.inj e
      simp_all
  · obtain rfl := Option.some.inj e
    contradiction

theorem builds_afterPassThen (reason : ExitReason) (labels : List Text) (again : World → Running)
    (h : (again w).Builds known w stack) : (w.afterPassThen stack reason labels again).Builds known w stack := by
  unfold World.afterPassThen
  split
  · exact h
  · exact .comes trivial fun _ => receives_of_ne (afterPass_ne ‹_›)

theorem builds_testWhile (loop : PlainLoop) (suits : w.Suits loop.scope [loop.body]) :
    (w.testWhile stack loop).Builds known w stack := .under (.here rfl) rfl suits

theorem builds_testFor (loop : CountingLoop) {scope : Nat} (suits : w.Suits scope [loop.body]) :
    (w.testFor stack loop scope).Builds known w stack := by
  unfold World.testFor
  split
  · exact (builds_runPass _ _ _ rfl suits).under rfl suits
  · exact .under (.here rfl) rfl suits

theorem builds_startFor (loop : CountingLoop) {scope : Nat} (suits : w.Suits scope [loop.body]) :
    (w.startFor stack loop scope).Builds known w stack :=
  .after (builds_testFor _ _ _ (suits.same (activation_copyScope loop scope))) (slight_copyScope ..)

theorem builds_stepFor (loop : CountingLoop) {scope : Nat} (suits : w.Suits scope [loop.body]) :
    (w.stepFor stack loop scope).Builds known w stack := by
  have hsuits : (w.copyScope loop scope).2.Suits (w.copyScope loop scope).1 [loop.body] :=
    suits.same (activation_copyScope loop scope)
  simp only [World.stepFor]
  split
  · exact .after (builds_testFor _ _ _ hsuits) (slight_copyScope ..)
  · exact .after (.under (.here rfl) rfl hsuits) (slight_copyScope ..)

theorem builds_runElement (loop : ElementLoop) (value : Value) (suits : w.Suits loop.scope [loop.body]) :
    (w.runElement stack loop value).Builds known w stack := by
  have hminor := (slight_childScope (w := w) loop.scope).trans
    (slight_bind (w.childScope loop.scope).1 loop.name value)
  have hbind := slight_bind (w := (w.childScope loop.scope).2) (w.childScope loop.scope).1 loop.name value
  have hsuits : (w.childScope loop.scope).2.Suits (w.childScope loop.scope).1 [loop.body] :=
    suits.same (activation_childScope loop.scope)
  exact .after ((builds_runPass _ _ _ rfl (hsuits.mono hbind.owners)).under (f := .forOfPass loop) rfl
    (suits.mono hminor.owners)) hminor

theorem builds_runFound (loop : ElementLoop) (value? : Option Value)
    (suits : w.Suits loop.scope [loop.body]) : (w.runFound stack loop value?).Builds known w stack := by
  unfold World.runFound
  split
  · exact builds_runElement _ _ _ _ suits
  · exact .here rfl

theorem builds_nextElement (hk : w.Kept) (loop : ElementLoop) (suits : w.Suits loop.scope [loop.body]) :
    (w.nextElement stack loop).Builds known w stack := by
  unfold World.nextElement
  split
  · exact builds_runFound _ _ _ _ suits
  · exact builds_runFound _ _ _ _ suits
  · exact (builds_resume _ _ hk ..).under rfl suits
  · exact .attempt fun _ => .here rfl

theorem builds_startForOf (hk : w.Kept) (node : Node) {scope : Nat} (labels : List Text)
    (iterable : Value) (suits : w.Suits scope node.children) :
    (w.startForOf stack node scope labels iterable).Builds known w stack := by
  unfold World.startForOf
  split
  · exact .here rfl
  · rename_i body e
    exact builds_nextElement _ _ hk _
      (suits.one (List.mem_of_getElem? e))

theorem builds_leaveForOf (hk : w.Kept) (loop : ElementLoop) {reason : ExitReason}
    (other : reason.kind ≠ .iterationEnd) : (w.leaveForOf stack loop reason).Builds known w stack := by
  unfold World.leaveForOf
  split
  · exact (builds_resume _ _ hk ..).inside rfl trivial fun _ _ => other
  · exact .comes trivial fun _ => receives_of_ne other

theorem builds_abandonForOf (hk : w.Kept) (loop : ElementLoop) (failure : Failure) :
    (w.abandonForOf stack loop failure).Builds known w stack := by
  unfold World.abandonForOf
  split
  · split
    · exact (builds_resume _ _ hk ..).under rfl trivial
    · exact .here rfl
  · exact .here rfl

omit [Node.MainRule] in
theorem clausesStatements_subset (clauses : List Node) :
    clausesStatements clauses ⊆ clauses.flatMap Node.children := by
  intro s hs
  obtain ⟨clause, hclause, hs⟩ := List.mem_flatMap.mp hs
  refine List.mem_flatMap.mpr ⟨clause, hclause, ?_⟩
  unfold clauseStatements at hs
  split at hs
  · exact List.mem_of_mem_drop hs
  · exact hs

theorem builds_testClauses (subject : Value) {scope : Nat} {fallback : Option (List Node)}
    {rest : List Node} (suits : w.Suits scope (rest.flatMap Node.children))
    (other : ∀ clauses ∈ fallback, w.Suits scope (clauses.flatMap Node.children)) :
    (w.testClauses stack subject scope fallback rest).Builds known w stack := by
  induction rest generalizing fallback with
  | nil =>
    refine .under (.here rfl) rfl ?_
    cases fallback with
    | none => exact fun _ => List.forall_mem_nil _
    | some clauses => exact (other clauses rfl).subset (clausesStatements_subset clauses)
  | cons clause rest ih =>
    have hrest : w.Suits scope (rest.flatMap Node.children) :=
      suits.subset (by simp [List.flatMap_cons])
    unfold World.testClauses
    split
    · refine ih hrest fun clauses hc => ?_
      rw [← Option.some.inj hc]
      exact suits
    · exact (builds_evaluateChild ..).under rfl ⟨suits, other⟩

theorem builds_runSwitch (node : Node) {scope : Nat} (labels : List Text) (subject : Value)
    (suits : w.Suits scope ((node.children.drop 1).flatMap Node.children)) :
    (w.runSwitch stack node scope labels subject).Builds known w stack := by
  have hinner : (w.childScope scope).2.Suits (w.childScope scope).1
      ((node.children.drop 1).flatMap Node.children) := suits.same (activation_childScope scope)
  refine .after (.under (f := .switchEnd labels) ?_ rfl trivial) (slight_childScope scope)
  unfold World.runSwitch
  refine builds_openFrame _ _ .switchBody _ _ _ rfl receives_normal fun w' handle e => ?_
  exact builds_testClauses _ _ _ (hinner.mono e.owners) fun _ h => absurd h (Option.not_mem_none _)

theorem builds_finish (finalizer : Node) {scope : Nat} {reason : ExitReason}
    (other : known → reason.kind ≠ .iterationEnd) (suits : w.Suits scope [finalizer]) :
    (w.finish stack finalizer scope reason).Builds known w stack := by
  unfold World.finish
  split
  · exact builds_complete _ _ _ fun k => receives_of_ne (other k)
  · exact .inside (.executes suits) rfl trivial fun k _ => other k

theorem builds_handle (handler finalizer : Node) {scope : Nat} (failure : Failure)
    (suits : w.Suits scope (finalizer :: handler.children)) :
    (w.handle stack handler finalizer scope failure).Builds known w stack := by
  have hfinalizer : w.Suits scope [finalizer] := suits.subset (by simp)
  simp only [World.handle]
  split
  · exact builds_finish _ _ _ (fun _ e => ExitKind.noConfusion e) hfinalizer
  · have hhandler : (w.childScope scope).2.Suits (w.childScope scope).1 handler.children :=
      (suits.subset (List.subset_cons_self ..)).same (activation_childScope scope)
    have hcaught : ∀ {w' : World}, Slight (w.childScope scope).2 w' →
        (w'.executeChild (.catchBody finalizer scope :: stack) handler 0 (w.childScope scope).1).Builds known w
          stack := by
      intro w' caught
      have hall := (slight_childScope scope).trans caught
      exact .after ((builds_executeChild _ _ _ _ (hhandler.mono caught.owners)).under
        (f := .catchBody finalizer scope) rfl (hfinalizer.mono hall.owners)) hall
    split
    · exact hcaught (.refl _)
    · exact hcaught ((slight_heap _).trans (slight_bind ..))

mutual

/-- The rule admits the statement behind the labels of one that it admits. -/
theorem admits_unlabeled {labels : List (Option Text)} {x : List (Option Text) × Node} :
    ∀ {n : Node}, unlabeled labels n = .ok x → Node.MainRule.admits n → Node.MainRule.admits x.2
  | ⟨kind, value, label, params, children, a, g, l, span⟩, h, admits => by
    unfold unlabeled at h
    split at h
    · rename_i hkind
      refine admits_firstUnlabeled h fun c hc => Node.MainRule.children admits ?_ c hc
      simp [hkind, NodeKind.isFunction]
    · rw [← Except.ok.inj h]
      exact admits

theorem admits_firstUnlabeled {labels : List (Option Text)} {x : List (Option Text) × Node} :
    ∀ {ns : List Node}, firstUnlabeled labels ns = .ok x → (∀ n ∈ ns, Node.MainRule.admits n) →
      Node.MainRule.admits x.2
  | [], h, _ => by contradiction
  | n :: ns, h, admits => by
    unfold firstUnlabeled at h
    exact admits_unlabeled h (admits n (by simp))

end

theorem builds_executeTarget (node : Node) {scope : Nat} (labels : List Text)
    (suits : w.Suits scope [node]) : (w.executeTarget stack node scope labels).Builds known w stack := by
  have hchildren : node.kind.isFunction = false → w.Suits scope node.children := fun hkind main =>
    Node.MainRule.children (suits main node (by simp)) hkind
  simp only [World.executeTarget]
  split
  · rename_i condition body hkind hchild
    have hbody := (hchildren (by simp [hkind, NodeKind.isFunction])).one (n := body) (by simp [hchild])
    exact builds_testWhile _ _ _ hbody
  · rename_i body condition hkind hchild
    have hbody := (hchildren (by simp [hkind, NodeKind.isFunction])).one (n := body) (by simp [hchild])
    exact (builds_runPass _ _ _ rfl hbody).under rfl hbody
  · rename_i start condition step body hkind hchild
    have hall := hchildren (by simp [hkind, NodeKind.isFunction])
    have hinner : (w.childScope scope).2.Suits (w.childScope scope).1 node.children :=
      hall.same (activation_childScope scope)
    split
    · exact .after (builds_startFor _ _ _ (hinner.one (by simp [hchild]))) (slight_childScope scope)
    · refine .after (.under (.executes ?_) rfl ?_) (slight_childScope scope)
      · exact hinner.one (by simp [hchild])
      · exact hinner.one (by simp [hchild])
  · rename_i hkind
    exact (builds_evaluateChild ..).under rfl (hchildren (by simp [hkind, NodeKind.isFunction]))
  · rename_i hkind
    refine (builds_evaluateChild ..).under rfl fun main s hs => ?_
    obtain ⟨clause, hclause, hs⟩ := List.mem_flatMap.mp hs
    exact Node.MainRule.clauses (suits main node (by simp)) hkind clause hclause s hs
  · exact .here rfl

theorem builds_executeLabeled (node : Node) {scope : Nat} (suits : w.Suits scope [node]) :
    (w.executeLabeled stack node scope).Builds known w stack := by
  unfold World.executeLabeled
  cases e : unlabeled [] node with
  | error failure => exact .here rfl
  | ok x =>
    have hx : w.Suits scope [x.2] := fun main =>
      List.forall_mem_singleton.mpr (admits_unlabeled e (suits main node (by simp)))
    show Builds known w stack (if x.2.kind.isLoop || x.2.kind = .switch then _ else _)
    split
    · exact (builds_executeTarget _ _ _ _ hx).under rfl trivial
    · exact .under (.executes hx) rfl trivial

theorem builds_executeCompound (node : Node) {scope : Nat} (suits : w.Suits scope [node]) :
    (w.executeCompound stack node scope).Builds known w stack := by
  have hchildren : node.kind.isFunction = false → w.Suits scope node.children := fun hkind main =>
    Node.MainRule.children (suits main node (by simp)) hkind
  unfold World.executeCompound
  split
  · exact (builds_evaluateChild ..).under rfl trivial
  · exact builds_declare ..
  · rename_i hkind
    have hall := hchildren (by simp [hkind, NodeKind.isFunction])
    exact .after (builds_enterFrame _ _ _ _ _ rfl receives_normal (hall.same (activation_childScope scope)))
      (slight_childScope scope)
  · rename_i hkind
    exact (builds_evaluateChild ..).under rfl (hchildren (by simp [hkind, NodeKind.isFunction]))
  · split
    · exact .under (.here rfl) rfl trivial
    · exact .here rfl
  · exact (builds_evaluateChild ..).under rfl trivial
  · rename_i hkind
    split
    · rename_i block handler finalizer hchild
      have hall := hchildren (by simp [hkind, NodeKind.isFunction])
      refine .under (.executes (hall.one (by simp [hchild]))) rfl fun main => ?_
      exact List.forall_mem_cons.mpr ⟨hall main finalizer (by simp [hchild]),
        Node.MainRule.handlers (suits main node (by simp)) hkind hchild⟩
    · exact .here rfl
  · exact builds_executeLabeled _ _ _ suits
  · exact builds_executeTarget _ _ _ _ suits

theorem builds_execute (node : Node) {scope : Nat} (suits : w.Suits scope [node]) :
    (w.execute stack node scope).Builds known w stack := by
  have counted : Slight w { w with stats := { w.stats with statements := w.stats.statements + 1 } } :=
    slight_stats rfl
  refine .after ?_ counted
  have suits' := suits.mono counted.owners
  simp only [World.execute]
  split
  · exact .here rfl
  · exact .here rfl
  · exact .here rfl
  · exact .here rfl
  · rename_i hkind
    refine .perform (slight_register _ node scope fun main => ?_) fun _ => .here rfl
    exact Node.MainRule.children (suits main node (by simp)) (by simp [hkind, NodeKind.isFunction])
  · split
    · exact (builds_executeCompound _ _ _ suits').under (f := .statementEnd) rfl trivial
    · exact .here rfl

/-! ### Expressions -/

theorem builds_template (before : List Text) (rest : List Node) (scope : Nat) :
    (w.template stack before rest scope).Builds known w stack := by
  unfold World.template
  split
  · exact .here rfl
  · exact .under (.here rfl) rfl trivial

theorem builds_arguments (hk : w.Kept) (callee : Callee) (before : List Value) (rest : List Node)
    (scope : Nat) : (w.arguments stack callee before rest scope).Builds known w stack := by
  unfold World.arguments
  split
  · exact builds_call _ _ hk ..
  · exact .under (.here rfl) rfl trivial

theorem builds_newArguments (hk : w.Kept) (constructor : Value) (before : List Value)
    (rest : List Node) (scope : Nat) :
    (w.newArguments stack constructor before rest scope).Builds known w stack := by
  unfold World.newArguments
  split
  · exact builds_construct _ _ hk ..
  · exact .under (.here rfl) rfl trivial

theorem builds_elements (before : List Value) (rest : List Node) (scope : Nat) :
    (w.elements stack before rest scope).Builds known w stack := by
  unfold World.elements
  split
  · exact .after (.here rfl) (slight_heap _)
  · exact .under (.here rfl) rfl trivial

theorem builds_properties (ref : Nat) (rest : List Node) (scope : Nat) :
    (w.properties stack ref rest scope).Builds known w stack := by
  unfold World.properties
  split
  · exact .here rfl
  · exact (builds_evaluateChild ..).under rfl trivial

theorem builds_sequence (rest : List Node) (scope : Nat) (value : Value) :
    (w.sequence stack rest scope value).Builds known w stack := by
  unfold World.sequence
  split
  · exact .here rfl
  · exact .under (.here rfl) rfl trivial

theorem builds_store (place : Place) (value result : Value) :
    (w.store stack place value result).Builds known w stack :=
  .perform (slight_writePlace ..) fun _ => .here rfl

theorem builds_update (place : Place) (op : Text) (isLeading : Bool) :
    (w.update stack place op isLeading).Builds known w stack :=
  .perform (slight_readPlace _) fun _ =>
    .attempt fun _ => builds_store ..

theorem builds_assignTo (place : Place) (op : Option Text) (right : Node) (scope : Nat) :
    (w.assignTo stack place op right scope).Builds known w stack := by
  simp only [World.assignTo]
  split
  · exact .under (.here rfl) rfl trivial
  · refine .perform (slight_readPlace _) fun current => ?_
    split
    · refine .attempt fun keeps => ?_
      split
      · exact .here rfl
      · exact .under (.here rfl) rfl trivial
    · exact .under (.here rfl) rfl trivial

theorem builds_assignCombined (place : Place) (op : Option Text) (current operand : Value) :
    (w.assignCombined stack place op current operand).Builds known w stack := by
  unfold World.assignCombined
  split
  · exact .here rfl
  · exact .attempt fun _ => builds_store ..

theorem builds_usePlace (place : Place) (use : PlaceUse) :
    (w.usePlace stack place use).Builds known w stack := by
  unfold World.usePlace
  split
  · exact builds_update ..
  · exact builds_assignTo ..

theorem builds_findPlace (target : Node) (scope : Nat) (use : PlaceUse) :
    (w.findPlace stack target scope use).Builds known w stack := by
  unfold World.findPlace
  split
  · exact builds_usePlace ..
  · exact (builds_evaluateChild ..).under rfl trivial

theorem builds_findPlaceIn (object : Value) (target : Node) (scope : Nat) (use : PlaceUse) :
    (w.findPlaceIn stack object target scope use).Builds known w stack := by
  unfold World.findPlaceIn
  split
  · exact .after (builds_usePlace ..) (slight_memberKey target)
  · exact (builds_evaluateChild ..).under rfl trivial

theorem builds_callMethod (hk : w.Kept) (object key : Value) (rest : List Node) (scope : Nat) :
    (w.callMethod stack object key rest scope).Builds known w stack := by
  have hminor := slight_getProperty (w := w) object key
  refine .perform hminor fun _ => .attempt fun _ => ?_
  exact builds_arguments _ _ (hminor.kept hk) ..

theorem builds_findCallee (callee : Node) (rest : List Node) (scope : Nat) :
    (w.findCallee stack callee rest scope).Builds known w stack := by
  unfold World.findCallee
  split
  · exact (builds_evaluateChild ..).under rfl trivial
  · exact (builds_evaluateChild ..).under rfl trivial
  · exact .under (.here rfl) rfl trivial

theorem builds_findMethod (hk : w.Kept) (object : Value) (callee : Node) (rest : List Node)
    (scope : Nat) : (w.findMethod stack object callee rest scope).Builds known w stack := by
  have hminor := slight_memberKey (w := w) callee
  unfold World.findMethod
  split
  · exact .after (builds_callMethod _ _ (hminor.kept hk) ..) hminor
  · exact (builds_evaluateChild ..).under rfl trivial

theorem builds_read (object key : Value) : (w.read stack object key).Builds known w stack :=
  .perform (slight_getProperty ..) fun _ => .here rfl

theorem builds_logical (op : Text) (left : Value) (right : Option Node) (scope : Nat) :
    (w.logical stack op left right scope).Builds known w stack := by
  refine .attempt fun decided => ?_
  split
  · exact .here rfl
  · split <;> exact .here rfl

theorem builds_unary (node : Node) (scope : Nat) : (w.unary stack node scope).Builds known w stack := by
  unfold World.unary
  split
  · exact .here rfl
  · split
    · exact .here rfl
    · split
      · exact .here rfl
      · exact .under (.here rfl) rfl trivial

theorem builds_evaluate (node : Node) (scope : Nat) :
    (w.evaluate stack node scope).Builds known w stack := by
  unfold World.evaluate
  split
  · exact .after (.here rfl) (slight_heap _)
  · exact .attempt fun _ => .here rfl
  · exact .perform (slight_makeFunction ..) fun _ => .here rfl
  · exact builds_template ..
  · split
    · exact .under (.here rfl) rfl trivial
    · exact .here rfl
  · exact (builds_evaluateChild ..).under rfl trivial
  · exact builds_unary ..
  · split
    · exact builds_findPlace ..
    · exact .here rfl
  · split
    · exact builds_findPlace ..
    · exact .here rfl
  · split
    · exact builds_findCallee ..
    · exact .here rfl
  · exact .after ((builds_evaluateChild ..).under rfl trivial) (slight_memberKey node)
  · exact (builds_evaluateChild ..).under rfl trivial
  · exact builds_elements ..
  · exact .after (builds_properties ..) (slight_heap _)
  · split
    · exact .under (.here rfl) rfl trivial
    · exact .here rfl
  · exact (builds_evaluateChild ..).under rfl trivial
  · split
    · exact .under (.here rfl) rfl trivial
    · exact .here rfl
  · exact (builds_evaluateChild ..).under rfl trivial
  · exact builds_sequence ..
  · exact .here rfl

/-! ### Outcomes -/

theorem builds_branch (v : Value) {yes no : World → Running} (hyes : (yes w).Builds known w stack)
    (hno : (no w).Builds known w stack) : (w.branch stack v yes no).Builds known w stack := by
  refine .attempt fun b => ?_
  split
  · exact hyes
  · exact hno

theorem builds_evaluateOperand (operand : Option Node) (scope : Nat) {frame : Frame}
    (light : frame.isLight = true) (fits : frame.Fits w) :
    (w.evaluateOperand stack operand scope frame).Builds known w stack := by
  unfold World.evaluateOperand
  split
  · exact .under (.here rfl) light fits
  · exact .here rfl

theorem builds_give (r : Conversion Value) : (w.give stack r).Builds known w stack :=
  .attempt fun _ => .here rfl

variable {f : Frame}

theorem builds_onValue (hk : w.Kept) (plain : f.isPlain = true) (fits : f.Fits w) (v : Value) :
    (w.onValue stack v f).Builds known w stack := by
  cases f with
  | declare => exact .after (builds_declare ..) (slight_define ..)
  | ifCondition node scope =>
    refine builds_branch _ _ _ (builds_executeChild _ _ _ _ fits) ?_
    split
    · rename_i alternative e
      exact .executes (World.Suits.one fits (child?_eq_some e).1)
    · exact .here rfl
  | whileCondition | doCondition =>
    exact builds_branch _ _ _ ((builds_runPass _ _ _ rfl fits).under rfl fits) (.here rfl)
  | forCondition =>
    exact builds_branch _ _ _ ((builds_runPass _ _ _ rfl fits).under rfl fits) (.here rfl)
  | forStep => exact builds_testFor _ _ _ fits
  | forOfSubject => exact builds_startForOf _ _ hk _ _ _ fits
  | switchSubject => exact builds_runSwitch _ _ _ _ _ fits
  | switchTest subject clause rest fallback scope =>
    simp only [World.onValue]
    split
    · exact .under (.here rfl) rfl (fits.1.subset (clausesStatements_subset _))
    · exact builds_testClauses _ _ _ (fits.1.subset (by simp [List.flatMap_cons])) fits.2
  | templatePart => exact .attempt fun _ => builds_template ..
  | binaryLeft | indexObject => exact builds_evaluateOperand _ _ _ _ rfl trivial
  | binaryRight | unaryOperand => exact builds_give ..
  | logicalLeft => exact builds_logical ..
  | placeObject => exact builds_findPlaceIn ..
  | placeKey => exact builds_usePlace ..
  | assignValue => exact builds_store ..
  | assignCombined => exact builds_assignCombined ..
  | calleeObject => exact builds_findMethod _ _ hk ..
  | calleeKey => exact builds_callMethod _ _ hk ..
  | calleeValue | argument => exact builds_arguments _ _ hk ..
  | newCallee | newArgument => exact builds_newArguments _ _ hk ..
  | memberObject | indexKey => exact builds_read ..
  | arrayElement => exact builds_elements ..
  | objectProperty => exact .after (builds_properties ..) (slight_heap _)
  | conditionalTest =>
    exact builds_branch _ _ _ (builds_evaluateChild ..) (builds_evaluateChild ..)
  | sequenceElement => exact builds_sequence ..
  | parameter closure name rest arguments scope =>
    have hminor := slight_bind (w := w) scope name v
    exact .after (builds_bindParameters _ _ _ _ _ fun main => fits (hminor.owners _ main)) hminor
  | activationEnd | callEnd | syncBoundary | asyncStart | asyncDrive | generatorBoundary | taskStart | nap
  | taskEnd | programEnd => contradiction
  | _ => exact .here rfl

/-- A frame that is drained for a running action is for another theorem. -/
theorem builds_onComplete (hk : w.Kept) (plain : f.isPlain = true) (fits : f.Fits w) (reason : ExitReason)
    (calm : known → ∀ a d, f ≠ .draining a d) (account : known → f.Accounts w stack)
    (receives : known → Stack.Receives (f :: stack) reason) :
    (w.onComplete stack reason f).Builds known w stack := by
  have other : known → Stack.turns (f :: stack) = false → reason.kind ≠ .iterationEnd := fun k straight =>
    (receives k).ne straight
  have straight : known → Stack.turns (f :: stack) = false → stack.Receives reason := fun k straight =>
    receives_of_ne (other k straight)
  cases f with
  | statements rest scope =>
    simp only [World.onComplete]
    split
    · exact .comes trivial fun k => straight k rfl
    · split
      · exact .here rfl
      · exact .under (.executes (World.Suits.one fits (by simp))) rfl
          (World.Suits.subset fits (List.subset_cons_self ..))
  | scopeBody a handle atEnd =>
    refine builds_leaveBody _ _ _ _ _ hk fun k => ?_
    obtain ⟨knows, ends⟩ := account k
    split
    · exact ⟨knows.imp fun kind own => own ▸ kind.leaves_atEnd, ends⟩
    · rename_i abrupt
      exact ⟨knows.imp fun kind _ => kind.leaves_of_ne abrupt (other k rfl), straight k rfl⟩
  | scopeEnd => exact builds_complete _ _ _ receives
  | draining a d =>
    exact ⟨follows_settleAction _ _ _ _ _ hk, fun k => absurd rfl (calm k a d), fun k => absurd rfl (calm k a d)⟩
  | labeled labels =>
    refine .comes trivial fun k => ?_
    unfold afterLabeled
    split
    · exact receives_normal
    · exact straight k rfl
  | whilePass loop =>
    exact builds_afterPassThen _ _ _ _ (·.testWhile stack loop) (builds_testWhile _ _ _ fits)
  | doPass loop =>
    refine builds_afterPassThen _ _ _ _ (fun w => ⟨w, .evaluate loop.condition loop.scope,
      .doCondition loop :: stack⟩) ?_
    exact .under (.here rfl) rfl fits
  | forStart =>
    simp only [World.onComplete]
    split
    · exact .comes trivial fun k => straight k rfl
    · exact builds_startFor _ _ _ fits
  | forPass loop scope =>
    exact builds_afterPassThen _ _ _ _ (·.stepFor stack loop scope) (builds_stepFor _ _ _ fits)
  | forOfPass =>
    simp only [World.onComplete]
    split
    · exact builds_nextElement _ _ hk _ fits
    · exact builds_leaveForOf _ _ hk _ (afterPass_ne ‹_›)
  | switchEnd labels =>
    refine .comes trivial fun k => ?_
    unfold afterSwitch
    split
    · exact receives_normal
    · exact straight k rfl
  | tryBody handler finalizer scope =>
    exact builds_finish _ _ _ (fun k => other k rfl) (World.Suits.subset fits (by simp))
  | catchBody => exact builds_finish _ _ _ (fun k => other k rfl) fits
  | finallyBody =>
    simp only [World.onComplete]
    split
    · exact .comes trivial fun k => straight k rfl
    · exact builds_complete _ _ _ fun k => receives_of_ne (account k)
  | functionEnd =>
    simp only [World.onComplete]
    split <;> exact .here rfl
  | settling => exact .comes trivial receives
  | activationEnd | callEnd | syncBoundary | asyncStart | asyncDrive | generatorBoundary | taskStart | nap
  | taskEnd | programEnd => contradiction
  | _ => exact .comes trivial fun k => straight k rfl

theorem builds_onResumed (fits : f.Fits w) (v : Value) (done : Bool) (account : known → f.Accounts w stack) :
    (w.onResumed stack v done f).Builds known w stack := by
  cases f with
  | iterationResult => exact .after (.here rfl) (slight_heap _)
  | forOfNext =>
    simp only [World.onResumed]
    split
    · exact .here rfl
    · exact builds_runElement _ _ _ _ fits
  | forOfClose => exact .comes trivial fun k => receives_of_ne (account k)
  | _ => exact .here rfl

theorem builds_onRaise (hk : w.Kept) (plain : f.isPlain = true) (other : f ≠ .settling)
    (fits : f.Fits w) (failure : Failure) (calm : known → ∀ a d, f ≠ .draining a d)
    (account : known → f.Accounts w stack) : (w.onRaise stack failure f).Builds known w stack := by
  cases f with
  | statementEnd =>
    simp only [World.onRaise]
    split <;> exact .here rfl
  | scopeBody a handle atEnd =>
    have leaves : ∀ reason : ExitReason, reason.kind = .return ∨ reason.kind = .throw → known →
        w.Leaves a handle reason stack := by
      intro reason abrupt k
      have other : reason.kind ≠ .normal ∧ reason.kind ≠ .iterationEnd := by
        rcases abrupt with e | e <;> rw [e] <;> decide
      exact ⟨(account k).known.imp fun kind _ => kind.leaves_of_ne other.1 other.2, receives_of_ne other.2⟩
    simp only [World.onRaise]
    split
    · exact builds_leaveBody _ _ _ _ _ hk (leaves _ (.inl rfl))
    · split
      · exact builds_leaveBody _ _ _ _ _ hk (leaves _ (.inr rfl))
      · exact .here rfl
  | draining a d =>
    exact ⟨follows_settleAction _ _ _ _ _ hk, fun k => absurd rfl (calm k a d), fun k => absurd rfl (calm k a d)⟩
  | forOfPass => exact builds_abandonForOf _ _ hk ..
  | forOfAbort =>
    simp only [World.onRaise]
    split <;> exact .here rfl
  | tryBody =>
    simp only [World.onRaise]
    split
    · exact builds_handle _ _ _ _ _ fits
    · exact .here rfl
  | catchBody =>
    simp only [World.onRaise]
    split
    · exact builds_finish _ _ _ (fun _ e => ExitKind.noConfusion e) fits
    · exact .here rfl
  | settling => exact absurd rfl other
  | activationEnd | callEnd | syncBoundary | asyncStart | asyncDrive | generatorBoundary | taskStart | nap
  | taskEnd | programEnd => contradiction
  | _ => exact .here rfl

/-! ### What follows on any stack -/

section Follows

theorem follows_drain (a : Nat) (handle : FrameHandle) (mode : ActionMode) (reason : ExitReason) (hk : w.Kept) :
    (w.drain stack a handle mode reason).Follows w stack :=
  .of_builds (builds_drain _ _ _ _ _ _ hk False.elim)

theorem follows_execute (node : Node) {scope : Nat} (suits : w.Suits scope [node]) :
    (w.execute stack node scope).Follows w stack := .of_builds (builds_execute _ _ _ suits)

theorem follows_evaluate (node : Node) (scope : Nat) : (w.evaluate stack node scope).Follows w stack :=
  .of_builds (builds_evaluate ..)

theorem follows_onValue (hk : w.Kept) (plain : f.isPlain = true) (fits : f.Fits w) (v : Value) :
    (w.onValue stack v f).Follows w stack := .of_builds (builds_onValue _ _ hk plain fits v)

theorem follows_onComplete (hk : w.Kept) (plain : f.isPlain = true) (fits : f.Fits w)
    (reason : ExitReason) : (w.onComplete stack reason f).Follows w stack :=
  .of_builds (builds_onComplete _ _ hk plain fits reason False.elim False.elim False.elim)

theorem follows_onResumed (fits : f.Fits w) (v : Value) (done : Bool) :
    (w.onResumed stack v done f).Follows w stack := .of_builds (builds_onResumed _ _ fits v done False.elim)

theorem follows_onRaise (hk : w.Kept) (plain : f.isPlain = true) (other : f ≠ .settling)
    (fits : f.Fits w) (failure : Failure) : (w.onRaise stack failure f).Follows w stack :=
  .of_builds (builds_onRaise _ _ hk plain other fits failure False.elim False.elim)

end Follows

end World

end Script

end ScopeExit
