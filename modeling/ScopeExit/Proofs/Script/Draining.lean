import ScopeExit.Proofs.Script.Invariant
/-!
Frames of the engine around running code.

Each operation of the engine that running code causes happens at the innermost frame of its activation,
because the mark of that frame is the first one: nothing that could be in the way is between the code
and the frame.  So a frame is entered, filled, drained and left as the engine asks for, and none of these
operations is refused.
-/
namespace ScopeExit.Script

open World

/-- An identity of a live frame other than the innermost one is another one. -/
theorem outer_id_ne {r : Registry Deferred} (hr : r.Reachable) {outer : List ScopeFrame}
    {f : ScopeFrame} (e : r.frames = outer ++ [f]) : ∀ g ∈ outer, g.id ≠ f.id := by
  intro g hg
  have hids := hr.sound.ids
  rw [e, List.pairwise_append] at hids
  exact Nat.ne_of_lt (hids.2.2 g hg f (by simp))

/-- What a drain does does not depend on the registry that the world has had in the meantime. -/
theorem proceed_setRegistry (w : World) (stack : Stack) (a : Nat) (handle : FrameHandle)
    (r : Registry Deferred) (x : DrainStep Deferred × Registry Deferred) :
    (w.setRegistry a r).proceed stack a handle x = w.proceed stack a handle x := by
  obtain ⟨next, r'⟩ := x
  cases next <;> simp only [World.proceed, World.setRegistry_setRegistry]

section Draining

variable [Node.Strays] {L : Ledger} {loc : Nat → Host} {w : World} {stack : Stack} {Γ : Region}

/-! ### The innermost frame -/

/-- The innermost frame of an activation with its part of the arena, as its mark says, and what is
outside of it, as the other marks say. -/
structure Innermost (L : Ledger) (w : World) (a : Nat) (handle : FrameHandle)
    (isDraining mayWait : Bool) (marks : List Mark) (outer : List ScopeFrame) (f : ScopeFrame)
    (below own : List (Action Deferred)) : Prop where
  frames : (w.registry a).frames = outer ++ [f]
  address : handle = ⟨f.id, outer.length⟩
  arena : (w.registry a).arena = ⟨below ++ own⟩
  mark : f.mark = below.length
  held : Held L w a ⟨handle, isDraining, mayWait⟩ f own
  covers : Covers (Held L w a) (lives a marks) outer.reverse below

section Innermost

variable {a : Nat} {handle : FrameHandle} {isDraining mayWait : Bool} {marks : List Mark}
  {outer : List ScopeFrame} {f : ScopeFrame} {below own : List (Action Deferred)}

/-- The first mark stands for the innermost frame of its activation. -/
theorem Hosted.innermost {host : Host}
    (h : Hosted L loc w host (.frame a handle isDraining mayWait :: marks)) :
    ∃ outer f below own, Innermost L w a handle isDraining mayWait marks outer f below own := by
  have hcovers := h.covers a (h.located _ List.mem_cons_self).1
  rw [lives_frame] at hcovers
  generalize hframes : (w.registry a).frames.reverse = frames at hcovers
  generalize hactions : (w.registry a).arena.actions = actions at hcovers
  cases hcovers with
  | @cons _ _ f fs below own outer mark hhandle held =>
    refine ⟨fs.reverse, f, below, own, ?_, ?_, ?_, mark, held, by simpa using outer⟩
    · rw [← List.reverse_reverse (w.registry a).frames, hframes, List.reverse_cons]
    · simpa using hhandle
    · rw [← hactions]

/-- The same for frames that are known. -/
theorem Hosted.innermost_of {host : Host}
    (h : Hosted L loc w host (.frame a handle isDraining mayWait :: marks))
    (frames : (w.registry a).frames = outer ++ [f]) :
    ∃ below own, Innermost L w a handle isDraining mayWait marks outer f below own := by
  obtain ⟨outer', f', below, own, inner⟩ := h.innermost
  obtain ⟨rfl, hf⟩ := List.append_inj' (frames.symm.trans inner.frames) rfl
  obtain rfl := List.singleton_inj.mp hf
  exact ⟨below, own, inner⟩

/-- A change of the innermost frame and of its part of the arena concerns nothing else. -/
theorem Innermost.change {L' : Ledger}
    (inner : Innermost L w a handle isDraining mayWait marks outer f below own) (sys : Sys L loc w)
    (hosted : Hosted L loc w .running (.frame a handle isDraining mayWait :: marks))
    (agrees : L.AgreesBeside L' a f.id) {r : Registry Deferred} (reaches : (w.registry a).Reaches r)
    {f' : ScopeFrame} {own' : List (Action Deferred)} (frames : r.frames = outer ++ [f'])
    (id : f'.id = f.id) (mark : f'.mark = f.mark) (arena : r.arena.actions = below ++ own')
    {isDraining' mayWait' : Bool}
    (held : Held L' (w.setRegistry a r) a ⟨handle, isDraining', mayWait'⟩ f' own') :
    Sys L' loc (w.setRegistry a r) ∧ Hosted L' loc (w.setRegistry a r) .running
      (.frame a handle isDraining' mayWait' :: marks) := by
  obtain ⟨running, size⟩ : loc a = .running ∧ a < w.activations.size :=
    hosted.located _ List.mem_cons_self
  have hreach := sys.reachable a
  have hissued : f.id < (w.registry a).nextId := hreach.sound.issued f (by simp [inner.frames])
  constructor
  · refine sys.setRegistry running size (hreach.reaches reaches) agrees.toAgrees ?_ ?_
    · intro i hi
      have hle := Nat.le_trans reaches.nextId_le hi
      rw [agrees.registered_other i (by omega), agrees.started_other i (by omega)]
      exact sys.unused a i hle
    · intro i hi
      rw [frames] at hi
      have hne : f.id ≠ i := id ▸ hi f' (by simp)
      rw [agrees.registered_other i hne.symm, agrees.started_other i hne.symm]
      refine sys.gone a i fun g hg => ?_
      rw [inner.frames] at hg
      rcases List.mem_append.mp hg with hg | hg
      · exact hi g (List.mem_append_left _ hg)
      · rwa [List.mem_singleton.mp hg]
  · refine hosted.setRegistry size agrees.toAgrees ?_ ?_ ?_ ?_
    · exact List.pairwise_cons.mpr ⟨by simp [Mark.frame], (List.pairwise_cons.mp hosted.tidy).2⟩
    · exact List.forall_mem_cons.mpr ⟨⟨running, size⟩, (List.forall_mem_cons.mp hosted.located).2⟩
    · intro b hb
      rw [lives_frame_of_ne hb.symm, lives_frame_of_ne hb.symm]
    · rw [lives_frame, frames, arena, List.reverse_append, List.reverse_singleton,
        List.singleton_append]
      refine .cons (inner.covers.imp fun l g hg own held => ?_) (mark.trans inner.mark) ?_ held
      · have hne := outer_id_ne hreach inner.frames g (List.mem_reverse.mp hg)
        exact held.setRegistry r (agrees.registered_other _ hne) (agrees.started_other _ hne)
      · rw [List.length_reverse, id]
        exact inner.address

end Innermost

/-- A frame is entered inside the innermost one. -/
theorem Ready.enter (r : Ready L loc w stack (.code .completion Γ) []) (kind : FrameKind)
    (span : Span) {atEnd : ExitReason} (completes : Γ.Completes atEnd) :
    Ready L loc (w.setRegistry Γ.activation ((w.registry Γ.activation).enter kind
        (w.activation Γ.activation).isAsync span).2)
      (.scopeBody Γ.activation ((w.registry Γ.activation).enter kind
        (w.activation Γ.activation).isAsync span).1 atEnd :: stack)
      (.code .completion Γ.inFrame) [] := by
  obtain ⟨marks, spans, hosted⟩ := r.path
  obtain ⟨running, size⟩ := r.home rfl
  have hunused := r.sys.unused Γ.activation
  refine ⟨?_, r.awake, _, .scopeBody completes (spans.mono (extends_setRegistry ..)), ?_⟩
  · refine r.sys.setRegistry running size ((r.sys.reachable _).operation (.enter ..)) (.refl L _) ?_ ?_
    · intro id hid
      exact hunused id (Nat.le_of_succ_le hid)
    · intro id hid
      exact r.sys.gone _ id fun f hf => hid f (List.mem_append_left _ hf)
  · refine hosted.setRegistry size (.refl L _) ?_ ?_ ?_ ?_
    · exact List.pairwise_cons.mpr ⟨by simp [Mark.frame], hosted.tidy⟩
    · exact List.forall_mem_cons.mpr ⟨⟨running, size⟩, hosted.located⟩
    · intro b hb
      exact lives_frame_of_ne hb.symm ..
    · have hcovers := (hosted.covers _ running).imp fun l f _ own held =>
        held.setRegistry ((w.registry Γ.activation).enter kind
          (w.activation Γ.activation).isAsync span).2 rfl rfl
      obtain ⟨hregistered, hstarted⟩ := hunused (w.registry Γ.activation).nextId (Nat.le_refl _)
      rw [List.nil_append, lives_frame]
      show Covers _ _ (_ ++ [_]).reverse (w.registry Γ.activation).arena.actions
      rw [List.reverse_append, List.reverse_singleton, List.singleton_append,
        ← List.append_nil (w.registry Γ.activation).arena.actions]
      refine .cons hcovers rfl (by simp [Registry.enter]) ?_
      refine ⟨(w.isAsync_setRegistry ..).symm, fun _ => rfl, by simp, fun _ => rfl, by simp,
        by simp, ?_, fun _ => hstarted⟩
      show L.registered _ (w.registry Γ.activation).nextId = _
      rw [hregistered]
      show [] = [] ++ (L.started _ (w.registry Γ.activation).nextId).reverse
      rw [hstarted]
      rfl

/-- The functions among statements can be made. -/
theorem functionFits_of_shaped {s : Node.Site} {n : Node}
    (h : Node.Shaped Node.Allowed .statement s n) (kind : n.kind = .function) : FunctionFits n := by
  cases h with
  | function own _ params parts =>
    exact ⟨params, parts, own.sort (by rw [kind]; rfl)⟩
  | jump _ hk _ => rcases hk with hk | hk | hk <;> simp [hk] at kind
  | simple _ hk _ => rcases hk with hk | hk | hk <;> simp [hk] at kind
  | _ => simp_all

/-- Code inside a new frame. -/
theorem reached_openFrame (r : Ready L loc w stack (.code .completion Γ) []) {scope : Nat}
    (hs : ScopeIn w Γ.activation scope) (kind : FrameKind) (span : Span) {statements : List Node}
    (h : ∀ s ∈ statements, Γ.inFrame.Statement s) {atEnd : ExitReason}
    (completes : Γ.Completes atEnd) {inside : World → Stack → Running}
    (hinside : ∀ w' stack', ScopeIn w' Γ.activation scope →
      Ready L loc w' stack' (.code .completion Γ.inFrame) [] → Reached L (inside w' stack')) :
    Reached L (w.openFrame stack kind span scope statements atEnd inside) := by
  obtain ⟨handle, registry, hr⟩ : ∃ handle registry, (w.registry Γ.activation).enter kind
      (w.activation Γ.activation).isAsync span = (handle, registry) := ⟨_, _, rfl⟩
  obtain ⟨entered, he⟩ : ∃ entered, w.setRegistry Γ.activation registry = entered := ⟨_, rfl⟩
  have r₁ := r.enter kind span completes
  simp only [hr, he] at r₁
  have hcount : Quiet entered
      { entered with stats := { entered.stats with framesEntered := entered.stats.framesEntered + 1 } } :=
    .same rfl rfl rfl rfl rfl rfl rfl
  obtain ⟨hquiet, hclean⟩ := quiet_hoist scope fun s hs hk => functionFits_of_shaped (h s hs) hk
  have r₂ := (r₁.quiet hcount).quiet hquiet
  have hs₂ := ((he ▸ hs.mono (extends_setRegistry w _ _)).mono hcount.ext).mono hquiet.ext
  have henter : (w.activation Γ.activation).registry.enter kind
      (w.activation Γ.activation).isAsync span = (handle, registry) := hr
  unfold World.openFrame
  simp only [hs.activation_eq, henter, he]
  generalize World.hoist _ scope statements = hoisted at hquiet hclean r₂ hs₂ ⊢
  obtain ⟨w₂, failure?⟩ := hoisted
  cases failure? with
  | none => exact hinside w₂ _ hs₂ r₂
  | some f => exact .fail r₂ (hclean f rfl)

/-- Statements inside a new frame. -/
theorem reached_enterFrame (r : Ready L loc w stack (.code .completion Γ) []) {scope : Nat}
    (hs : ScopeIn w Γ.activation scope) (kind : FrameKind) (span : Span) {statements : List Node}
    (h : ∀ s ∈ statements, Γ.inFrame.Statement s) {atEnd : ExitReason}
    (completes : Γ.Completes atEnd) :
    Reached L (w.enterFrame stack kind span scope statements atEnd) := by
  refine reached_openFrame r hs kind span h completes fun w' stack' hs' r' => ?_
  exact .complete (r'.push (.statements ⟨h, hs'⟩)) rfl (Region.completes_normal _)

/-! ### Leaving a frame -/

/-- The innermost frame is gone, and its part of the arena with it. -/
theorem Ready.left {p : Port} {a : Nat} {handle : FrameHandle} {isDraining mayWait : Bool}
    (r : Ready L loc w stack p [.frame a handle isDraining mayWait]) {outer : List ScopeFrame}
    {f : ScopeFrame} (hr : (w.registry a).frames = outer ++ [f]) {r' : Registry Deferred}
    (reaches : (w.registry a).Reaches r') (frames : r'.frames = outer)
    (arena : r'.arena = (w.registry a).arena.truncate f.mark)
    (empty : (w.registry a).pendingActions handle = .ok []) :
    Ready L loc (w.setRegistry a r') stack p [] := by
  obtain ⟨marks, spans, hosted⟩ := r.path
  obtain ⟨running, size⟩ := hosted.located _ List.mem_cons_self
  obtain ⟨below, own, -, rfl, harena, hmark, held, hcovers⟩ := hosted.innermost_of hr
  have hreach := r.sys.reachable a
  refine ⟨?_, r.awake, marks, spans.mono (extends_setRegistry ..), ?_⟩
  · refine r.sys.setRegistry running size (hreach.reaches reaches) (.refl L _) ?_ ?_
    · intro id hid
      exact r.sys.unused a id (Nat.le_trans reaches.nextId_le hid)
    · intro id hid
      rw [frames] at hid
      by_cases h : f.id = id
      · have hpending := Registry.pendingActions_innermost hr
        rw [empty, Except.ok.injEq, Arena.above, harena, hmark, List.drop_left] at hpending
        have haccount := held.account
        rw [← hpending, List.map_nil, List.nil_append, h] at haccount
        exact haccount
      · refine r.sys.gone a id fun g hg => ?_
        rw [hr] at hg
        rcases List.mem_append.mp hg with hg | hg
        · exact hid g hg
        · rw [List.mem_singleton.mp hg]
          exact h
  · refine hosted.setRegistry size (.refl L _) (List.pairwise_cons.mp hosted.tidy).2
      (List.forall_mem_cons.mp hosted.located).2 ?_ ?_
    · intro b hb
      exact (lives_frame_of_ne hb.symm ..).symm
    · have htruncate : r'.arena.actions = below := by
        rw [arena, harena, hmark, Arena.truncate, List.take_left]
      rw [List.nil_append, frames, htruncate]
      exact hcovers.imp fun l g _ own held => held.setRegistry r' rfl rfl

/-- The result of a drain is fit for the code below. -/
def ResultFits (Γ : Region) : Except Failure DrainOutcome → Prop
  | .ok o => Γ.Completes o.reason
  | .error failure => failure.Clean

/-- A frame whose drain is over is left, and the result goes on. -/
theorem reached_left {handle : FrameHandle} {isDraining mayWait : Bool}
    (r : Ready L loc w stack (.code .completion Γ)
      [.frame Γ.activation handle isDraining mayWait]) {outer : List ScopeFrame} {f : ScopeFrame}
    (hr : (w.registry Γ.activation).frames = outer ++ [f]) {r₁ : Registry Deferred}
    (reaches : (w.registry Γ.activation).Reaches r₁) (frames : r₁.frames = outer ++ [Drain.closed f])
    (arena : r₁.arena.truncate f.mark = (w.registry Γ.activation).arena.truncate f.mark)
    (empty : (w.registry Γ.activation).pendingActions handle = .ok [])
    {result : Except Failure DrainOutcome} (fits : ResultFits Γ result) :
    Reached L ((w.setRegistry Γ.activation r₁).leaveFrame stack Γ.activation handle result) := by
  obtain ⟨marks, spans, hosted⟩ := r.path
  have size : Γ.activation < w.activations.size := (hosted.located _ List.mem_cons_self).2
  obtain ⟨below, own, -, rfl, -⟩ := hosted.innermost_of hr
  have hexit := Registry.exit_eq frames rfl
  change r₁.exit ⟨f.id, outer.length⟩ = _ at hexit
  generalize hr₂ : ({ r₁ with frames := outer, arena := r₁.arena.truncate (Drain.closed f).mark } :
    Registry Deferred) = r₂ at hexit
  have r₂' : Ready L loc (w.setRegistry Γ.activation r₂) stack (.code .completion Γ) [] := by
    refine r.left hr (reaches.trans (.single (.exit hexit))) ?_ ?_ empty
    · rw [← hr₂]
    · rw [← hr₂]
      exact arena
  unfold World.leaveFrame
  rw [w.registry_setRegistry_self size]
  cases result with
  | error failure =>
    have hleave : r₁.leave ⟨f.id, outer.length⟩ (.error failure) = ⟨.error failure, none, r₂⟩ := by
      simp only [Registry.leave, hexit]
    simp only [hleave, World.setRegistry_setRegistry]
    exact .raise r₂' (.inl fits)
  | ok o =>
    have hleave : r₁.leave ⟨f.id, outer.length⟩ (.ok o) = ⟨.ok o.reason, r₂.recordOf? o, r₂⟩ := by
      simp only [Registry.leave, hexit]
    simp only [hleave, World.setRegistry_setRegistry]
    refine .complete (r₂'.quiet ?_) rfl fits
    split
    · exact .same rfl rfl rfl rfl rfl rfl rfl
    · exact .refl _

/-! ### Drains -/

/-- The chain of a drain is clean, so its result is. -/
theorem CleanDrain.reason {d : Drain} (h : CleanDrain Γ d) : Γ.Completes d.outcome.reason := by
  show Γ.Completes d.aggregator.resolve
  unfold Aggregator.resolve
  split
  · exact h.pending
  · rename_i c hc
    have hchain : c ∈ d.aggregator.chain? := by
      unfold Aggregator.built? at hc
      split at hc
      · contradiction
      · exact hc
    refine Γ.completes_throwing fun x hx => ?_
    rw [FailureChain.leaves_toFailure] at hx
    obtain ⟨f, hf, hx⟩ := List.mem_flatMap.mp hx
    exact h.chain c hchain f hf x hx

theorem CleanDrain.record {d : Drain} (h : CleanDrain Γ d) {f : Failure} (clean : f.Clean) :
    CleanDrain Γ { d with aggregator := d.aggregator.record f } where
  pending := h.pending
  chain := by
    intro c hc e he
    rw [← Option.some.inj hc, FailureChain.errors] at he
    unfold FailureChain.record at he
    split at he
    · rw [List.mem_singleton.mp he]
      exact clean
    · rename_i c' hc'
      rcases List.mem_cons.mp he with rfl | he
      · exact clean
      · exact h.chain c' hc' e he

theorem cleanDrain_start {reason : ExitReason} (completes : Γ.Completes reason)
    (handle : FrameHandle) (f : ScopeFrame) (mode : ActionMode) :
    CleanDrain Γ ⟨handle, f, mode, 0, .start reason⟩ where
  pending := completes
  chain := by
    intro c hc e he
    obtain ⟨f, hf, rfl⟩ := Option.map_eq_some_iff.mp hc
    rw [List.mem_singleton.mp he]
    exact completes.clean f hf

/-- The last action of a frame that is drained is started, which is written down. -/
theorem Held.pop {L' : Ledger} {a : Nat} {handle : FrameHandle} {mayWait : Bool} {f : ScopeFrame}
    {own : List (Action Deferred)} {x : Action Deferred}
    (held : Held L w a ⟨handle, true, mayWait⟩ f (own ++ [x])) (r : Registry Deferred)
    (registered : L'.registered a f.id = L.registered a f.id)
    (started : L'.started a f.id = L.started a f.id ++ [x.body]) :
    Held L' (w.setRegistry a r) a ⟨handle, true, mayWait⟩ f own where
  isAsync := held.isAsync.trans (w.isAsync_setRegistry ..).symm
  waiting := by simp
  draining := held.draining
  counts hb := by simp [ScopeFrame.begun, held.draining rfl] at hb
  waits y hy := held.waits y (by simp [hy])
  fits y hy := (held.fits y (by simp [hy])).mono (extends_setRegistry ..)
  account := by
    have haccount := held.account
    rw [List.map_append, List.append_assoc] at haccount
    rw [registered, started, List.reverse_append]
    exact haccount
  untouched := by simp

/-- A frame stays innermost while its drain hands out an action, which is written down. -/
theorem reached_run {d : Drain} (r : Ready L loc w stack (.code .completion Γ)
      [.frame Γ.activation d.handle true (d.mode = .async)]) (clean : CleanDrain Γ d)
    {outer : List ScopeFrame} {f : ScopeFrame}
    {below own : List (Action Deferred)} {x : Action Deferred}
    (hd : d.InProgress (w.registry Γ.activation) outer f below (own ++ [x])) {r' : Registry Deferred}
    (reaches : (w.registry Γ.activation).Reaches r') (hd' : d.InProgress r' outer f below own) :
    Reached L (w.proceed stack Γ.activation d.handle (.run x d, r')) := by
  obtain ⟨marks, spans, hosted⟩ := r.path
  obtain ⟨below', own', inner⟩ := hosted.innermost_of hd.frames
  have hactions := hd.arena.symm.trans inner.arena
  rw [Arena.mk.injEq] at hactions
  obtain ⟨rfl, rfl⟩ := List.append_inj hactions (hd.mark.symm.trans inner.mark)
  generalize hs : w.proceed stack Γ.activation d.handle (.run x d, r') = s
  -- what the state starts
  have hstarts : ∀ b i, s.starts? b i =
      if Γ.activation = b ∧ (f.id : Int) = i then some x.body else none := by
    intro b i
    rw [← hs]
    by_cases hx : x.mode = .async <;>
      simp [World.proceed, Running.starts?, hx, Frame.isBoundary, hd.handle]
  have hself : (L.at s).started Γ.activation f.id = L.started Γ.activation f.id ++ [x.body] := by
    show _ ++ (s.starts? _ _).toList = _
    rw [hstarts, if_pos ⟨rfl, rfl⟩, Option.toList_some]
  have agrees : L.AgreesBeside (L.at s) Γ.activation f.id := by
    refine ⟨⟨fun _ _ => rfl, fun b hb => funext fun i => ?_, fun _ => id⟩, fun _ _ => rfl,
      fun i hi => ?_⟩
    · show _ ++ (s.starts? _ _).toList = _
      rw [hstarts, if_neg (fun h => hb h.1.symm), Option.toList_none, List.append_nil]
    · show _ ++ (s.starts? _ _).toList = _
      rw [hstarts, if_neg (by omega), Option.toList_none, List.append_nil]
  have fits : ActionFits w Γ.activation x := inner.held.fits x (by simp)
  have ext := extends_setRegistry w Γ.activation r'
  obtain ⟨hsys, hhosted⟩ := inner.change r.sys hosted agrees reaches hd'.frames rfl rfl
    (by rw [hd'.arena]) (inner.held.pop r' rfl hself)
  have hspans := spans.mono ext
  rw [Reached, ← hs]
  by_cases hx : x.mode = .async
  · have hbody := fits.body
    simp only [hx, decide_true] at hbody
    simp only [World.proceed, hx, if_true] at hs ⊢
    rw [hs]
    rw [← hs] at hsys hhosted ⊢
    exact .action ⟨hsys, r.awake, _, .asyncAction (ext.isAsync (fits.async hx))
      (.draining clean hspans), hhosted⟩ hbody (fits.scope.mono ext)
  · have hbody := fits.body
    simp only [hx, decide_false] at hbody
    simp only [World.proceed, hx, if_false] at hs ⊢
    rw [hs]
    rw [← hs] at hsys hhosted ⊢
    exact .action ⟨hsys, r.awake, _, .syncAction (.draining clean hspans), hhosted⟩ hbody
      (fits.scope.mono ext)

/-- A drain in progress hands out its next action or comes to its end. -/
theorem reached_advance {d : Drain} (r : Ready L loc w stack (.code .completion Γ)
      [.frame Γ.activation d.handle true (d.mode = .async)]) (clean : CleanDrain Γ d) :
    Reached L (w.proceed stack Γ.activation d.handle (d.advance (w.registry Γ.activation))) := by
  obtain ⟨marks, spans, hosted⟩ := r.path
  obtain ⟨outer, f, below, own, hr, hhandle, harena, hmark, held, -⟩ := hosted.innermost
  have hreach := r.sys.reachable Γ.activation
  have hd : d.InProgress (w.registry Γ.activation) outer f below own :=
    ⟨hreach, hr, held.draining rfl, hhandle, harena, hmark⟩
  rcases List.eq_nil_or_concat own with rfl | ⟨own, x, rfl⟩
  · obtain ⟨r', hadvance, reaches, frames, arena⟩ := hd.advance_nil
    rw [hadvance]
    refine reached_left r hr reaches frames ?_ ?_ clean.reason
    · rw [arena, harena, List.append_nil]
    · rw [hhandle, Registry.pendingActions_innermost hr, harena, hmark, Arena.above,
        List.drop_left]
  · rw [List.concat_eq_append] at hd
    obtain ⟨r', hadvance, reaches, hd'⟩ := hd.advance_snoc
    rw [hadvance]
    exact reached_run (d := { d with executed := d.executed + 1 }) r ⟨clean.pending, clean.chain⟩
      ⟨hreach, hr, hd.draining, hhandle, hd.arena, hmark⟩ reaches hd'

/-- A frame that is not drained yet is drained and left. -/
theorem reached_drain {handle : FrameHandle} {mayWait : Bool}
    (r : Ready L loc w stack (.code .completion Γ) [.frame Γ.activation handle false mayWait])
    {mode : ActionMode}
    (sync : mode = .sync → (w.registry Γ.activation).hasAsyncActions handle = .ok false)
    {reason : ExitReason} (completes : Γ.Completes reason) :
    Reached L (w.drain stack Γ.activation handle mode reason) := by
  obtain ⟨marks, spans, hosted⟩ := r.path
  have size : Γ.activation < w.activations.size := (hosted.located _ List.mem_cons_self).2
  obtain ⟨outer, f, below, own, inner⟩ := hosted.innermost
  have held := inner.held
  have hhandle := inner.address
  have hr := inner.frames
  have fresh := held.waiting rfl
  have hcount : mode = .sync → f.asyncActions = 0 := by
    intro hm
    have h := sync hm
    rw [hhandle, Registry.hasAsyncActions, Registry.frame_innermost hr] at h
    simpa [Bind.bind, Except.bind, Pure.pure, Except.pure] using h
  have hstart := Drain.start_eq hr fresh hcount reason
  rw [← hhandle] at hstart
  unfold World.drain
  rw [hstart]
  -- the drain is open now
  generalize hr₁ : ({ w.registry Γ.activation with
    frames := outer ++ [{ f with draining := true }] } : Registry Deferred) = r₁ at hstart ⊢
  have hop : (w.registry Γ.activation).Operation r₁ := by
    rw [← hr₁]
    exact .beginDrain (Registry.beginDrain_eq hr fresh)
  have hframes : r₁.frames = outer ++ [{ f with draining := true }] := by rw [← hr₁]
  have harena₁ : r₁.arena.actions = below ++ own := by
    rw [← hr₁]
    exact congrArg Arena.actions inner.arena
  have held₁ : Held L (w.setRegistry Γ.activation r₁) Γ.activation ⟨handle, true, mode = .async⟩
      { f with draining := true } own := by
    refine ⟨held.isAsync.trans (w.isAsync_setRegistry ..).symm, by simp, fun _ => rfl,
      by simp [ScopeFrame.begun], ?_, fun y hy => (held.fits y hy).mono (extends_setRegistry ..),
      held.account, by simp⟩
    intro x hx hxm
    cases mode with
    | async => rfl
    | sync =>
      have hzero := (held.counts fresh).symm.trans (hcount rfl)
      rw [Registry.asyncCount, List.countP_eq_zero] at hzero
      exact absurd (by simpa using hxm) (hzero x hx)
  obtain ⟨hsys, hhosted⟩ := inner.change r.sys hosted (.refl L _ _) (.single hop) hframes rfl rfl
    harena₁ held₁
  have hready : Ready L loc (w.setRegistry Γ.activation r₁) stack (.code .completion Γ)
      [.frame Γ.activation handle true (mode = .async)] :=
    ⟨hsys, r.awake, marks, spans.mono (extends_setRegistry ..), hhosted⟩
  have h := reached_advance (d := ⟨handle, Drain.closed f, mode, 0, .start reason⟩) hready
    (cleanDrain_start completes ..)
  rw [w.registry_setRegistry_self size, proceed_setRegistry] at h
  rw [hhandle] at h ⊢
  exact h

/-- The code in a frame has ended. -/
theorem reached_leaveBody {handle : FrameHandle}
    (r : Ready L loc w stack (.code .completion Γ)
      [.frame Γ.activation handle false Γ.context.isAsync]) {reason : ExitReason}
    (completes : Γ.Completes reason) : Reached L (w.leaveBody stack Γ.activation handle reason) := by
  obtain ⟨marks, spans, hosted⟩ := r.path
  obtain ⟨outer, f, below, own, hr, hhandle, -, -, held, -⟩ := hosted.innermost
  have hasync : (w.registry Γ.activation).hasAsyncActions handle =
      .ok (decide (f.asyncActions > 0)) := by
    rw [hhandle, Registry.hasAsyncActions, Registry.frame_innermost hr]
    rfl
  have hready : Ready L loc w (.scopeEnd :: stack) (.code .completion Γ)
      [.frame Γ.activation handle false Γ.context.isAsync] := r.push .scopeEnd
  unfold World.leaveBody
  rw [hasync]
  by_cases hpos : f.asyncActions > 0
  · have hmember : ∃ x ∈ own, x.mode = .async := by
      rw [held.counts (held.waiting rfl), Registry.asyncCount, gt_iff_lt, List.countP_pos_iff] at hpos
      simpa using hpos
    obtain ⟨x, hx, hmode⟩ := hmember
    rw [decide_eq_true hpos]
    exact .of_good (.drain hready (held.waits x hx hmode) completes) fun _ _ => rfl
  · rw [decide_eq_false hpos] at hasync ⊢
    exact reached_drain hready (fun _ => hasync) completes

/-- An action has come to its end, in an ordinary way. -/
theorem reached_settle {d : Drain} (r : Ready L loc w stack (.code .completion Γ)
      [.frame Γ.activation d.handle true (d.mode = .async)]) (clean : CleanDrain Γ d)
    {failure? : Option Failure}
    (ordinary : ∀ f ∈ failure?, f.Clean) :
    Reached L (w.settleAction stack Γ.activation d failure?) := by
  unfold World.settleAction
  rw [Drain.settle_ordinary d _ fun f hf => (ordinary f hf).severity_eq]
  cases failure? with
  | none => exact reached_advance r clean
  | some f =>
    exact reached_advance (d := { d with aggregator := d.aggregator.record f }) r
      (clean.record (ordinary f rfl))

/-! ### Registering actions -/

/-- One more action waits in a frame, which is written down. -/
theorem Held.push {a : Nat} {handle : FrameHandle} {mayWait : Bool} {f : ScopeFrame}
    {own : List (Action Deferred)} (held : Held L w a ⟨handle, false, mayWait⟩ f own)
    (r : Registry Deferred) {x : Action Deferred} (waits : x.mode = .async → mayWait = true)
    (fits : ActionFits w a x) :
    Held (L.register a f.id x.body) (w.setRegistry a r) a ⟨handle, false, mayWait⟩
      (Registry.counted f x) (own ++ [x]) where
  isAsync := held.isAsync.trans (w.isAsync_setRegistry ..).symm
  waiting := held.waiting
  draining := by simp
  counts hb := by
    have hcounts := held.counts hb
    unfold Registry.asyncCount at hcounts ⊢
    rw [List.countP_append, ← hcounts]
    by_cases hm : x.mode = .async
    · simp [Registry.counted, hm]
    · simp [Registry.counted, hm]
  waits y hy hm := by
    rcases List.mem_append.mp hy with hy | hy
    · exact held.waits y hy hm
    · exact waits (List.mem_singleton.mp hy ▸ hm)
  fits y hy := by
    have fits : ActionFits w a y := by
      rcases List.mem_append.mp hy with hy | hy
      · exact held.fits y hy
      · exact List.mem_singleton.mp hy ▸ fits
    exact fits.mono (extends_setRegistry ..)
  account := by
    show (L.register a f.id x.body).registered a f.id = _ ++ (L.started a f.id).reverse
    rw [show (L.register a f.id x.body).registered a f.id = L.registered a f.id ++ [x.body] from
      if_pos ⟨rfl, rfl⟩, held.account, held.untouched rfl]
    simp
  untouched := held.untouched

/-- A deferred action is registered with the innermost frame. -/
theorem Ready.registered {form : Form} (r : Ready L loc w stack (.code form Γ) []) {scope : Nat}
    (hs : ScopeIn w Γ.activation scope) {n body : Node} (own : Node.Allowed Γ.site n)
    (kind : n.kind = .defer) (children : n.children = [body])
    (inside : Node.Shaped Node.Allowed .statement (.ofAction n.isAsync) body) :
    ∃ id registry, (w.registry Γ.activation).innermost?.map FrameHandle.frame = some (id : Nat) ∧
      w.register n scope = (.ok (), w.setRegistry Γ.activation registry) ∧
      Ready (L.register Γ.activation id ⟨body, scope⟩) loc (w.setRegistry Γ.activation registry)
        stack (.code form Γ) [] := by
  obtain ⟨marks, spans, hosted⟩ := r.path
  have hopen := own.framed kind
  obtain ⟨handle, marks, rfl⟩ := spans.open_mark hopen
  obtain ⟨outer, f, below, actions, inner⟩ := hosted.innermost
  have hr := inner.frames
  have held := inner.held
  have hinnermost : (w.registry Γ.activation).innermost? = some ⟨f.id, outer.length⟩ := by
    simp [Registry.innermost?, hr]
  obtain ⟨x, hx⟩ : ∃ x : Action Deferred, x =
      { body := ⟨body, scope⟩, kind := if body.kind = .block then .block else .statement,
        mode := if n.isAsync then .async else .sync, span := n.span,
        transfers := body.escapingTransfers n.isAsync } := ⟨_, rfl⟩
  have hbody : x.body = ⟨body, scope⟩ := by rw [hx]
  have hmode : (x.mode = .async) = (n.isAsync = true) := by
    rw [hx]
    cases n.isAsync <;> simp
  have hasync : x.mode = .async → Γ.context.isAsync = true ∧ (w.activation Γ.activation).isAsync = true := by
    intro hm
    rw [hmode] at hm
    have hcontext := own.awaited kind hm
    exact ⟨hcontext, spans.async rfl hcontext⟩
  have hregister := Registry.register_eq (a := x) hr (held.waiting rfl)
    (fun hm => held.isAsync.trans (hasync hm).2)
    (by rw [hx]; exact own.stays kind body (by simp [children]))
  obtain ⟨r', hr'⟩ : ∃ r', r' = { w.registry Γ.activation with
    frames := outer ++ [Registry.counted f x], arena := (w.registry Γ.activation).arena.push x } :=
    ⟨_, rfl⟩
  rw [← hr'] at hregister
  have hframes : r'.frames = outer ++ [Registry.counted f x] := by rw [hr']
  have harena' : r'.arena.actions = below ++ (actions ++ [x]) := by
    rw [hr']
    simp [Arena.push, inner.arena]
  have ext := extends_setRegistry w Γ.activation r'
  have fits : ActionFits w Γ.activation x := by
    refine ⟨hbody ▸ hs, ?_, fun hm => (hasync hm).2⟩
    rw [hbody, show decide (x.mode = .async) = n.isAsync by simp [hmode]]
    exact inside
  obtain ⟨hsys, hhosted⟩ := inner.change r.sys hosted (L.agreesBeside_register _ _ ⟨body, scope⟩)
    (.single (.register hregister)) hframes rfl rfl harena'
    (hbody ▸ inner.held.push r' (fun hm => (hasync hm).1) fits)
  refine ⟨f.id, r', by simp [hinnermost], ?_, hsys, r.awake, _, spans.mono ext, hhosted⟩
  unfold World.register
  simp only [children, hs.activation_eq, hinnermost]
  rw [← hx, hregister]
  rfl

end Draining

end ScopeExit.Script
