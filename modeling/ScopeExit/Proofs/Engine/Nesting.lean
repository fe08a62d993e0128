import ScopeExit.Proofs.Engine.Failure
/-!
Trees of frames.

`Code` is what a client of the engine does: it registers actions, enters frames and dispatches them,
fails, and lets a failure that leaves an inner frame propagate.  The body of a frame and the body of an
action are both code, so frames nest in either position.  The run of a code is a run of the engine's own
operations, with a log of all failures that were raised on the way.

The main lemma is an induction on the size of the code.  An action is run long after the code that
registered it, but it is smaller than that code; so the bodies of all actions that a frame has collected
are orderly by the induction hypothesis, and what is known about one drain applies.
-/
namespace ScopeExit

/-- What a client of the engine does. -/
inductive Code where
  | done
  /-- Raises a failure. -/
  | fail (failure : Failure)
  /-- Registers an action in the innermost frame. -/
  | defer (kind : ActionKind) (mode : ActionMode) (span : Span) (body rest : Code)
  /-- Does something in a frame of its own and dispatches the frame, in a mode.  The exit reason is the
  one given unless a failure is raised in the frame.  A failure that propagates is raised again. -/
  | frame (kind : FrameKind) (isAsync : Bool) (span : Span) (mode : ActionMode)
      (reason : ExitReason) (inner rest : Code)

/-- The failure that a dispatch gives its caller. -/
def Dispatched.raised? {β : Type} (o : Dispatched β) : Option Failure :=
  match o.result with
  | .ok reason => reason.error?
  | .error failure => some failure

/-- The exit reason of a frame: that of its body, or the failure that was raised there. -/
def ExitReason.after (reason : ExitReason) : Option Failure → ExitReason
  | none => reason
  | some failure => .throwing (some failure)

namespace Code

/-- The code runs to its end.  The log tells all failures raised so far, in this order. -/
inductive Ends : Code → List Failure → Registry Code → Option Failure → List Failure →
    Registry Code → Prop
  | done {log : List Failure} {r : Registry Code} : Ends .done log r none log r
  | fail {log : List Failure} {r : Registry Code} {failure : Failure} :
      Ends (.fail failure) log r (some failure) (log ++ [failure]) r
  | defer {kind : ActionKind} {mode : ActionMode} {span : Span} {body rest : Code}
      {log log' : List Failure} {r r₁ r' : Registry Code} {h : FrameHandle}
      {failure? : Option Failure} (innermost : r.innermost? = some h)
      (registered : r.register h { body, kind, mode, span } = .ok r₁)
      (next : Ends rest log r₁ failure? log' r') :
      Ends (.defer kind mode span body rest) log r failure? log' r'
  | refused {kind : ActionKind} {mode : ActionMode} {span : Span} {body rest : Code}
      {log : List Failure} {r : Registry Code} {h : FrameHandle} {failure : Failure}
      (innermost : r.innermost? = some h)
      (refused : r.register h { body, kind, mode, span } = .error failure) :
      Ends (.defer kind mode span body rest) log r (some failure) log r
  | frame {kind : FrameKind} {isAsync : Bool} {span : Span} {mode : ActionMode}
      {reason : ExitReason} {inner rest : Code} {log log₁ log₂ log' : List Failure}
      {r r₁ r' : Registry Code} {inside? failure? : Option Failure}
      {ran : List (Action Code × Option Failure)} {o : Dispatched Code}
      (inside : Ends inner log (r.enter kind isAsync span).2 inside? log₁ r₁)
      (dispatched : Registry.Dispatches Ends ran r₁ log₁ (r.enter kind isAsync span).1 mode
        (reason.after inside?) o log₂)
      (calm : o.raised? = none) (next : Ends rest log₂ o.registry failure? log' r') :
      Ends (.frame kind isAsync span mode reason inner rest) log r failure? log' r'
  | raised {kind : FrameKind} {isAsync : Bool} {span : Span} {mode : ActionMode}
      {reason : ExitReason} {inner rest : Code} {log log₁ log₂ : List Failure}
      {r r₁ : Registry Code} {inside? : Option Failure} {failure : Failure}
      {ran : List (Action Code × Option Failure)} {o : Dispatched Code}
      (inside : Ends inner log (r.enter kind isAsync span).2 inside? log₁ r₁)
      (dispatched : Registry.Dispatches Ends ran r₁ log₁ (r.enter kind isAsync span).1 mode
        (reason.after inside?) o log₂)
      (raised : o.raised? = some failure) :
      Ends (.frame kind isAsync span mode reason inner rest) log r (some failure) log₂ o.registry

/-- Up to which mode a frame takes actions: a synchronous one, or one that is dispatched in
synchronous mode, takes synchronous actions only. -/
def allowedIn (isAsync : Bool) (mode : ActionMode) : ActionMode :=
  if isAsync && mode = .async then .async else .sync

/-- The code raises ordinary failures only, and registers actions only where they may live: directly in
the body of a frame, up to the mode that the frame takes. -/
def fits : Code → Option ActionMode → Bool
  | .done, _ => true
  | .fail failure, _ => failure.severity = .ordinary
  | .defer _ mode _ body rest, allowed =>
    (allowed = some .async || (allowed = some .sync && mode = .sync)) && body.fits none &&
      rest.fits allowed
  | .frame _ isAsync _ mode reason inner rest, allowed =>
    reason.error?.isNone && inner.fits (some (allowedIn isAsync mode)) && rest.fits allowed

/-- The number of its parts. -/
def size : Code → Nat
  | .done | .fail _ => 1
  | .defer _ _ _ body rest => body.size + rest.size + 1
  | .frame _ _ _ _ _ inner rest => inner.size + rest.size + 1

theorem size_pos (c : Code) : 0 < c.size := by
  cases c <;> simp [size]

/-! ### What code does to a registry -/

/-- The frame without its counts. -/
def uncounted (f : ScopeFrame) : ScopeFrame := { f with registered := 0, asyncActions := 0 }

/-- The innermost frame takes actions up to a mode. -/
def Accepts (r : Registry Code) : Option ActionMode → Prop
  | none => True
  | some mode => ∃ outer f, r.frames = outer ++ [f] ∧ f.begun = false ∧
      (mode = .async → f.isAsync = true)

/-- An action that code of a size registers. -/
structure Deferred (n : Nat) (allowed : Option ActionMode) (a : Action Code) : Prop where
  fits : a.body.fits none = true
  size : a.body.size < n
  mode : allowed = some .sync → a.mode = .sync

/-- Code adds actions to the innermost frame and changes nothing else that is live. -/
structure Effect (n : Nat) (allowed : Option ActionMode) (r r' : Registry Code) : Prop where
  reaches : r.Reaches r'
  frames : ∀ outer f, r.frames = outer ++ [f] →
    ∃ f', r'.frames = outer ++ [f'] ∧ uncounted f' = uncounted f
  arena : ∃ own, r'.arena.actions = r.arena.actions ++ own ∧ ∀ a ∈ own, Deferred n allowed a
  /-- Where no actions are taken, nothing changes at all. -/
  closed : allowed = none → r'.frames = r.frames ∧ r'.arena = r.arena

theorem Deferred.mono {n m : Nat} {allowed : Option ActionMode} {a : Action Code}
    (h : Deferred n allowed a) (hle : n ≤ m) : Deferred m allowed a :=
  ⟨h.fits, Nat.lt_of_lt_of_le h.size hle, h.mode⟩

/-- Going somewhere with the same frames and actions. -/
theorem Effect.of_same {n : Nat} {allowed : Option ActionMode} {r r' : Registry Code}
    (hreach : r.Reaches r') (hframes : r'.frames = r.frames) (harena : r'.arena = r.arena) :
    Effect n allowed r r' where
  reaches := hreach
  frames _ f e := ⟨f, hframes.trans e, rfl⟩
  arena := ⟨[], by simp [harena], by simp⟩
  closed _ := ⟨hframes, harena⟩

theorem Effect.trans {n m : Nat} {allowed : Option ActionMode} {r r₁ r' : Registry Code}
    (h : Effect n allowed r r₁) (h' : Effect m allowed r₁ r') (hle : m ≤ n) :
    Effect n allowed r r' where
  reaches := h.reaches.trans h'.reaches
  frames outer f e := by
    obtain ⟨f₁, e₁, hf₁⟩ := h.frames outer f e
    obtain ⟨f', e', hf'⟩ := h'.frames outer f₁ e₁
    exact ⟨f', e', hf'.trans hf₁⟩
  arena := by
    obtain ⟨own, hown, hall⟩ := h.arena
    obtain ⟨own', hown', hall'⟩ := h'.arena
    refine ⟨own ++ own', by rw [hown', hown, List.append_assoc], ?_⟩
    intro a ha
    rcases List.mem_append.mp ha with ha | ha
    · exact hall a ha
    · exact (hall' a ha).mono hle
  closed hn := by
    obtain ⟨hframes, harena⟩ := h.closed hn
    obtain ⟨hframes', harena'⟩ := h'.closed hn
    exact ⟨hframes'.trans hframes, harena'.trans harena⟩

theorem begun_eq_of_uncounted {f f' : ScopeFrame} (h : uncounted f' = uncounted f) :
    f'.begun = f.begun := by
  simp only [uncounted, ScopeFrame.mk.injEq] at h
  simp [ScopeFrame.begun, h]

/-- The innermost frame goes on to take actions. -/
theorem Effect.accepts {n : Nat} {allowed allowed' : Option ActionMode} {r r' : Registry Code}
    (h : Effect n allowed r r') (ha : Accepts r allowed') : Accepts r' allowed' := by
  cases allowed' with
  | none => trivial
  | some mode =>
    obtain ⟨outer, f, e, hb, hm⟩ := ha
    obtain ⟨f', e', hf'⟩ := h.frames outer f e
    refine ⟨outer, f', e', (begun_eq_of_uncounted hf').trans hb, fun hmode => ?_⟩
    simp only [uncounted, ScopeFrame.mk.injEq] at hf'
    rw [hf'.2.2.1]
    exact hm hmode

/-- A new frame takes actions up to the mode that fits it. -/
theorem enter_accepts (r : Registry Code) (kind : FrameKind) (isAsync : Bool) (span : Span)
    (mode : ActionMode) :
    Accepts (r.enter kind isAsync span).2 (some (allowedIn isAsync mode)) := by
  refine ⟨r.frames, _, rfl, rfl, fun hm => ?_⟩
  cases isAsync with
  | true => rfl
  | false => simp [allowedIn] at hm

/-! ### What code does to the log -/

/-- The failures that code has raised are the leaves of the failure that leaves it, most recent
first. -/
def Logged (log : List Failure) (failure? : Option Failure) (log' : List Failure) : Prop :=
  ∃ raised, log' = log ++ raised ∧
    failure?.elim [] Failure.leaves = raised.reverse.flatMap Failure.leaves

/-- Code that raises nothing, and then other code. -/
theorem Logged.trans {log log₁ log' : List Failure} {failure? : Option Failure}
    (h : Logged log none log₁) (h' : Logged log₁ failure? log') : Logged log failure? log' := by
  obtain ⟨first, rfl, hfirst⟩ := h
  obtain ⟨raised, rfl, hraised⟩ := h'
  refine ⟨first ++ raised, by rw [List.append_assoc], ?_⟩
  rw [hraised, List.reverse_append, List.flatMap_append, ← hfirst]
  simp

/-- One body after the other. -/
theorem Logged.of_chain {log log' : List Failure} {ends : List (Option Failure)}
    (h : Drain.Chain Logged log ends log') :
    ∃ raised, log' = log ++ raised ∧
      (ends.filterMap id).reverse.flatMap Failure.leaves
        = raised.reverse.flatMap Failure.leaves := by
  induction h with
  | nil => exact ⟨[], by simp, rfl⟩
  | cons h _ ih =>
    obtain ⟨first, rfl, hfirst⟩ := h
    obtain ⟨raised, rfl, hraised⟩ := ih
    refine ⟨first ++ raised, by rw [List.append_assoc], ?_⟩
    rw [List.reverse_append, List.flatMap_append, ← hfirst, ← hraised]
    rename_i failure? _ _
    cases failure? with
    | none => simp
    | some f => simp

/-- The drain of a frame folds what its body and its actions have raised. -/
theorem Logged.drained {log log₁ log₂ : List Failure} {inside? : Option Failure}
    (h : Logged log inside? log₁) {ran : List (Action Code × Option Failure)}
    (hran : ∃ raised, log₂ = log₁ ++ raised ∧
      ((ran.map Prod.snd).filterMap id).reverse.flatMap Failure.leaves
        = raised.reverse.flatMap Failure.leaves)
    {pending reason : ExitReason} (hf : Folded pending (ran.filterMap Prod.snd) reason)
    (hp : pending.error? = inside?) : Logged log reason.error? log₂ := by
  obtain ⟨before, rfl, hbefore⟩ := h
  obtain ⟨raised, rfl, hraised⟩ := hran
  rw [List.filterMap_map, Function.id_comp] at hraised
  refine ⟨before ++ raised, by rw [List.append_assoc], ?_⟩
  rw [List.reverse_append, List.flatMap_append, ← hbefore, ← hraised]
  by_cases hnone : ran.filterMap Prod.snd = []
  · rw [hf.none hnone, hp, hnone]
    rfl
  · obtain ⟨e, rfl, he⟩ := hf.leaves hnone
    rw [hp] at he
    exact he

/-! ### Code that fits comes to a good end -/

/-- A good run of code. -/
structure Good (n : Nat) (allowed : Option ActionMode) (log : List Failure) (r : Registry Code)
    (failure? : Option Failure) (log' : List Failure) (r' : Registry Code) : Prop where
  effect : Effect n allowed r r'
  ordinary : ∀ e ∈ failure?, e.severity = .ordinary
  logged : Logged log failure? log'

/-- Where actions up to some mode are taken, the code comes to an end, and all its runs are good. -/
structure Behaves (c : Code) (allowed : Option ActionMode) : Prop where
  ends : ∀ log {r}, r.Reachable → Accepts r allowed →
    ∃ failure? log' r', Ends c log r failure? log' r'
  good : ∀ {log r failure? log' r'}, r.Reachable → Accepts r allowed →
    Ends c log r failure? log' r' → Good c.size allowed log r failure? log' r'

/-- The body of an action is orderly. -/
theorem Behaves.orderly {c : Code} (h : Behaves c none) : Orderly (Ends c) where
  ends log _ hr := h.ends log hr trivial
  ordinary hr he := (h.good hr trivial he).ordinary
  reaches hr he := (h.good hr trivial he).effect.reaches
  frames hr he := ((h.good hr trivial he).effect.closed rfl).1
  arena hr he := ((h.good hr trivial he).effect.closed rfl).2

/-- A good run after a step that raises nothing. -/
theorem Good.after {n m : Nat} {allowed : Option ActionMode} {log log₁ log' : List Failure}
    {r r₁ r' : Registry Code} {failure? : Option Failure} (heffect : Effect n allowed r r₁)
    (hlogged : Logged log none log₁) (h : Good m allowed log₁ r₁ failure? log' r') (hle : m ≤ n) :
    Good n allowed log r failure? log' r' :=
  ⟨heffect.trans h.effect hle, h.ordinary, hlogged.trans h.logged⟩

theorem behaves_done (allowed : Option ActionMode) : Behaves .done allowed where
  ends _ _ _ _ := ⟨_, _, _, .done⟩
  good _ _ he := by
    cases he
    exact ⟨.of_same .refl rfl rfl, by simp, ⟨[], by simp, rfl⟩⟩

theorem behaves_fail {failure : Failure} (h : failure.severity = .ordinary)
    (allowed : Option ActionMode) : Behaves (.fail failure) allowed where
  ends _ _ _ _ := ⟨_, _, _, .fail⟩
  good _ _ he := by
    cases he
    exact ⟨.of_same .refl rfl rfl, by simpa using h, ⟨[failure], rfl, by simp⟩⟩

/-- A frame whose body and whose actions behave can be dispatched, and it leaves nothing behind but
the failures that were raised in it. -/
theorem Behaves.dispatch {inner : Code} {isAsync : Bool} {mode : ActionMode} {reason : ExitReason}
    (h : Behaves inner (some (allowedIn isAsync mode)))
    (actions : ∀ b : Code, b.size < inner.size → b.fits none = true → Behaves b none)
    (hreason : reason.error? = none) {kind : FrameKind} {span : Span} {log log₁ : List Failure}
    {r r₁ : Registry Code} {inside? : Option Failure} (hreach : r.Reachable)
    (inside : Ends inner log (r.enter kind isAsync span).2 inside? log₁ r₁) :
    (∃ ran o log₂, Registry.Dispatches Ends ran r₁ log₁ (r.enter kind isAsync span).1 mode
        (reason.after inside?) o log₂) ∧
      ∀ ran o log₂, Registry.Dispatches Ends ran r₁ log₁ (r.enter kind isAsync span).1 mode
        (reason.after inside?) o log₂ →
        r.Reaches o.registry ∧ o.registry.frames = r.frames ∧ o.registry.arena = r.arena ∧
          Logged log o.raised? log₂ ∧ ∀ e ∈ o.raised?, e.severity = .ordinary := by
  have hop : Registry.Operation r (r.enter kind isAsync span).2 := .enter r kind isAsync span
  have hreach₀ := hreach.operation hop
  have haccepts := enter_accepts r kind isAsync span mode
  have hgood := h.good hreach₀ haccepts inside
  have heffect := hgood.effect
  have hreach₁ := hreach₀.reaches heffect.reaches
  -- the frame that was entered, with its counts, and its actions
  obtain ⟨f, hframes, hf⟩ := heffect.frames r.frames _ rfl
  obtain ⟨own, hown, hdeferred⟩ := heffect.arena
  have hid : f.id = r.nextId := congrArg ScopeFrame.id hf
  have hmark : f.mark = r.arena.size := congrArg ScopeFrame.mark hf
  have hhandle : (r.enter kind isAsync span).1 = ⟨f.id, r.frames.length⟩ := by
    rw [hid]
    rfl
  have hinner : r₁.innermostFrame (r.enter kind isAsync span).1 .drain = .ok f := by
    rw [hhandle]
    exact Registry.innermostFrame_eq hframes _
  have hactions : r₁.pendingActions (r.enter kind isAsync span).1 = .ok own := by
    rw [hhandle, Registry.pendingActions_innermost hframes, Arena.above, hown, hmark]
    exact congrArg Except.ok List.drop_left
  have hfresh : f.begun = false := begun_eq_of_uncounted hf
  have hsync : mode = .sync → ∀ a ∈ own, a.mode = .sync := fun hm a ha =>
    (hdeferred a ha).mode (by simp [allowedIn, hm])
  have hbodies : ∀ a ∈ own, Behaves a.body none := fun a ha =>
    actions a.body (hdeferred a ha).size (hdeferred a ha).fits
  have horderly : ∀ a ∈ own, Orderly (Ends a.body) := fun a ha => (hbodies a ha).orderly
  refine ⟨Registry.exists_dispatches hreach₁ hinner hfresh hactions hsync horderly _ _, ?_⟩
  intro ran o log₂ hd
  obtain ⟨hunwound, hreaches⟩ := hd.unwound hreach₁ hinner hfresh hactions hsync horderly
  obtain ⟨reason', hresult⟩ := hunwound.succeeds
  have hraised : o.raised? = reason'.error? := by simp [Dispatched.raised?, hresult]
  have hlogged := Logged.of_chain (hd.chain hreach₁ hinner hfresh hactions hsync horderly
    (fun a ha _ _ _ _ _ hr he => ((hbodies a ha).good hr trivial he).logged))
  have hordinary := Drain.Chain.forall (hd.chain hreach₁ hinner hfresh hactions hsync horderly
    (fun a ha _ _ _ _ _ hr he => ((hbodies a ha).good hr trivial he).ordinary))
  have herror : (reason.after inside?).error? = inside? := by
    cases inside? with
    | none => exact hreason
    | some failure => rfl
  refine ⟨((Relation.ReflTransGen.single hop).trans heffect.reaches).trans hreaches, ?_, ?_, ?_, ?_⟩
  · rw [hunwound.frames, hframes, List.dropLast_concat]
  · rw [hunwound.arena, Arena.truncate, hown, hmark]
    exact congrArg Arena.mk List.take_left
  · rw [hraised]
    exact hgood.logged.drained hlogged (hd.folded hresult) herror
  · rw [hraised, hd.reason_eq hresult]
    refine Aggregator.resolve_ordinary ?_ ?_
    · rw [herror]
      exact hgood.ordinary
    · intro e he
      obtain ⟨x, hx, hxe⟩ := List.mem_filterMap.mp he
      exact hordinary x.2 (List.mem_map_of_mem hx) e hxe

/-- Registering an action is what `defer` does first. -/
theorem register_effect {n : Nat} {allowed : Option ActionMode} {r : Registry Code}
    (ha : Accepts r allowed) {mode : ActionMode}
    (hm : allowed = some .async ∨ (allowed = some .sync ∧ mode = .sync)) {kind : ActionKind}
    {span : Span} {body : Code} (hfits : body.fits none = true) (hsize : body.size < n) :
    ∃ h r₁, r.innermost? = some h ∧ r.register h { body, kind, mode, span } = .ok r₁ ∧
      Effect n allowed r r₁ := by
  obtain ⟨m, rfl⟩ : ∃ m, allowed = some m := by
    rcases hm with rfl | ⟨rfl, -⟩
    · exact ⟨_, rfl⟩
    · exact ⟨_, rfl⟩
  obtain ⟨outer, f, hr, hb, hasync⟩ := ha
  have hmode : mode = .async → f.isAsync = true := by
    intro hmode
    rcases hm with hm | ⟨-, hsync⟩
    · exact hasync (by simpa using hm)
    · rw [hsync] at hmode
      contradiction
  have hregister := Registry.register_eq (a := { body, kind, mode, span }) hr hb hmode rfl
  refine ⟨⟨f.id, outer.length⟩, _, ?_, hregister, ?_⟩
  · simp [Registry.innermost?, hr]
  · refine ⟨.single (.register hregister), ?_, ?_, by simp⟩
    · intro outer' f' e
      obtain ⟨rfl, hf⟩ := List.append_inj' (hr.symm.trans e) rfl
      obtain rfl : f = f' := by simpa using hf
      exact ⟨_, rfl, rfl⟩
    · refine ⟨[{ body, kind, mode, span }], rfl, ?_⟩
      intro a ha
      rw [List.mem_singleton] at ha
      subst ha
      refine ⟨hfits, hsize, fun hsync => ?_⟩
      rcases hm with hm | ⟨-, hsync'⟩
      · rw [hm] at hsync
        contradiction
      · exact hsync'

theorem Behaves.defer {rest : Code} {allowed : Option ActionMode} (hr : Behaves rest allowed)
    {mode : ActionMode} (hm : allowed = some .async ∨ (allowed = some .sync ∧ mode = .sync))
    (kind : ActionKind) (span : Span) {body : Code} (hbody : body.fits none = true) :
    Behaves (.defer kind mode span body rest) allowed where
  ends log r hreach ha := by
    obtain ⟨h, r₁, hh, hregister, heffect⟩ :=
      register_effect ha hm hbody (Nat.lt_succ_self body.size)
    obtain ⟨failure?, log', r', he⟩ :=
      hr.ends log (hreach.reaches heffect.reaches) (heffect.accepts ha)
    exact ⟨_, _, _, .defer hh hregister he⟩
  good {log r failure? log' r'} hreach ha he := by
    have hsize : body.size < (Code.defer kind mode span body rest).size := by
      simp only [size]
      omega
    obtain ⟨h, r₁, hh, hregister, heffect⟩ := register_effect ha hm hbody hsize
    cases he with
    | defer innermost registered next =>
      obtain rfl := Option.some.inj (hh.symm.trans innermost)
      obtain rfl := Except.ok.inj (hregister.symm.trans registered)
      have hnext := hr.good (hreach.reaches heffect.reaches) (heffect.accepts ha) next
      refine .after heffect ⟨[], by simp, rfl⟩ hnext ?_
      simp only [size]
      omega
    | refused innermost refused =>
      obtain rfl := Option.some.inj (hh.symm.trans innermost)
      rw [hregister] at refused
      contradiction

theorem Behaves.frame {inner rest : Code} {isAsync : Bool} {mode : ActionMode}
    {allowed : Option ActionMode} (hi : Behaves inner (some (allowedIn isAsync mode)))
    (hr : Behaves rest allowed) {reason : ExitReason} (hreason : reason.error? = none)
    (actions : ∀ b : Code, b.size < inner.size → b.fits none = true → Behaves b none)
    (kind : FrameKind) (span : Span) :
    Behaves (.frame kind isAsync span mode reason inner rest) allowed where
  ends log r hreach ha := by
    obtain ⟨inside?, log₁, r₁, inside⟩ := hi.ends log
      (hreach.operation (.enter r kind isAsync span)) (enter_accepts r kind isAsync span mode)
    obtain ⟨⟨ran, o, log₂, hd⟩, hall⟩ := hi.dispatch actions hreason hreach inside
    obtain ⟨hreaches, hframes, harena, -, -⟩ := hall ran o log₂ hd
    cases hraised : o.raised? with
    | some failure => exact ⟨_, _, _, .raised inside hd hraised⟩
    | none =>
      have heffect : Effect rest.size allowed r o.registry := .of_same hreaches hframes harena
      obtain ⟨failure?, log', r', he⟩ :=
        hr.ends log₂ (hreach.reaches hreaches) (heffect.accepts ha)
      exact ⟨_, _, _, .frame inside hd hraised he⟩
  good {log r failure? log' r'} hreach ha he := by
    cases he with
    | raised inside hd hraised =>
      obtain ⟨hreaches, hframes, harena, hlogged, hordinary⟩ :=
        (hi.dispatch actions hreason hreach inside).2 _ _ _ hd
      rw [hraised] at hlogged hordinary
      exact ⟨.of_same hreaches hframes harena, hordinary, hlogged⟩
    | frame inside hd calm next =>
      obtain ⟨hreaches, hframes, harena, hlogged, -⟩ :=
        (hi.dispatch actions hreason hreach inside).2 _ _ _ hd
      rw [calm] at hlogged
      have heffect : Effect (Code.frame kind isAsync span mode reason inner rest).size allowed r _ :=
        .of_same hreaches hframes harena
      have hnext := hr.good (hreach.reaches hreaches) (heffect.accepts ha) next
      refine .after heffect hlogged hnext ?_
      simp only [size]
      omega

/-- All code that fits behaves.  The induction is on its size: the actions of a frame are smaller than
the code in the frame. -/
theorem behaves_of_fits : ∀ (n : Nat) (c : Code) (allowed : Option ActionMode), c.size ≤ n →
    c.fits allowed = true → Behaves c allowed := by
  intro n
  induction n with
  | zero =>
    intro c _ hsize _
    have := c.size_pos
    omega
  | succ n ih =>
    intro c allowed hsize hfits
    cases c with
    | done => exact behaves_done allowed
    | fail failure => exact behaves_fail (by simpa [fits] using hfits) allowed
    | defer kind mode span body rest =>
      simp only [fits, Bool.and_eq_true, Bool.or_eq_true, decide_eq_true_eq] at hfits
      obtain ⟨⟨hm, hbody⟩, hrest⟩ := hfits
      simp only [size] at hsize
      exact (ih rest allowed (by omega) hrest).defer hm kind span hbody
    | frame kind isAsync span mode reason inner rest =>
      simp only [fits, Bool.and_eq_true, Option.isNone_iff_eq_none] at hfits
      obtain ⟨⟨hreason, hinner⟩, hrest⟩ := hfits
      simp only [size] at hsize
      exact (ih inner _ (by omega) hinner).frame (ih rest allowed (by omega) hrest) hreason
        (fun b hb hf => ih b none (by omega) hf) kind span

/-- **Main result.**  A drain keeps all failures.  Whatever the bodies of its actions do, its exit reason
folds the failures of the actions, and if the bodies are orderly it has one; and the failure that leaves
a tree of frames has as its leaves all failures that were raised in the tree. -/
theorem no_failure_lost :
    (∀ (β σ : Type) (body : BodyRuns β σ) (r : Registry β) (h : FrameHandle) (mode : ActionMode)
        (pending : ExitReason) (d : Drain) (r₁ r₂ : Registry β) (s s' : σ)
        (ran : List (Action β × Option Failure)) (o : DrainOutcome),
        Drain.start r h mode pending = .ok (d, r₁) →
        Drain.Runs body (d.advance r₁) s ran (.ok o) s' r₂ →
        Folded pending (ran.filterMap Prod.snd) o.reason) ∧
      (∀ (β σ : Type) (body : BodyRuns β σ) (r : Registry β) (h : FrameHandle) (f : ScopeFrame)
        (actions : List (Action β)) (mode : ActionMode) (pending : ExitReason) (s : σ),
        r.Reachable → r.innermostFrame h .drain = .ok f → f.begun = false →
        r.pendingActions h = .ok actions → (mode = .sync → ∀ a ∈ actions, a.mode = .sync) →
        (∀ a ∈ actions, Orderly (body a.body)) →
        ∃ d r₁, Drain.start r h mode pending = .ok (d, r₁) ∧
          (∃ ran o s' r₂, Drain.Runs body (d.advance r₁) s ran (.ok o) s' r₂) ∧
          ∀ ran result s' r₂, Drain.Runs body (d.advance r₁) s ran result s' r₂ →
            ran.map Prod.fst = actions.reverse ∧ ∃ o, result = .ok o) ∧
      ∀ (c : Code) (log : List Failure) (r : Registry Code), c.fits none = true → r.Reachable →
        (∃ failure? log' r', Ends c log r failure? log' r') ∧
          ∀ failure? log' r', Ends c log r failure? log' r' →
            ∃ raised, log' = log ++ raised ∧ (failure? = none → raised = []) ∧
              ∀ e ∈ failure?, e.leaves = raised.reverse.flatMap Failure.leaves := by
  refine ⟨?_, ?_, ?_⟩
  · intro β σ body r h mode pending d r₁ r₂ s s' ran o hstart hruns
    rw [hruns.reason rfl rfl, Drain.start_ok hstart]
    exact .of_resolve _ _
  · intro β σ body r h f actions mode pending s hreach hf fresh hactions sync orderly
    obtain ⟨_, _, d, r₁, -, -, -, -, hstart, -, hp⟩ :=
      Registry.start_innermost hreach hf fresh hactions sync pending
    refine ⟨d, r₁, hstart, ?_, ?_⟩
    · obtain ⟨ran, result, s', r₂, hruns⟩ := hp.exists_runs actions orderly s
      obtain ⟨-, ⟨o, rfl⟩, -⟩ := hp.runs actions orderly hruns
      exact ⟨ran, o, s', r₂, hruns⟩
    · intro ran result s' r₂ hruns
      obtain ⟨horder, hresult, -⟩ := hp.runs actions orderly hruns
      exact ⟨horder, hresult⟩
  · intro c log r hfits hreach
    have hc := behaves_of_fits c.size c none (Nat.le_refl _) hfits
    refine ⟨hc.ends log hreach trivial, ?_⟩
    intro failure? log' r' he
    obtain ⟨raised, hlog, hleaves⟩ := (hc.good hreach trivial he).logged
    refine ⟨raised, hlog, ?_, ?_⟩
    · rintro rfl
      by_contra hne
      obtain ⟨f, rest, hraised⟩ := List.exists_cons_of_ne_nil (mt List.reverse_eq_nil_iff.mp hne)
      rw [hraised, List.flatMap_cons] at hleaves
      exact f.leaves_ne_nil (List.append_eq_nil_iff.mp hleaves.symm).1
    · intro e he
      obtain rfl : failure? = some e := he
      exact hleaves

/-- A frame whose body fails and whose two actions fail as well, one of them in a frame of its own. -/
def threeFailures : Code :=
  .frame .block false .unknown .sync .normal
    (.defer .statement .sync .unknown (.fail (.typeError "last"))
      (.defer .block .sync .unknown
        (.frame .block false .unknown .sync .normal (.fail (.typeError "second")) .done)
        (.fail (.typeError "first"))))
    .done

theorem no_failure_lost_threeFailures :
    (∃ d r₁ ran o s' r₂,
      Drain.start Registry.twoActions ⟨0, 0⟩ .sync .iterationEnd = .ok (d, r₁) ∧
      Drain.Runs Registry.quietBody (d.advance r₁) () ran (.ok o) s' r₂ ∧
      Folded .iterationEnd (ran.filterMap Prod.snd) o.reason) ∧
    ∃ e r', Ends threeFailures [] { name := "f" } (some e)
        [.typeError "first", .typeError "second", .typeError "last"] r' ∧
      e.leaves = (Failure.leaves (.typeError "last") ++ Failure.leaves (.typeError "second")) ++
        Failure.leaves (.typeError "first") := by
  obtain ⟨folded, exists_runs, tree⟩ := no_failure_lost
  refine ⟨?_, ?_⟩
  · obtain ⟨d, r₁, hstart, ⟨ran, o, s', r₂, hruns⟩, -⟩ :=
      exists_runs _ _ Registry.quietBody Registry.twoActions ⟨0, 0⟩ _ _ .sync .iterationEnd ()
        Registry.twoActions_reachable rfl rfl rfl (fun _ => by decide)
        (fun a _ => Registry.quietBody_orderly a.body)
    exact ⟨d, r₁, ran, o, s', r₂, hstart, hruns, folded _ _ _ _ _ _ _ _ _ _ _ _ _ _ hstart hruns⟩
  · have run : ∃ e r', Ends threeFailures [] { name := "f" } (some e)
        [.typeError "first", .typeError "second", .typeError "last"] r' :=
      ⟨_, _, .raised (.defer rfl rfl (.defer rfl rfl .fail))
        (.drained rfl (.run (.raised .fail (.drained rfl .ended) rfl) (.run .fail .ended))) rfl⟩
    obtain ⟨e, r', he⟩ := run
    obtain ⟨raised, hraised, -, hleaves⟩ :=
      (tree threeFailures [] { name := "f" } rfl ⟨"f", .refl⟩).2 _ _ _ he
    rw [List.nil_append] at hraised
    subst hraised
    exact ⟨e, r', he, hleaves e rfl⟩

end Code

end ScopeExit
