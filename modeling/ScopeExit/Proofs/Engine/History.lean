import ScopeExit.Proofs.Engine.Registry
/-!
What a registry looks like after any calls.

The owner of a registry makes calls with whatever handles it likes: those that it was given, stale ones
and invented ones.  Each call is answered or refused.  A history is the list of the calls that were
made and of what came back, and everything else is read off it: which frames were entered and left,
what was registered through which handle, and whether an action of a frame was ever taken off.

The arena is divided among the live frames.  `Parts` says where each part begins and what it holds, and
every call changes at most one part: the one at the end.  This is what makes the frames of an activation
independent of each other, as long as actions are only taken off through the innermost frame.
-/
namespace ScopeExit

/-- What never changes about a frame. -/
def ScopeFrame.asEntered (f : ScopeFrame) : ScopeFrame :=
  { f with asyncActions := 0, registered := 0, drained := false, draining := false }

namespace Registry

/-! ### Calls -/

/-- A call of the owner of a registry. -/
inductive Call (β : Type) where
  | enter (kind : FrameKind) (isAsync : Bool) (span : Span)
  | register (h : FrameHandle) (a : Action β)
  | beginDrain (h : FrameHandle)
  | popAction (h : FrameHandle)
  | finishDrain (h : FrameHandle)
  | exit (h : FrameHandle)

/-- What a call that is not refused gives. -/
inductive Reply (β : Type) where
  | done
  | handle (h : FrameHandle)
  | frame (f : ScopeFrame)
  | action (a? : Option (Action β))

variable {β : Type}

/-- Does what a call asks for. -/
def serve (r : Registry β) : Call β → Except Failure (Reply β × Registry β)
  | .enter kind isAsync span =>
    let (h, r') := r.enter kind isAsync span
    .ok (.handle h, r')
  | .register h a => (r.register h a).map fun r' => (.done, r')
  | .beginDrain h => (r.beginDrain h).map fun (f, r') => (.frame f, r')
  | .popAction h => (r.popAction h).map fun (a?, r') => (.action a?, r')
  | .finishDrain h => (r.finishDrain h).map fun r' => (.done, r')
  | .exit h => (r.exit h).map fun r' => (.done, r')

/-- What comes back from a call, and the registry after it. -/
def answer (r : Registry β) (c : Call β) : Except Failure (Reply β) × Registry β :=
  match r.serve c with
  | .ok (reply, r') => (.ok reply, r')
  | .error failure => (.error failure, r)

/-- If the call takes an action off, then through the innermost live frame. -/
def Call.Balanced (r : Registry β) : Call β → Prop
  | .popAction h => ∀ f, r.frame h = .ok f → r.frames.getLast? = some f
  | _ => True

/-- A call and what came back. -/
structure Entry (β : Type) where
  call : Call β
  answer : Except Failure (Reply β)

/-- The calls on a registry from the start, in the order of time. -/
inductive History : List (Entry β) → Registry β → Prop
  | new (name : Text) : History [] { name }
  | call {t : List (Entry β)} {r : Registry β} (past : History t r) (c : Call β)
      (balanced : c.Balanced r) : History (t ++ [⟨c, (r.answer c).1⟩]) (r.answer c).2

/-- A handle was given out for a frame like this one. -/
def Entered (t : List (Entry β)) (h : FrameHandle) (f : ScopeFrame) : Prop :=
  ⟨.enter f.kind f.isAsync f.span, .ok (.handle h)⟩ ∈ t

/-- The frame of a handle was left. -/
def Left (t : List (Entry β)) (h : FrameHandle) : Prop := ∃ reply, ⟨.exit h, .ok reply⟩ ∈ t

/-- An action was asked for from the frame with an identity, and not refused. -/
def Popped (t : List (Entry β)) (id : Nat) : Prop :=
  ∃ h reply, ⟨.popAction h, .ok reply⟩ ∈ t ∧ h.frame = (id : Int)

/-- An action was registered through a handle. -/
def Registered (t : List (Entry β)) (h : FrameHandle) (a : Action β) : Prop :=
  ⟨.register h a, .ok .done⟩ ∈ t

/-- A call is answered or refused. -/
theorem answer_cases (r : Registry β) (c : Call β) :
    (∃ failure, r.answer c = (.error failure, r)) ∨
      ∃ reply r', r.serve c = .ok (reply, r') ∧ r.answer c = (.ok reply, r') := by
  cases hc : r.serve c with
  | error failure => exact .inl ⟨failure, by simp [answer, hc]⟩
  | ok result => exact .inr ⟨result.1, result.2, rfl, by simp [answer, hc]⟩

/-- What an operation gives is passed on. -/
theorem map_ok {α γ : Type} {x : Except Failure α} {f : α → γ} {y : γ} (e : x.map f = .ok y) :
    ∃ a, x = .ok a ∧ f a = y := by
  cases x with
  | error failure => contradiction
  | ok a => exact ⟨a, rfl, Except.ok.inj e⟩

/-- An action is taken off through whatever handle names the frame. -/
theorem popAction_congr {r : Registry β} {h h' : FrameHandle} {f : ScopeFrame}
    (e : r.frame h = .ok f) (e' : r.frame h' = .ok f) : r.popAction h = r.popAction h' := by
  simp only [popAction, e, e']

/-- An answered call for an action names a live frame, and a balanced one the innermost frame. -/
theorem popAction_innermost {r r' : Registry β} {h : FrameHandle} {a? : Option (Action β)}
    (balanced : (Call.popAction h).Balanced r) (e : r.popAction h = .ok (a?, r')) :
    ∃ outer f, r.frames = outer ++ [f] ∧ r.frame h = .ok f ∧
      r.popAction ⟨f.id, outer.length⟩ = .ok (a?, r') := by
  cases hf : r.frame h with
  | error failure => simp [popAction, hf, Bind.bind, Except.bind] at e
  | ok f =>
    obtain ⟨outer, hr⟩ := List.getLast?_eq_some_iff.mp (balanced f hf)
    exact ⟨outer, f, hr, rfl, (popAction_congr (frame_innermost hr) hf).trans e⟩

/-- Every answered call is an operation. -/
theorem serve_operation {r r' : Registry β} {c : Call β} {reply : Reply β} (balanced : c.Balanced r)
    (e : r.serve c = .ok (reply, r')) : Operation r r' := by
  cases c with
  | enter kind isAsync span =>
    obtain ⟨-, rfl⟩ := Prod.mk.inj (Except.ok.inj e)
    exact .enter r kind isAsync span
  | register h a =>
    obtain ⟨_, hc, he⟩ := map_ok e
    cases he
    exact .register hc
  | beginDrain h =>
    obtain ⟨_, hc, he⟩ := map_ok e
    cases he
    exact .beginDrain hc
  | popAction h =>
    obtain ⟨_, hc, he⟩ := map_ok e
    cases he
    obtain ⟨outer, f, hr, -, hpop⟩ := popAction_innermost balanced hc
    exact .popAction (innermostFrame_eq hr .drain) hpop
  | finishDrain h =>
    obtain ⟨_, hc, he⟩ := map_ok e
    cases he
    exact .finishDrain hc
  | exit h =>
    obtain ⟨_, hc, he⟩ := map_ok e
    cases he
    exact .exit hc

theorem History.reachable {t : List (Entry β)} {r : Registry β} (past : History t r) :
    r.Reachable := by
  induction past with
  | new name => exact ⟨name, .refl⟩
  | @call t r _ c balanced ih =>
    rcases r.answer_cases c with ⟨failure, h⟩ | ⟨reply, r', hs, h⟩
    · rw [h]
      exact ih
    · rw [h]
      exact ih.operation (serve_operation balanced hs)

/-! ### What an answered call changes -/

/-- The frame that a call is about. -/
def Call.frame? : Call β → Option Int
  | .enter .. => none
  | .register h _ | .beginDrain h | .popAction h | .finishDrain h | .exit h => some h.frame

/-- What an answered call makes of a frame at a depth and its part. -/
inductive Evolves (c : Call β) (reply : Reply β) (depth : Nat) :
    ScopeFrame → List (Action β) → ScopeFrame → List (Action β) → Prop
  | untouched {f : ScopeFrame} {own : List (Action β)} (other : c.frame? ≠ some (f.id : Int)) :
      Evolves c reply depth f own f own
  | registered {f : ScopeFrame} {own : List (Action β)} {a : Action β}
      (hc : c = .register ⟨f.id, depth⟩ a) (hreply : reply = .done) :
      Evolves c reply depth f own (counted f a) (own ++ [a])
  | begun {f : ScopeFrame} {own : List (Action β)} {h : FrameHandle} (hc : c = .beginDrain h)
      (hf : h.frame = f.id) : Evolves c reply depth f own { f with draining := true } own
  | popped {f : ScopeFrame} {own : List (Action β)} {h : FrameHandle} {a? : Option (Action β)}
      (hc : c = .popAction h) (hf : h.frame = f.id) (hreply : reply = .action a?) :
      Evolves c reply depth f (own ++ a?.toList) f own
  | finished {f : ScopeFrame} {own : List (Action β)} {h : FrameHandle} (hc : c = .finishDrain h)
      (hf : h.frame = f.id) :
      Evolves c reply depth f own { f with draining := false, drained := true } own

/-- A frame that a call is not about stays as it is. -/
theorem Evolves.eq_of_ne {c : Call β} {reply : Reply β} {depth : Nat} {f g : ScopeFrame}
    {own own' : List (Action β)} (h : Evolves c reply depth f own g own')
    (other : c.frame? ≠ some (g.id : Int)) : g = f ∧ own' = own := by
  cases h with
  | untouched => exact ⟨rfl, rfl⟩
  | registered hc => simp [hc, Call.frame?, counted] at other
  | begun hc hf | finished hc hf | popped hc hf => simp [hc, Call.frame?, hf] at other

/-- The frames around a frame and those in it have other identities. -/
theorem Sound.outer_ne {r : Registry β} (hs : r.Sound) {outer inner : List ScopeFrame}
    {f k : ScopeFrame} (e : r.frames = outer ++ f :: inner) (hk : k ∈ inner.reverse ++ outer.reverse) :
    (f.id : Int) ≠ k.id := by
  have hids := hs.ids
  rw [e, List.pairwise_append, List.pairwise_cons] at hids
  obtain ⟨-, ⟨hinner, -⟩, houter⟩ := hids
  rcases List.mem_append.mp hk with hk | hk
  · have := hinner k (List.mem_reverse.mp hk)
    omega
  · have := houter k (List.mem_reverse.mp hk) f List.mem_cons_self
    omega

/-- **What an answered call does to the parts.**  It adds a frame without actions, or takes one away
with its part, or changes the frame that it is about along with its part. -/
theorem Sound.served {r r' : Registry β} (hs : r.Sound) {c : Call β} {reply : Reply β}
    (balanced : c.Balanced r) (e : r.serve c = .ok (reply, r'))
    {P Q : List ScopeFrame → ScopeFrame → List (Action β) → Prop}
    (parts : Parts P r.frames.reverse r.arena.actions)
    (entered : ∀ f, c = .enter f.kind f.isAsync f.span → reply = .handle ⟨f.id, r.frames.length⟩ →
      f = { f.asEntered with id := r.nextId, parent := r.frames.getLast?.map ScopeFrame.id } →
      Q r.frames.reverse f [])
    (evolves : ∀ fs fs', fs.map ScopeFrame.id = fs'.map ScopeFrame.id → ∀ f own g own',
      P fs f own → Evolves c reply fs.length f own g own' → Q fs' g own') :
    Parts Q r'.frames.reverse r'.arena.actions := by
  have untouched : ∀ {outer inner : List ScopeFrame} {f : ScopeFrame},
      r.frames = outer ++ f :: inner → c.frame? = some (f.id : Int) →
      ∀ fs fs', fs.map ScopeFrame.id = fs'.map ScopeFrame.id →
        ∀ k ∈ inner.reverse ++ outer.reverse, ∀ own, P fs k own → Q fs' k own := by
    intro outer inner f hr hf fs fs' hids k hk own holds
    refine evolves fs fs' hids k own k own holds (.untouched ?_)
    rw [hf]
    exact fun h => hs.outer_ne hr hk (Option.some.inj h)
  -- the innermost frame evolves into another one, with another part
  have innermost : ∀ {outer : List ScopeFrame} {f g : ScopeFrame} {below own own' : List (Action β)},
      r.frames = outer ++ [f] → c.frame? = some (f.id : Int) → g.mark = f.mark →
      f.mark = below.length → Parts P outer.reverse below → P outer.reverse f own →
      Evolves c reply outer.length f own g own' → Parts Q (outer ++ [g]).reverse (below ++ own') := by
    intro outer f g below own own' hr hf hg hmark hout holds hev
    rw [List.reverse_append, List.reverse_singleton, List.singleton_append]
    refine .cons (hout.imp fun fs k hk => ?_) (hg.trans hmark) (evolves _ _ rfl _ _ _ _ holds ?_)
    · exact untouched hr hf fs fs rfl k (by simpa using hk)
    · rwa [List.length_reverse]
  cases c with
  | enter kind isAsync span =>
    obtain ⟨rfl, rfl⟩ := Prod.mk.inj (Except.ok.inj e)
    show Parts Q (r.frames ++ [_]).reverse r.arena.actions
    rw [List.reverse_append, List.reverse_singleton, List.singleton_append,
      ← List.append_nil r.arena.actions]
    refine .cons (parts.imp fun fs k _ own holds => ?_) rfl (entered _ rfl rfl rfl)
    exact evolves fs fs rfl k own k own holds (.untouched (by simp [Call.frame?]))
  | register h a =>
    obtain ⟨_, hc, he⟩ := map_ok e
    obtain ⟨outer, f, hr, rfl, -, -, -, rfl⟩ := register_ok hc
    obtain ⟨rfl, rfl⟩ := Prod.mk.inj he
    obtain ⟨below, own, hacts, hout, hmark, holds⟩ := parts.innermost hr
    have := innermost (g := counted f a) hr rfl rfl hmark hout holds (.registered rfl rfl)
    simpa [Arena.push, hacts] using this
  | beginDrain h =>
    obtain ⟨⟨g, _⟩, hc, he⟩ := map_ok e
    obtain ⟨rfl, rfl⟩ := Prod.mk.inj he
    obtain ⟨outer, f, hr, rfl, -, rfl, rfl⟩ := beginDrain_ok hc
    obtain ⟨below, own, hacts, hout, hmark, holds⟩ := parts.innermost hr
    rw [hacts]
    exact innermost hr rfl rfl hmark hout holds (.begun rfl rfl)
  | popAction h =>
    obtain ⟨⟨a?, _⟩, hc, he⟩ := map_ok e
    obtain ⟨rfl, rfl⟩ := Prod.mk.inj he
    obtain ⟨outer, f, hr, hf, -⟩ := popAction_innermost balanced hc
    obtain ⟨below, own, hacts, hout, hmark, holds⟩ := parts.innermost hr
    have hid : h.frame = f.id := (frame_ok hf).2.symm
    obtain ⟨-, ⟨rfl, -, rfl⟩ | ⟨a, arena, rfl, hpop, rfl⟩⟩ := popAction_ok hf hc
    · have stays : Evolves (.popAction h) (.action none) outer.length f own f own := by
        have := @Evolves.popped _ (.popAction h) (.action none) outer.length f own h none rfl hid rfl
        rwa [Option.toList_none, List.append_nil] at this
      have := innermost hr (congrArg some hid) rfl hmark hout holds stays
      rwa [← hr, ← hacts] at this
    · obtain ⟨own', rfl, rfl⟩ := popped_own hacts hmark hpop
      rw [hr]
      exact innermost hr (congrArg some hid) rfl hmark hout holds (.popped rfl hid rfl)
  | finishDrain h =>
    obtain ⟨_, hc, he⟩ := map_ok e
    cases he
    obtain ⟨outer, f, inner, hr, hid, rfl⟩ := finishDrain_ok hc
    rw [hr, List.reverse_append, List.reverse_cons, List.append_assoc, List.singleton_append] at parts
    show Parts Q (outer ++ _ :: inner).reverse _
    rw [List.reverse_append, List.reverse_cons, List.append_assoc, List.singleton_append]
    refine Parts.replace (f := f) (g := { f with draining := false, drained := true }) rfl rfl ?_
      (untouched hr (congrArg some hid)) parts
    exact fun own holds => evolves _ _ rfl _ _ _ _ holds (.finished rfl hid)
  | exit h =>
    obtain ⟨_, hc, he⟩ := map_ok e
    cases he
    obtain ⟨outer, f, hr, rfl, rfl⟩ := exit_ok hc
    obtain ⟨below, own, hacts, hout, hmark, -⟩ := parts.innermost hr
    show Parts Q outer.reverse (r.arena.actions.take f.mark)
    rw [hacts, hmark, List.take_left]
    exact hout.imp fun fs k hk => untouched hr rfl fs fs rfl k (by simpa using hk)

/-- What an answered call does to the list of live frames. -/
theorem served_frames {r r' : Registry β} {c : Call β} {reply : Reply β} (balanced : c.Balanced r)
    (e : r.serve c = .ok (reply, r')) :
    (∃ f, r'.frames = r.frames ++ [f] ∧ c = .enter f.kind f.isAsync f.span ∧
        reply = .handle ⟨f.id, r.frames.length⟩) ∨
      (∃ f, r.frames = r'.frames ++ [f] ∧ c = .exit ⟨f.id, r'.frames.length⟩) ∨
      (r'.frames.map ScopeFrame.asEntered = r.frames.map ScopeFrame.asEntered ∧
        ∀ kind isAsync span, c ≠ .enter kind isAsync span) := by
  cases c with
  | enter kind isAsync span =>
    obtain ⟨rfl, rfl⟩ := Prod.mk.inj (Except.ok.inj e)
    exact .inl ⟨_, rfl, rfl, rfl⟩
  | register h a =>
    obtain ⟨_, hc, he⟩ := map_ok e
    obtain ⟨outer, f, hr, -, -, -, -, rfl⟩ := register_ok hc
    obtain ⟨-, rfl⟩ := Prod.mk.inj he
    exact .inr (.inr ⟨by simp [hr, counted, ScopeFrame.asEntered], by simp⟩)
  | beginDrain h =>
    obtain ⟨⟨g, _⟩, hc, he⟩ := map_ok e
    obtain ⟨-, rfl⟩ := Prod.mk.inj he
    obtain ⟨outer, f, hr, -, -, rfl, rfl⟩ := beginDrain_ok hc
    exact .inr (.inr ⟨by simp [hr, ScopeFrame.asEntered], by simp⟩)
  | popAction h =>
    obtain ⟨⟨a?, _⟩, hc, he⟩ := map_ok e
    obtain ⟨-, rfl⟩ := Prod.mk.inj he
    obtain ⟨_, f, -, hf, -⟩ := popAction_innermost balanced hc
    obtain ⟨-, ⟨-, -, rfl⟩ | ⟨_, _, -, -, rfl⟩⟩ := popAction_ok hf hc
    · exact .inr (.inr ⟨rfl, by simp⟩)
    · exact .inr (.inr ⟨rfl, by simp⟩)
  | finishDrain h =>
    obtain ⟨_, hc, he⟩ := map_ok e
    obtain ⟨-, rfl⟩ := Prod.mk.inj he
    obtain ⟨outer, f, inner, hr, -, rfl⟩ := finishDrain_ok hc
    exact .inr (.inr ⟨by simp [hr, ScopeFrame.asEntered], by simp⟩)
  | exit h =>
    obtain ⟨_, hc, he⟩ := map_ok e
    obtain ⟨-, rfl⟩ := Prod.mk.inj he
    obtain ⟨outer, f, hr, rfl, rfl⟩ := exit_ok hc
    exact .inr (.inl ⟨f, hr, rfl⟩)

/-! ### What a history tells -/

/-- A live frame with its part agrees with the history. -/
structure Account (t : List (Entry β)) (outer : List ScopeFrame) (f : ScopeFrame)
    (own : List (Action β)) : Prop where
  parent : f.parent = outer.head?.map ScopeFrame.id
  entered : Entered t ⟨f.id, outer.length⟩ f
  /-- All that waits in the part was registered through the handle of the frame. -/
  registered : ∀ a ∈ own, Registered t ⟨f.id, outer.length⟩ a
  bound : own.length ≤ f.registered
  full : ¬ Popped t f.id → own.length = f.registered

/-- One more call that takes nothing off leaves the account of a frame as it is. -/
theorem Account.extend {t : List (Entry β)} {outer outer' : List ScopeFrame} {f : ScopeFrame}
    {own : List (Action β)} (h : Account t outer f own)
    (hids : outer.map ScopeFrame.id = outer'.map ScopeFrame.id) (e : Entry β) :
    Account (t ++ [e]) outer' f own := by
  have hlength : outer.length = outer'.length := by
    rw [← List.length_map (f := ScopeFrame.id), hids, List.length_map]
  refine ⟨?_, ?_, ?_, h.bound, ?_⟩
  · rw [h.parent, ← List.head?_map, hids, List.head?_map]
  · rw [← hlength]
    exact List.mem_append_left _ h.entered
  · intro a ha
    rw [← hlength]
    exact List.mem_append_left _ (h.registered a ha)
  · intro hp
    refine h.full ?_
    rintro ⟨handle, reply, hmem, hid⟩
    exact hp ⟨handle, reply, List.mem_append_left _ hmem, hid⟩

/-- The account after an answered call. -/
theorem Account.evolves {t : List (Entry β)} {outer outer' : List ScopeFrame} {f g : ScopeFrame}
    {own own' : List (Action β)} (h : Account t outer f own)
    (hids : outer.map ScopeFrame.id = outer'.map ScopeFrame.id) {c : Call β} {reply : Reply β}
    (he : Evolves c reply outer.length f own g own') :
    Account (t ++ [⟨c, .ok reply⟩]) outer' g own' := by
  have next := h.extend hids ⟨c, .ok reply⟩
  have hlength : outer.length = outer'.length := by
    rw [← List.length_map (f := ScopeFrame.id), hids, List.length_map]
  cases he with
  | untouched other => exact next
  | begun | finished => exact ⟨next.parent, next.entered, next.registered, next.bound, next.full⟩
  | registered hc hreply =>
    refine ⟨next.parent, next.entered, ?_, ?_, ?_⟩
    · intro b hb
      rcases List.mem_append.mp hb with hb | hb
      · exact next.registered b hb
      · obtain rfl := List.mem_singleton.mp hb
        rw [hc, hreply, hlength]
        exact List.mem_append_right _ List.mem_cons_self
    · simpa [counted] using next.bound
    · intro hp
      simpa [counted] using next.full hp
  | popped hc hf hreply =>
    refine ⟨next.parent, next.entered, fun a ha => next.registered a (List.mem_append_left _ ha), ?_,
      ?_⟩
    · have := next.bound
      rw [List.length_append] at this
      omega
    · intro hp
      exact absurd ⟨_, reply, by simp [hc], hf⟩ hp

/-- The parts of the arena agree with the history. -/
theorem History.parts {t : List (Entry β)} {r : Registry β} (past : History t r) :
    Parts (Account t) r.frames.reverse r.arena.actions := by
  induction past with
  | new name => exact .nil
  | @call t r past c balanced ih =>
    rcases r.answer_cases c with ⟨failure, h⟩ | ⟨reply, r', hs, h⟩
    · rw [h]
      exact ih.imp fun _ _ _ _ account => account.extend rfl _
    · rw [h]
      refine past.reachable.sound.served balanced hs ih ?_ ?_
      · intro f hc hreply hf
        have hparent : f.parent = r.frames.reverse.head?.map ScopeFrame.id := by
          rw [hf, List.head?_reverse]
        have hcount : f.registered = 0 := by
          rw [hf]
          rfl
        refine ⟨hparent, ?_, by simp, by simp, by simp [hcount]⟩
        rw [hc, hreply, List.length_reverse]
        exact List.mem_append_right _ List.mem_cons_self
      · intro fs fs' hids f own g own' account he
        exact account.evolves hids he

/-- A handle that was given out names its frame until the frame is left. -/
theorem History.entered {t : List (Entry β)} {r : Registry β} (past : History t r)
    {h : FrameHandle} {f : ScopeFrame} (e : Entered t h f) :
    Left t h ∨ ∃ (i : Nat) (g : ScopeFrame), r.frames[i]? = some g ∧ h = ⟨g.id, i⟩ ∧
      g.kind = f.kind ∧ g.isAsync = f.isAsync ∧ g.span = f.span := by
  induction past with
  | new name => contradiction
  | @call t r past c balanced ih =>
    have left : Left t h → Left (t ++ [⟨c, (r.answer c).1⟩]) h := fun ⟨reply, hmem⟩ =>
      ⟨reply, List.mem_append_left _ hmem⟩
    rcases List.mem_append.mp e with e | e
    · rcases ih e with hleft | ⟨i, g, hg, rfl, hkind⟩
      · exact .inl (left hleft)
      · rcases r.answer_cases c with ⟨failure, ha⟩ | ⟨reply, r', hs, ha⟩
        · rw [ha]
          exact .inr ⟨i, g, hg, rfl, hkind⟩
        · rw [ha]
          rcases served_frames balanced hs with ⟨k, hr, -⟩ | ⟨k, hr, rfl⟩ | ⟨hsame, -⟩
          · refine .inr ⟨i, g, ?_, rfl, hkind⟩
            rw [hr, List.getElem?_append_left (List.getElem?_eq_some_iff.mp hg).1]
            exact hg
          · by_cases hi : i < r'.frames.length
            · refine .inr ⟨i, g, ?_, rfl, hkind⟩
              rwa [hr, List.getElem?_append_left hi] at hg
            · -- the frame is the one that is left
              have hlt := (List.getElem?_eq_some_iff.mp hg).1
              have hi : i = r'.frames.length := by
                rw [hr, List.length_append, List.length_singleton] at hlt
                omega
              subst hi
              have hk : k = g := by simpa [hr] using hg
              exact .inl ⟨reply, by simp [hk]⟩
          · have hmap : r'.frames[i]?.map ScopeFrame.asEntered = some g.asEntered := by
              rw [← List.getElem?_map, hsame, List.getElem?_map, hg, Option.map_some]
            obtain ⟨g', hg', hentered⟩ := Option.map_eq_some_iff.mp hmap
            simp only [ScopeFrame.asEntered, ScopeFrame.mk.injEq] at hentered
            obtain ⟨hid, hk, ha, -, -, hs, -⟩ := hentered
            refine .inr ⟨i, g', hg', by rw [hid], ?_⟩
            rw [hk, ha, hs]
            exact hkind
    · rcases r.answer_cases c with ⟨failure, ha⟩ | ⟨reply, r', hs, ha⟩
      · simp [ha] at e
      · rw [ha] at e ⊢
        simp only [List.mem_singleton, Entry.mk.injEq, Except.ok.injEq] at e
        obtain ⟨hcall, hreply⟩ := e
        rcases served_frames balanced hs with ⟨k, hr, hk, hgiven⟩ | ⟨k, -, hk⟩ | ⟨-, hk⟩
        · rw [← hcall] at hk
          rw [← hreply] at hgiven
          obtain ⟨hkind, hasync, hspan⟩ := Call.enter.inj hk
          refine .inr ⟨r.frames.length, k, by simp [hr], Reply.handle.inj hgiven, hkind.symm,
            hasync.symm, hspan.symm⟩
        · simp [← hcall] at hk
        · exact absurd hcall.symm (hk _ _ _)

/-- The identity of a frame that was left is never used again. -/
theorem History.left {t : List (Entry β)} {r : Registry β} (past : History t r) {h : FrameHandle}
    (e : Left t h) : ∃ id depth : Nat, h = ⟨id, depth⟩ ∧ id < r.nextId ∧
      id ∉ r.frames.map ScopeFrame.id := by
  obtain ⟨reply₀, e⟩ := e
  induction past with
  | new name => contradiction
  | @call t r past c balanced ih =>
    rcases r.answer_cases c with ⟨failure, ha⟩ | ⟨reply, r', hs, ha⟩
    · rw [ha] at e ⊢
      simp only [List.mem_append, List.mem_singleton, Entry.mk.injEq, reduceCtorEq, and_false,
        or_false] at e
      exact ih e
    · rw [ha] at e ⊢
      rcases List.mem_append.mp e with e | e
      · obtain ⟨id, depth, rfl, hid, hgone⟩ := ih e
        exact ⟨id, depth, rfl, (serve_operation balanced hs).identities hid hgone⟩
      · simp only [List.mem_singleton, Entry.mk.injEq] at e
        obtain ⟨rfl, -⟩ := e
        obtain ⟨_, hc, he⟩ := map_ok hs
        obtain ⟨-, rfl⟩ := Prod.mk.inj he
        obtain ⟨outer, f, hr, rfl, rfl⟩ := exit_ok hc
        refine ⟨f.id, outer.length, rfl, past.reachable.sound.issued f (by simp [hr]), ?_⟩
        intro hmem
        obtain ⟨k, hk, hid⟩ := List.mem_map.mp hmem
        have := past.reachable.sound.outer_ne hr (k := k) (by simpa using hk)
        exact this (by rw [hid])

/-! ### The marks -/

section Marks

variable {P : List ScopeFrame → ScopeFrame → List (Action β) → Prop}

/-- The marks never rise on the way outwards. -/
theorem Parts.marks {fs : List ScopeFrame} {actions : List (Action β)} (h : Parts P fs actions) :
    (fs.Pairwise fun f g => g.mark ≤ f.mark) ∧ ∀ f ∈ fs, f.mark ≤ actions.length := by
  induction h with
  | nil => simp
  | @cons outer f below own _ mark _ ih =>
    obtain ⟨hpairwise, hle⟩ := ih
    constructor
    · rw [List.pairwise_cons]
      refine ⟨fun g hg => ?_, hpairwise⟩
      rw [mark]
      exact hle g hg
    · intro g hg
      rw [List.length_append]
      rcases List.mem_cons.mp hg with rfl | hg
      · omega
      · have := hle g hg
        omega

/-- The outermost frame has the start of the arena. -/
theorem Parts.outermost {fs : List ScopeFrame} {actions : List (Action β)} (h : Parts P fs actions) :
    ∀ f ∈ fs.getLast?, f.mark = 0 := by
  induction h with
  | nil => simp
  | @cons outer f below own rest mark _ ih =>
    intro g hg
    cases rest with
    | nil =>
      obtain rfl := Option.some.inj hg
      exact mark
    | cons =>
      rw [List.getLast?_cons_cons] at hg
      exact ih g hg

end Marks

/-- **A registry represents its history.** -/
structure Represents (t : List (Entry β)) (r : Registry β) : Prop where
  /-- A live frame is where its handle says. -/
  placed : ∀ (i : Nat) f, r.frames[i]? = some f → Entered t ⟨f.id, i⟩ f ∧ r.frame ⟨f.id, i⟩ = .ok f
  ids : r.frames.Pairwise fun f g => f.id < g.id
  issued : ∀ f ∈ r.frames, f.id < r.nextId
  parents : ∀ outer f inner, r.frames = outer ++ f :: inner →
    f.parent = outer.getLast?.map ScopeFrame.id
  outermost : ∀ f ∈ r.frames.head?, f.mark = 0
  marks : r.frames.Pairwise fun f g => f.mark ≤ g.mark
  within : ∀ f ∈ r.frames, f.mark ≤ r.arena.size
  /-- The actions of the live frames, from the outermost one on, make up the arena. -/
  divided : ∃ parts : List (List (Action β)),
    r.frames.mapIdx (fun i f => r.pendingActions ⟨f.id, i⟩) = parts.map Except.ok ∧
      parts.flatten = r.arena.actions
  counts : ∀ (i : Nat) f, r.frames[i]? = some f → ∃ own, r.pendingActions ⟨f.id, i⟩ = .ok own ∧
    r.pending ⟨f.id, i⟩ = .ok own.length ∧ own.length ≤ f.registered ∧
    (¬ Popped t f.id → own.length = f.registered)
  /-- A handle names its frame as long as that is live. -/
  live : ∀ h f, Entered t h f → ¬ Left t h → ∃ g, r.frame h = .ok g ∧ g.id = h.frame ∧
    g.kind = f.kind ∧ g.isAsync = f.isAsync ∧ g.span = f.span
  /-- It is refused for good when the frame was left. -/
  stale : ∀ h, Left t h → r.frame h = .error (.engine (.staleHandle h.frame))

/-- **Main result.**  Whatever calls were made, answered or refused, the registry represents them; and
a call that is refused leaves the registry as it was. -/
theorem History.represents {t : List (Entry β)} {r : Registry β} (past : History t r) :
    Represents t r ∧
      ∀ c failure, (r.answer c).1 = .error failure → (r.answer c).2 = r := by
  have hs := past.reachable.sound
  have hparts := past.parts
  refine ⟨⟨?_, hs.ids, hs.issued, ?_, ?_, ?_, ?_, ?_, ?_, ?_, ?_⟩, ?_⟩
  · intro i f hf
    obtain ⟨outer, own, -, hi, account, -⟩ := hparts.of_live hf
    have hentered := account.entered
    rw [List.length_reverse, hi] at hentered
    exact ⟨hentered, frame_eq hf⟩
  · intro outer f inner hr
    obtain ⟨_, own, hout, -, account, -⟩ := hparts.of_live (i := outer.length) (f := f) (by simp [hr])
    rw [hr, List.take_left] at hout
    rw [account.parent, ← hout, List.head?_reverse]
  · intro f hf
    refine hparts.outermost f ?_
    rwa [List.getLast?_reverse]
  · have := hparts.marks.1
    rwa [List.pairwise_reverse] at this
  · intro f hf
    exact hparts.marks.2 f (List.mem_reverse.mpr hf)
  · have key : ∀ {fs : List ScopeFrame} {actions : List (Action β)},
        Parts (fun outer f own => r.pendingActions ⟨f.id, outer.length⟩ = .ok own) fs actions →
        ∃ parts : List (List (Action β)),
          fs.reverse.mapIdx (fun i f => r.pendingActions ⟨f.id, i⟩) = parts.map Except.ok ∧
            parts.flatten = actions := by
      intro fs actions h
      induction h with
      | nil => exact ⟨[], rfl, rfl⟩
      | @cons outer f below own _ _ holds ih =>
        obtain ⟨parts, hparts, hflatten⟩ := ih
        refine ⟨parts ++ [own], ?_, by simp [hflatten]⟩
        rw [List.reverse_cons, List.mapIdx_concat, hparts, List.length_reverse, holds,
          List.map_append, List.map_singleton]
    have := key (hparts.pendingActions.imp fun _ _ _ _ h => h.2.2)
    rwa [List.reverse_reverse] at this
  · intro i f hf
    obtain ⟨_, own, -, -, account, hn, hown⟩ := hparts.of_live hf
    exact ⟨own, hown, hn, account.bound, account.full⟩
  · intro h f hentered hleft
    rcases past.entered hentered with hl | ⟨i, g, hg, rfl, hkind⟩
    · exact absurd hl hleft
    · exact ⟨g, frame_eq hg, rfl, hkind⟩
  · intro h hleft
    obtain ⟨id, depth, rfl, -, hgone⟩ := past.left hleft
    rcases frame_natCast r (id : Int) depth with hstale | ⟨f, hf, hid, -⟩
    · exact hstale
    · refine absurd ?_ hgone
      rw [← Int.ofNat.inj hid]
      exact List.mem_map_of_mem (List.mem_of_getElem? hf)
  · intro c failure hrefused
    rcases r.answer_cases c with ⟨_, h⟩ | ⟨_, _, -, h⟩
    · rw [h]
    · rw [h] at hrefused
      contradiction

/-- A handle of the innermost frame is good for taking an action off. -/
theorem balanced_popAction {r : Registry β} {h : FrameHandle} {f : ScopeFrame}
    (e : r.frame h = .ok f) (innermost : r.frames.getLast? = some f) :
    (Call.popAction h).Balanced r := by
  intro g hg
  rw [e] at hg
  rw [innermost, Except.ok.inj hg]

/-- A frame that was entered, drained and left, and another one after it. -/
theorem represents_drained : ∃ (t : List (Entry Nat)) (r : Registry Nat), Popped t 0 ∧
    Left t ⟨0, 0⟩ ∧ r.frames.map ScopeFrame.id = [1] ∧ r.pendingActions ⟨1, 0⟩ = .ok [{ body := 8 }] ∧
    Represents t r ∧ (r.answer (.exit ⟨0, 0⟩)).2 = r := by
  have entered := (History.new (β := Nat) "f").call (.enter .block false .unknown) trivial
  have filled := entered.call (.register ⟨0, 0⟩ { body := 7 }) trivial
  have begun := filled.call (.beginDrain ⟨0, 0⟩) trivial
  -- a negative depth counts from the innermost frame
  have popped := begun.call (.popAction ⟨0, -1⟩) (balanced_popAction rfl rfl)
  have drained := (popped.call (.finishDrain ⟨0, 0⟩) trivial).call (.exit ⟨0, 0⟩) trivial
  have again := (drained.call (.enter .block false .unknown) trivial).call
    (.register ⟨1, 0⟩ { body := 8 }) trivial
  refine ⟨_, _, ⟨⟨0, -1⟩, .action (some { body := 7 }), ?_, rfl⟩, ⟨.done, ?_⟩, rfl, rfl,
    again.represents.1, ?_⟩
  · exact List.mem_of_getElem? (i := 3) rfl
  · exact List.mem_of_getElem? (i := 5) rfl
  · exact again.represents.2 _ (.engine (.staleHandle 0)) rfl

/-! ### Isolation -/

/-- A frame that an answered call is not about stays where it is, unless it was never there. -/
theorem Sound.stays {r r' : Registry β} {c : Call β} {reply : Reply β} (balanced : c.Balanced r)
    (e : r.serve c = .ok (reply, r')) {i : Nat} {f : ScopeFrame} (hf : r.frames[i]? = some f)
    (other : c.frame? ≠ some (f.id : Int)) : ∃ g, r'.frames[i]? = some g ∧ g.id = f.id := by
  rcases served_frames balanced e with ⟨k, hr, -⟩ | ⟨k, hr, rfl⟩ | ⟨hsame, -⟩
  · refine ⟨f, ?_, rfl⟩
    rw [hr, List.getElem?_append_left (List.getElem?_eq_some_iff.mp hf).1]
    exact hf
  · by_cases hi : i < r'.frames.length
    · exact ⟨f, by rwa [hr, List.getElem?_append_left hi] at hf, rfl⟩
    · have hlt := (List.getElem?_eq_some_iff.mp hf).1
      have hi : i = r'.frames.length := by
        rw [hr, List.length_append, List.length_singleton] at hlt
        omega
      subst hi
      have hk : k = f := by simpa [hr] using hf
      exact absurd (by rw [hk]; rfl) other
  · have hmap : r'.frames[i]?.map ScopeFrame.asEntered = some f.asEntered := by
      rw [← List.getElem?_map, hsame, List.getElem?_map, hf, Option.map_some]
    obtain ⟨g, hg, hentered⟩ := Option.map_eq_some_iff.mp hmap
    simp only [ScopeFrame.asEntered, ScopeFrame.mk.injEq] at hentered
    exact ⟨g, hg, hentered.1⟩

/-- **Main result.**  As long as actions are only taken off through the innermost live frame, a call
through a handle gives no action but one that was registered through the handle of that very frame, and
it leaves the actions of all other frames as they are. -/
theorem History.isolated {t : List (Entry β)} {r : Registry β} (past : History t r) (c : Call β)
    (balanced : c.Balanced r) :
    (∀ h a, c = .popAction h → (r.answer c).1 = .ok (.action (some a)) →
      ∃ (i : Nat) (f : ScopeFrame), r.frames[i]? = some f ∧ r.frame h = .ok f ∧
        Registered t ⟨f.id, i⟩ a) ∧
      ∀ (i : Nat) (f : ScopeFrame), r.frames[i]? = some f → c.frame? ≠ some (f.id : Int) →
        (r.answer c).2.pendingActions ⟨f.id, i⟩ = r.pendingActions ⟨f.id, i⟩ := by
  constructor
  · rintro h a rfl hreply
    rcases r.answer_cases (.popAction h) with ⟨failure, ha⟩ | ⟨reply, r', hs, ha⟩
    · rw [ha] at hreply
      contradiction
    · rw [ha] at hreply
      obtain ⟨⟨a?, r₁⟩, hc, he⟩ := map_ok hs
      obtain ⟨outer, f, hr, hf, -⟩ := popAction_innermost balanced hc
      obtain ⟨below, own, hacts, -, hmark, account⟩ := past.parts.innermost hr
      refine ⟨outer.length, f, by simp [hr], hf, ?_⟩
      obtain rfl : a? = some a := by
        obtain ⟨rfl, -⟩ := Prod.mk.inj he
        exact Reply.action.inj (Except.ok.inj hreply)
      obtain ⟨-, ⟨ha', -⟩ | ⟨b, arena, hb, hpop, -⟩⟩ := popAction_ok hf hc
      · contradiction
      · obtain rfl := Option.some.inj hb
        obtain ⟨own', rfl, -⟩ := popped_own hacts hmark hpop
        have := account.registered a (by simp)
        rwa [List.length_reverse] at this
  · intro i f hf other
    rcases r.answer_cases c with ⟨failure, ha⟩ | ⟨reply, r', hs, ha⟩
    · rw [ha]
    · rw [ha]
      obtain ⟨g, hg, hid⟩ := Sound.stays balanced hs hf other
      -- the part of a frame after the call is the one that it had before, if the call is not about it
      have hparts : Parts (fun fs k own => c.frame? ≠ some (k.id : Int) → k.id < r.nextId →
          r.pendingActions ⟨k.id, fs.length⟩ = .ok own) r'.frames.reverse r'.arena.actions := by
        refine past.reachable.sound.served balanced hs past.parts.pendingActions ?_ ?_
        · intro k hk hreply hfresh _ hlt
          rw [hfresh] at hlt
          exact absurd hlt (Nat.lt_irrefl _)
        · intro fs fs' hids k own k' own' holds hev hother _
          obtain ⟨rfl, rfl⟩ := hev.eq_of_ne hother
          have hlength : fs.length = fs'.length := by
            rw [← List.length_map (f := ScopeFrame.id), hids, List.length_map]
          rw [← hlength]
          exact holds.2.2
      obtain ⟨outer, own, -, hi, holds, -, hown⟩ := hparts.of_live hg
      rw [hid] at hown holds
      have hlt : f.id < r.nextId :=
        past.reachable.sound.issued f (List.mem_of_getElem? hf)
      have hbefore := holds other hlt
      rw [List.length_reverse, hi] at hbefore
      rw [hown, hbefore]

/-- Two frames, in the inner one of which an action is taken off. -/
theorem isolated_inner : ∃ (t : List (Entry Nat)) (r : Registry Nat),
    (r.answer (.popAction ⟨1, 1⟩)).1 = .ok (.action (some { body := 8 })) ∧
    Registered t ⟨1, 1⟩ { body := 8 } ∧
    (r.answer (.popAction ⟨1, 1⟩)).2.pendingActions ⟨0, 0⟩ = .ok [{ body := 7 }] := by
  have outer := ((History.new (β := Nat) "f").call (.enter .block false .unknown) trivial).call
    (.register ⟨0, 0⟩ { body := 7 }) trivial
  have inner := (outer.call (.enter .block false .unknown) trivial).call
    (.register ⟨1, 1⟩ { body := 8 }) trivial
  have begun := inner.call (.beginDrain ⟨1, 1⟩) trivial
  obtain ⟨origin, others⟩ := begun.isolated (.popAction ⟨1, 1⟩) (balanced_popAction rfl rfl)
  obtain ⟨i, f, hget, hf, hregistered⟩ := origin _ _ rfl rfl
  have hid : f.id = 1 := congrArg ScopeFrame.id (Except.ok.inj hf).symm
  obtain rfl : i = 1 := by
    match i with
    | 0 =>
      have hzero : 0 = f.id := congrArg ScopeFrame.id (Option.some.inj hget)
      omega
    | 1 => rfl
  rw [hid] at hregistered
  exact ⟨_, _, rfl, hregistered, others 0 _ rfl (by decide)⟩

/-- When the drain of a frame is in progress and another frame is entered and filled inside it, taking
an action off through the outer frame gives the action of the inner one, whose actions it changes. -/
theorem popAction_crosses :
    let calls : List (Call Nat) := [.enter .block false .unknown, .register ⟨0, 0⟩ { body := 1 },
      .beginDrain ⟨0, 0⟩, .enter .block false .unknown, .register ⟨1, 1⟩ { body := 2 }]
    let r : Registry Nat := calls.foldl (fun r c => (r.answer c).2) { name := "f" }
    r.pendingActions ⟨0, 0⟩ = .ok [{ body := 1 }] ∧ r.pendingActions ⟨1, 1⟩ = .ok [{ body := 2 }] ∧
      (r.answer (.popAction ⟨0, 0⟩)).1 = .ok (.action (some { body := 2 })) ∧
      (r.answer (.popAction ⟨0, 0⟩)).2.pendingActions ⟨1, 1⟩ = .ok [] :=
  ⟨rfl, rfl, rfl, rfl⟩

end Registry

end ScopeExit
