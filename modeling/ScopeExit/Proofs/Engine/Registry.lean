import Mathlib.Logic.Relation
import ScopeExit.Engine.Dispatch
/-!
What the operations on a registry keep.

All frames of an activation share one arena, and a frame knows only where its part of the arena
begins.  `Laid` says that this is enough: going outwards, the arena falls into one part for each live
frame, and the mark of a frame is the place where its part begins.  Every operation keeps a registry
laid out like this as long as actions are only taken off through the innermost frame; taking one off
through an outer frame eats into the parts of the inner ones.
-/
namespace ScopeExit

/-- The drain of a frame was opened, or closed. -/
def ScopeFrame.begun (f : ScopeFrame) : Bool := f.drained || f.draining

namespace Registry

variable {β : Type}

/-! ### The operations -/

/-- One operation on a registry that is not refused.  Actions are taken off through the innermost
frame. -/
inductive Operation : Registry β → Registry β → Prop
  | enter (r : Registry β) (kind : FrameKind) (isAsync : Bool) (span : Span) :
      Operation r (r.enter kind isAsync span).2
  | register {r r' : Registry β} {h : FrameHandle} {a : Action β} (e : r.register h a = .ok r') :
      Operation r r'
  | beginDrain {r r' : Registry β} {h : FrameHandle} {f : ScopeFrame}
      (e : r.beginDrain h = .ok (f, r')) : Operation r r'
  | popAction {r r' : Registry β} {h : FrameHandle} {f : ScopeFrame} {a? : Option (Action β)}
      (innermost : r.innermostFrame h .drain = .ok f) (e : r.popAction h = .ok (a?, r')) :
      Operation r r'
  | finishDrain {r r' : Registry β} {h : FrameHandle} (e : r.finishDrain h = .ok r') :
      Operation r r'
  | exit {r r' : Registry β} {h : FrameHandle} (e : r.exit h = .ok r') : Operation r r'

/-- Some operations lead from one registry to another. -/
abbrev Reaches : Registry β → Registry β → Prop := Relation.ReflTransGen Operation

/-- Some operations lead from a new registry to this one. -/
def Reachable (r : Registry β) : Prop := ∃ name, Reaches { name } r

theorem Reachable.reaches {r r' : Registry β} (h : r.Reachable) (hr : r.Reaches r') :
    r'.Reachable := by
  obtain ⟨name, h⟩ := h
  exact ⟨name, h.trans hr⟩

theorem Reachable.operation {r r' : Registry β} (h : r.Reachable) (ho : Operation r r') :
    r'.Reachable := h.reaches (.single ho)

/-! ### Handles -/

/-- A number that is no negative one means the place it counts. -/
theorem signedGet?_natCast {α : Type} (xs : List α) (n : Nat) :
    signedGet? xs (n : Int) = xs[n]? := by
  simp [signedGet?, signedPosition]

theorem takeSigned_natCast {α : Type} (xs : List α) (n : Nat) :
    takeSigned (n : Int) xs = xs.take n := by
  simp [takeSigned, signedPosition]

/-- The handle of a live frame names it. -/
theorem frame_eq {r : Registry β} {i : Nat} {f : ScopeFrame} (e : r.frames[i]? = some f) :
    r.frame ⟨f.id, i⟩ = .ok f := by
  have bound : ¬ ((i : Int) < -(r.frames.length : Int)) := by omega
  simp [frame, bound, signedGet?_natCast, e]

theorem frame_innermost {r : Registry β} {outer : List ScopeFrame} {f : ScopeFrame}
    (e : r.frames = outer ++ [f]) : r.frame ⟨f.id, outer.length⟩ = .ok f :=
  frame_eq (by simp [e])

/-- A handle whose depth is no negative one is good for the live frame at that depth, if that is
the frame with the identity in the handle, and stale otherwise. -/
theorem frame_natCast (r : Registry β) (id : Int) (i : Nat) :
    r.frame ⟨id, i⟩ = .error (.engine (.staleHandle id)) ∨
      ∃ f, r.frames[i]? = some f ∧ (f.id : Int) = id ∧ r.frame ⟨id, i⟩ = .ok f := by
  have bound : ¬ ((i : Int) < -(r.frames.length : Int)) := by omega
  simp only [frame, bound, if_false, signedGet?_natCast]
  cases r.frames[i]? with
  | none => exact .inl rfl
  | some f =>
    by_cases hid : (f.id : Int) = id
    · exact .inr ⟨f, rfl, hid, by simp [hid]⟩
    · exact .inl (by simp [hid])

/-- A handle that is not stale names a live frame. -/
theorem frame_ok {r : Registry β} {h : FrameHandle} {f : ScopeFrame} (e : r.frame h = .ok f) :
    r.frames[signedPosition r.frames h.depth]? = some f ∧ (f.id : Int) = h.frame := by
  simp only [frame, signedGet?] at e
  split at e
  · contradiction
  · split at e
    · rename_i g hg
      split at e
      · rename_i hid
        simp only [Except.ok.injEq] at e
        subst e
        exact ⟨hg, hid⟩
      · contradiction
    · contradiction

/-- A live frame divides the others into those around it and those in it. -/
theorem split_frames {fs : List ScopeFrame} {i : Nat} {f : ScopeFrame} (e : fs[i]? = some f) :
    fs = fs.take i ++ f :: fs.drop (i + 1) := by
  obtain ⟨hi, hf⟩ := List.getElem?_eq_some_iff.mp e
  calc fs = fs.take i ++ fs.drop i := (List.take_append_drop i fs).symm
    _ = fs.take i ++ f :: fs.drop (i + 1) := by rw [List.drop_eq_getElem_cons hi, hf]

/-- The handle of the innermost frame gives it to every operation that asks for it. -/
theorem innermostFrame_eq {r : Registry β} {outer : List ScopeFrame} {f : ScopeFrame}
    (e : r.frames = outer ++ [f]) (verb : FrameVerb) :
    r.innermostFrame ⟨f.id, outer.length⟩ verb = .ok f := by
  have hf := frame_innermost e
  have hd : ((outer.length : Int) + 1 = r.frames.length) := by simp [e]
  simp only [innermostFrame, hf]
  simp [Bind.bind, Except.bind, hd, Pure.pure, Except.pure]

/-- Only the handle of the innermost frame is good for an operation that asks for it. -/
theorem innermostFrame_ok {r : Registry β} {h : FrameHandle} {verb : FrameVerb} {f : ScopeFrame}
    (e : r.innermostFrame h verb = .ok f) :
    ∃ outer, r.frames = outer ++ [f] ∧ h = ⟨f.id, outer.length⟩ := by
  simp only [innermostFrame, Bind.bind, Except.bind] at e
  split at e
  · contradiction
  · rename_i g hg
    split at e
    · rename_i hd
      simp only [Pure.pure, Except.pure, Except.ok.injEq] at e
      subst e
      obtain ⟨hget, hid⟩ := frame_ok hg
      obtain ⟨hlt, -⟩ := List.getElem?_eq_some_iff.mp hget
      have hp : signedPosition r.frames h.depth + 1 = r.frames.length := by
        have nonneg : 0 ≤ h.depth := by omega
        simp only [signedPosition, nonneg, if_true]
        omega
      have hr := split_frames hget
      rw [hp, List.drop_length] at hr
      refine ⟨_, hr, ?_⟩
      rw [List.length_take, hid]
      have hdepth : h.depth =
          ((min (signedPosition r.frames h.depth) r.frames.length : Nat) : Int) := by omega
      rw [← hdepth]
    · contradiction

/-- Putting another frame in the place of the innermost one. -/
theorem setFrame_innermost {r : Registry β} {outer : List ScopeFrame} {f : ScopeFrame}
    (e : r.frames = outer ++ [f]) (g : ScopeFrame) (id : Int) :
    r.setFrame ⟨id, outer.length⟩ g = { r with frames := outer ++ [g] } := by
  have hp : signedPosition (outer ++ [f]) (outer.length : Int) = outer.length := by
    simp [signedPosition]
  simp only [setFrame, e, hp, List.set_append_right _ _ (Nat.le_refl _), Nat.sub_self,
    List.set_cons_zero]

/-! ### What an operation does -/

/-- The frame with one more action in its counts. -/
def counted (f : ScopeFrame) (a : Action β) : ScopeFrame :=
  { f with
    registered := f.registered + 1
    asyncActions := if a.mode = .async then f.asyncActions + 1 else f.asyncActions }

/-- An action is registered in the innermost frame, if at all. -/
theorem register_ok {r r' : Registry β} {h : FrameHandle} {a : Action β}
    (e : r.register h a = .ok r') :
    ∃ outer f, r.frames = outer ++ [f] ∧ h = ⟨f.id, outer.length⟩ ∧ f.begun = false ∧
      (a.mode = .async → f.isAsync = true) ∧ a.transfers = [] ∧
      r' = { r with frames := outer ++ [counted f a], arena := r.arena.push a } := by
  simp only [register] at e
  split at e
  · contradiction
  · rename_i f hf
    obtain ⟨outer, hr, rfl⟩ := innermostFrame_ok hf
    split at e
    · contradiction
    · rename_i hb
      split at e
      · contradiction
      · rename_i hm
        split at e
        · contradiction
        · rename_i ht
          rw [setFrame_innermost hr] at e
          simp only [Except.ok.injEq] at e
          refine ⟨outer, f, hr, rfl, by simpa [ScopeFrame.begun] using hb, ?_, by simpa using ht,
            e.symm⟩
          intro ha
          simpa [ha] using hm

/-- The innermost frame takes an action that may live in it. -/
theorem register_eq {r : Registry β} {outer : List ScopeFrame} {f : ScopeFrame} {a : Action β}
    (hr : r.frames = outer ++ [f]) (hb : f.begun = false)
    (hm : a.mode = .async → f.isAsync = true) (ht : a.transfers = []) :
    r.register ⟨f.id, outer.length⟩ a =
      .ok { r with frames := outer ++ [counted f a], arena := r.arena.push a } := by
  have hb' : (f.drained || f.draining) = false := hb
  have hm' : (decide (a.mode = .async) && !f.isAsync) = false := by
    by_cases ha : a.mode = .async
    · simp [hm ha]
    · simp [ha]
  simp [register, innermostFrame_eq hr, hb', hm', ht, setFrame_innermost hr, counted]

/-- A drain is opened for the innermost frame, if at all. -/
theorem beginDrain_ok {r r' : Registry β} {h : FrameHandle} {g : ScopeFrame}
    (e : r.beginDrain h = .ok (g, r')) :
    ∃ outer f, r.frames = outer ++ [f] ∧ h = ⟨f.id, outer.length⟩ ∧ f.begun = false ∧
      g = { f with draining := true } ∧ r' = { r with frames := outer ++ [g] } := by
  simp only [beginDrain, Bind.bind, Except.bind] at e
  split at e
  · contradiction
  · rename_i f hf
    obtain ⟨outer, hr, rfl⟩ := innermostFrame_ok hf
    split at e
    · contradiction
    · rename_i hb
      rw [setFrame_innermost hr] at e
      simp only [Pure.pure, Except.pure, Except.ok.injEq, Prod.mk.injEq] at e
      obtain ⟨rfl, rfl⟩ := e
      exact ⟨outer, f, hr, rfl, by simpa [ScopeFrame.begun] using hb, rfl, rfl⟩

/-- The drain of the innermost frame can be opened once. -/
theorem beginDrain_eq {r : Registry β} {outer : List ScopeFrame} {f : ScopeFrame}
    (hr : r.frames = outer ++ [f]) (hb : f.begun = false) :
    r.beginDrain ⟨f.id, outer.length⟩ = .ok ({ f with draining := true },
      { r with frames := outer ++ [{ f with draining := true }] }) := by
  have hb' : (f.drained || f.draining) = false := hb
  simp [beginDrain, innermostFrame_eq hr, Bind.bind, Except.bind, hb', setFrame_innermost hr,
    Pure.pure, Except.pure]

/-- The most recent action of the innermost frame is the last one of the arena. -/
theorem popAction_eq {r : Registry β} {outer : List ScopeFrame} {f : ScopeFrame}
    (hr : r.frames = outer ++ [f]) (hd : f.draining = true) :
    r.popAction ⟨f.id, outer.length⟩ =
      match r.arena.pop? f.mark with
      | none => .ok (none, r)
      | some (a, arena) => .ok (some a, { r with arena }) := by
  have hf := frame_innermost hr
  simp only [popAction, hf, Bind.bind, Except.bind, hd, Bool.not_true, Bool.false_eq_true,
    if_false]
  split <;> simp_all [Pure.pure, Except.pure]

/-- Taking off an action changes the arena only. -/
theorem popAction_ok {r r' : Registry β} {h : FrameHandle} {f : ScopeFrame}
    {a? : Option (Action β)} (hf : r.frame h = .ok f) (e : r.popAction h = .ok (a?, r')) :
    f.draining = true ∧
      ((a? = none ∧ r.arena.size ≤ f.mark ∧ r' = r) ∨
        ∃ a arena, a? = some a ∧ r.arena.pop? f.mark = some (a, arena) ∧
          r' = { r with arena }) := by
  simp only [popAction, hf, Bind.bind, Except.bind] at e
  split at e
  · contradiction
  · rename_i hd
    refine ⟨by simpa using hd, ?_⟩
    split at e
    · rename_i hp
      simp only [Pure.pure, Except.pure, Except.ok.injEq, Prod.mk.injEq] at e
      obtain ⟨rfl, rfl⟩ := e
      exact .inl ⟨rfl, (Arena.pop?_eq_none_iff _ _).mp hp, rfl⟩
    · rename_i a arena hp
      simp only [Pure.pure, Except.pure, Except.ok.injEq, Prod.mk.injEq] at e
      obtain ⟨rfl, rfl⟩ := e
      exact .inr ⟨a, arena, rfl, hp, rfl⟩

/-- Closing a drain marks one live frame as drained. -/
theorem finishDrain_ok {r r' : Registry β} {h : FrameHandle} (e : r.finishDrain h = .ok r') :
    ∃ outer f inner, r.frames = outer ++ f :: inner ∧ h.frame = f.id ∧
      r' = { r with frames := outer ++ { f with draining := false, drained := true } :: inner } := by
  simp only [finishDrain, Bind.bind, Except.bind] at e
  split at e
  · contradiction
  · rename_i f hf
    simp only [Pure.pure, Except.pure, Except.ok.injEq, setFrame] at e
    obtain ⟨hget, hid⟩ := frame_ok hf
    generalize signedPosition r.frames h.depth = i at hget e
    obtain ⟨hi, -⟩ := List.getElem?_eq_some_iff.mp hget
    refine ⟨_, f, _, split_frames hget, hid.symm, ?_⟩
    rw [← e, List.set_eq_take_append_cons_drop, if_pos hi]

/-- The drain of the innermost frame can be closed at any time. -/
theorem finishDrain_eq {r : Registry β} {outer : List ScopeFrame} {f : ScopeFrame}
    (hr : r.frames = outer ++ [f]) :
    r.finishDrain ⟨f.id, outer.length⟩ =
      .ok { r with frames := outer ++ [{ f with draining := false, drained := true }] } := by
  have hf := frame_innermost hr
  simp [finishDrain, hf, Bind.bind, Except.bind, setFrame_innermost hr, Pure.pure, Except.pure]

/-- The innermost frame is left, if any. -/
theorem exit_ok {r r' : Registry β} {h : FrameHandle} (e : r.exit h = .ok r') :
    ∃ outer f, r.frames = outer ++ [f] ∧ h = ⟨f.id, outer.length⟩ ∧
      r' = { r with frames := outer, arena := r.arena.truncate f.mark } := by
  simp only [exit, Bind.bind, Except.bind] at e
  split at e
  · contradiction
  · rename_i f hf
    obtain ⟨outer, hr, rfl⟩ := innermostFrame_ok hf
    split at e
    · contradiction
    · split at e
      · contradiction
      · simp only [Pure.pure, Except.pure, Except.ok.injEq] at e
        exact ⟨outer, f, hr, rfl, by rw [← e, hr]; simp⟩

/-- The innermost frame may be left when it is drained. -/
theorem exit_eq {r : Registry β} {outer : List ScopeFrame} {f : ScopeFrame}
    (hr : r.frames = outer ++ [f]) (hd : f.drained = true) :
    r.exit ⟨f.id, outer.length⟩ =
      .ok { r with frames := outer, arena := r.arena.truncate f.mark } := by
  have hp : ∃ n, r.pending ⟨f.id, outer.length⟩ = .ok n := by
    have hf := frame_innermost hr
    simp only [pending, hf, Bind.bind, Except.bind]
    split
    · exact ⟨_, rfl⟩
    · exact ⟨_, rfl⟩
  obtain ⟨n, hp⟩ := hp
  simp [exit, innermostFrame_eq hr, hp, Bind.bind, Except.bind, hd, hr, Pure.pure, Except.pure]

/-! ### The parts of the arena -/

/-- How many of the actions are asynchronous. -/
def asyncCount (actions : List (Action β)) : Nat := actions.countP fun a => a.mode = .async

theorem asyncCount_eq_zero {actions : List (Action β)} (h : ∀ a ∈ actions, a.mode = .sync) :
    asyncCount actions = 0 := by
  rw [asyncCount, List.countP_eq_zero]
  intro a ha
  simp [h a ha]

/-- The actions fall into one part for each of the frames, which are listed innermost first: the
part of a frame begins at its mark, and something is true of the frames around it, the frame and its
part. -/
inductive Parts (P : List ScopeFrame → ScopeFrame → List (Action β) → Prop) :
    List ScopeFrame → List (Action β) → Prop
  | nil : Parts P [] []
  | cons {fs : List ScopeFrame} {f : ScopeFrame} {below own : List (Action β)}
      (outer : Parts P fs below) (mark : f.mark = below.length) (holds : P fs f own) :
      Parts P (f :: fs) (below ++ own)

/-- While its drain is not begun a frame counts the actions in its part. -/
abbrev Laid : List ScopeFrame → List (Action β) → Prop :=
  Parts fun _ f own => f.begun = false → f.registered = own.length ∧ f.asyncActions = asyncCount own

/-- What is true of every registry that operations lead to. -/
structure Sound (r : Registry β) : Prop where
  /-- The arena falls into the parts of the live frames. -/
  laid : Laid r.frames.reverse r.arena.actions
  /-- An inner frame has a later identity than the frames around it. -/
  ids : r.frames.Pairwise fun f g => f.id < g.id
  /-- The next identity is a new one. -/
  issued : ∀ f ∈ r.frames, f.id < r.nextId

section Parts

variable {P Q : List ScopeFrame → ScopeFrame → List (Action β) → Prop}

theorem Parts.imp {fs : List ScopeFrame} {actions : List (Action β)} (h : Parts P fs actions)
    (hPQ : ∀ outer, ∀ f ∈ fs, ∀ own, P outer f own → Q outer f own) : Parts Q fs actions := by
  induction h with
  | nil => exact .nil
  | cons _ mark holds ih =>
    refine .cons (ih fun outer f hf => hPQ outer f (List.mem_cons_of_mem _ hf)) mark ?_
    exact hPQ _ _ List.mem_cons_self _ holds

/-- The part of a frame, what is below it and what is above it. -/
theorem Parts.split {f : ScopeFrame} {outer : List ScopeFrame} :
    ∀ {inner : List ScopeFrame} {actions : List (Action β)}, Parts P (inner ++ f :: outer) actions →
      ∃ below own above, actions = below ++ own ++ above ∧ Parts P outer below ∧
        f.mark = below.length ∧ P outer f own ∧
        (match inner.getLast? with
          | none => above = []
          | some g => g.mark = (below ++ own).length) := by
  intro inner
  induction inner with
  | nil =>
    intro actions h
    cases h with
    | cons outer mark holds => exact ⟨_, _, [], by simp, outer, mark, holds, rfl⟩
  | cons g inner ih =>
    intro actions h
    cases h with
    | @cons _ _ below' own' hin mark _ =>
      obtain ⟨below, own, above, rfl, hout, hmark, holds, htop⟩ := ih hin
      refine ⟨below, own, above ++ own', by simp, hout, hmark, holds, ?_⟩
      cases inner with
      | nil =>
        simp only [List.getLast?_nil] at htop
        subst htop
        simpa using mark
      | cons g' inner =>
        obtain ⟨top, hlast⟩ : ∃ top, (g' :: inner).getLast? = some top :=
          ⟨_, List.getLast?_eq_some_getLast (List.cons_ne_nil _ _)⟩
        rw [hlast] at htop
        rw [List.getLast?_cons_cons, hlast]
        exact htop

/-- A frame may be replaced by one with the same identity and mark. -/
theorem Parts.replace {f g : ScopeFrame} {outer : List ScopeFrame} (hid : g.id = f.id)
    (hmark : g.mark = f.mark) (this : ∀ own, P outer f own → Q outer g own) :
    ∀ {inner : List ScopeFrame} {actions : List (Action β)},
      (∀ fs fs', fs.map ScopeFrame.id = fs'.map ScopeFrame.id → ∀ k ∈ inner ++ outer, ∀ own,
        P fs k own → Q fs' k own) →
      Parts P (inner ++ f :: outer) actions → Parts Q (inner ++ g :: outer) actions := by
  intro inner
  induction inner with
  | nil =>
    intro actions others h
    cases h with
    | cons hout mark holds =>
      exact .cons (hout.imp fun fs => others fs fs rfl) (hmark.trans mark) (this _ holds)
  | cons k inner ih =>
    intro actions others h
    cases h with
    | cons hin mark holds =>
      have hrest := ih (fun fs fs' e k hk => others fs fs' e k (List.mem_cons_of_mem _ hk)) hin
      have hids : (inner ++ f :: outer).map ScopeFrame.id =
          (inner ++ g :: outer).map ScopeFrame.id := by simp [hid]
      exact .cons hrest mark (others _ _ hids k (by simp) _ holds)

/-- The innermost frame has the part at the end of the arena. -/
theorem Parts.innermost {r : Registry β} (h : Parts P r.frames.reverse r.arena.actions)
    {outer : List ScopeFrame} {f : ScopeFrame} (e : r.frames = outer ++ [f]) :
    ∃ below own, r.arena.actions = below ++ own ∧ Parts P outer.reverse below ∧
      f.mark = below.length ∧ P outer.reverse f own := by
  rw [e, List.reverse_append, List.reverse_singleton, List.singleton_append] at h
  generalize hacts : r.arena.actions = actions at h
  cases h with
  | cons hout mark holds => exact ⟨_, _, rfl, hout, mark, holds⟩

end Parts

theorem sound_new (name : Text) : Sound ({ name } : Registry β) :=
  ⟨.nil, .nil, by simp⟩

/-- The innermost frame owns the end of the arena. -/
theorem Sound.innermost {r : Registry β} (h : r.Sound) {outer : List ScopeFrame} {f : ScopeFrame}
    (e : r.frames = outer ++ [f]) :
    ∃ below own, r.arena.actions = below ++ own ∧ Laid outer.reverse below ∧
      f.mark = below.length ∧
      (f.begun = false → f.registered = own.length ∧ f.asyncActions = asyncCount own) :=
  h.laid.innermost e

/-- The innermost frame and its part change, and nothing else. -/
theorem Sound.change {r : Registry β} (h : r.Sound) {outer : List ScopeFrame} {f g : ScopeFrame}
    (e : r.frames = outer ++ [f]) (hid : g.id = f.id) (hmark : g.mark = f.mark)
    {below own own' : List (Action β)} (hsplit : r.arena.actions = below ++ own)
    (hbelow : f.mark = below.length)
    (counts : g.begun = false → g.registered = own'.length ∧ g.asyncActions = asyncCount own') :
    Sound { r with frames := outer ++ [g], arena := ⟨below ++ own'⟩ } := by
  obtain ⟨below₀, own₀, hsplit₀, hout, hmark₀, -⟩ := h.innermost e
  have hlen : below₀.length = below.length := hmark₀.symm.trans hbelow
  have hsame : below₀ = below :=
    (List.append_inj (hsplit₀.symm.trans hsplit) hlen).1
  subst hsame
  refine ⟨?_, ?_, ?_⟩
  · show Laid (outer ++ [g]).reverse (below₀ ++ own')
    rw [List.reverse_append, List.reverse_singleton, List.singleton_append]
    exact .cons hout (hmark.trans hmark₀) counts
  · have hids := h.ids
    rw [e, List.pairwise_append] at hids
    show (outer ++ [g]).Pairwise _
    rw [List.pairwise_append]
    refine ⟨hids.1, by simp, ?_⟩
    intro a ha b hb
    rw [List.mem_singleton] at hb
    rw [hb, hid]
    exact hids.2.2 a ha f (by simp)
  · intro a ha
    rcases List.mem_append.mp ha with ha | ha
    · exact h.issued a (by rw [e]; exact List.mem_append_left _ ha)
    · rw [List.mem_singleton] at ha
      rw [ha, hid]
      exact h.issued f (by simp [e])

/-- What is taken off is the end of the part of the innermost frame. -/
theorem popped_own {arena arena' : Arena (Action β)} {below own : List (Action β)} {mark : Nat}
    {a : Action β} (hacts : arena.actions = below ++ own) (hmark : mark = below.length)
    (e : arena.pop? mark = some (a, arena')) :
    ∃ own', own = own' ++ [a] ∧ arena' = ⟨below ++ own'⟩ := by
  have hlt : ¬ arena.size ≤ mark := by
    intro hle
    rw [(Arena.pop?_eq_none_iff _ _).mpr hle] at e
    contradiction
  have hne : own ≠ [] := by
    rintro rfl
    apply hlt
    simp [Arena.size, hacts, hmark]
  obtain ⟨own', x, rfl⟩ := (List.eq_nil_or_concat own).resolve_left hne
  simp only [Arena.pop?, hlt, if_false, Option.map_eq_some_iff, Prod.mk.injEq] at e
  obtain ⟨_, hlast, rfl, rfl⟩ := e
  rw [hacts, List.concat_eq_append, ← List.append_assoc, List.getLast?_concat] at hlast
  refine ⟨own', by simp [Option.some.inj hlast], ?_⟩
  rw [hacts, List.concat_eq_append, ← List.append_assoc, List.dropLast_concat]

/-- Every operation keeps the registry sound. -/
theorem Sound.operation {r r' : Registry β} (h : r.Sound) (o : Operation r r') : r'.Sound := by
  cases o with
  | enter kind isAsync span =>
    refine ⟨?_, ?_, ?_⟩
    · show Laid (r.frames ++ [_]).reverse r.arena.actions
      rw [List.reverse_append, List.reverse_singleton, List.singleton_append,
        ← List.append_nil r.arena.actions]
      exact .cons h.laid (by simp [Arena.size]) (by simp [asyncCount])
    · show (r.frames ++ [_]).Pairwise _
      rw [List.pairwise_append]
      refine ⟨h.ids, by simp, ?_⟩
      intro a ha b hb
      rw [List.mem_singleton] at hb
      rw [hb]
      exact h.issued a ha
    · intro a ha
      show a.id < r.nextId + 1
      rcases List.mem_append.mp ha with ha | ha
      · exact Nat.lt_succ_of_lt (h.issued a ha)
      · rw [List.mem_singleton] at ha
        simp [ha]
  | @register _ handle a e =>
    obtain ⟨outer, f, hr, -, hb, -, -, rfl⟩ := register_ok e
    obtain ⟨below, own, hsplit, -, hmark, hcounts⟩ := h.innermost hr
    obtain ⟨hregistered, hasync⟩ := hcounts hb
    have hpush : r.arena.push a = ⟨below ++ (own ++ [a])⟩ := by simp [Arena.push, hsplit]
    rw [hpush]
    refine h.change (g := counted f a) hr rfl rfl hsplit hmark ?_
    intro _
    refine ⟨by simp [counted, hregistered], ?_⟩
    by_cases ha : a.mode = .async <;> simp [counted, asyncCount, ha, hasync]
  | beginDrain e =>
    obtain ⟨outer, f, hr, -, -, rfl, rfl⟩ := beginDrain_ok e
    obtain ⟨below, own, hsplit, -, hmark, -⟩ := h.innermost hr
    have hcounts : ({ f with draining := true } : ScopeFrame).begun = false →
        f.registered = own.length ∧ f.asyncActions = asyncCount own := by simp [ScopeFrame.begun]
    have hsound := h.change (g := { f with draining := true }) hr rfl rfl hsplit hmark hcounts
    rwa [← hsplit] at hsound
  | @popAction _ handle f a? hf e =>
    obtain ⟨outer, hr, rfl⟩ := innermostFrame_ok hf
    obtain ⟨hd, ⟨-, -, rfl⟩ | ⟨a, arena, -, hp, rfl⟩⟩ := popAction_ok (frame_innermost hr) e
    · exact h
    · obtain ⟨below, own, hsplit, -, hmark, -⟩ := h.innermost hr
      obtain ⟨own', rfl, rfl⟩ := popped_own hsplit hmark hp
      have hcounts : f.begun = false →
          f.registered = own'.length ∧ f.asyncActions = asyncCount own' := by
        simp [ScopeFrame.begun, hd]
      have hsound := h.change hr rfl rfl hsplit hmark hcounts
      rwa [← hr] at hsound
  | finishDrain e =>
    obtain ⟨outer, f, inner, hr, -, rfl⟩ := finishDrain_ok e
    refine ⟨?_, ?_, ?_⟩
    · have hl := h.laid
      rw [hr] at hl
      show Laid (outer ++ _ :: inner).reverse _
      rw [List.reverse_append, List.reverse_cons, List.append_assoc, List.singleton_append] at hl ⊢
      refine Parts.replace (f := f) (g := { f with draining := false, drained := true }) rfl rfl ?_
        (fun _ _ _ _ _ _ => id) hl
      simp [ScopeFrame.begun]
    · have hids := h.ids
      rw [hr] at hids
      show (outer ++ _ :: inner).Pairwise _
      rw [List.pairwise_append, List.pairwise_cons] at hids ⊢
      refine ⟨hids.1, hids.2.1, ?_⟩
      intro a ha b hb
      rcases List.mem_cons.mp hb with rfl | hb
      · exact hids.2.2 a ha f (by simp)
      · exact hids.2.2 a ha b (by simp [hb])
    · intro a ha
      rcases List.mem_append.mp ha with ha | ha
      · exact h.issued a (by simp [hr, ha])
      · rcases List.mem_cons.mp ha with rfl | ha
        · exact h.issued f (by simp [hr])
        · exact h.issued a (by simp [hr, ha])
  | exit e =>
    obtain ⟨outer, f, hr, -, rfl⟩ := exit_ok e
    obtain ⟨below, own, hsplit, hout, hmark, -⟩ := h.innermost hr
    refine ⟨?_, ?_, ?_⟩
    · show Laid outer.reverse (r.arena.actions.take f.mark)
      rw [hsplit, hmark, List.take_left]
      exact hout
    · have hids := h.ids
      rw [hr, List.pairwise_append] at hids
      exact hids.1
    · intro a ha
      exact h.issued a (by simp [hr, ha])

theorem Sound.reaches {r r' : Registry β} (h : r.Sound) (hr : r.Reaches r') : r'.Sound := by
  induction hr with
  | refl => exact h
  | tail _ o ih => exact ih.operation o

/-- **Main result.**  Whatever the operations, the arena falls into the parts of the live frames. -/
theorem Reachable.sound {r : Registry β} (h : r.Reachable) : r.Sound := by
  obtain ⟨name, h⟩ := h
  exact (sound_new name).reaches h

/-! ### The actions of a frame -/

/-- The actions of a live frame are those from its mark to the mark of the next inner frame, or to the
end of the arena. -/
theorem pendingActions_of_split {r : Registry β} {outer inner : List ScopeFrame} {f : ScopeFrame}
    (e : r.frames = outer ++ f :: inner) {below own above : List (Action β)}
    (hacts : r.arena.actions = below ++ own ++ above) (hmark : f.mark = below.length)
    (htop : match inner.head? with
      | none => above = []
      | some g => g.mark = (below ++ own).length) :
    r.pending ⟨f.id, outer.length⟩ = .ok (own.length : Int) ∧
      r.pendingActions ⟨f.id, outer.length⟩ = .ok own := by
  have hf : r.frames[outer.length]? = some f := by simp [e]
  have hnext : r.frames[outer.length + 1]? = inner.head? := by
    rw [e, List.getElem?_append_right (Nat.le_succ _), List.head?_eq_getElem?]
    simp
  have hn : r.pending ⟨f.id, outer.length⟩ = .ok (own.length : Int) := by
    simp only [pending, frame_eq hf, Bind.bind, Except.bind]
    rw [show ((outer.length : Int) + 1) = ((outer.length + 1 : Nat) : Int) by simp,
      signedGet?_natCast, hnext]
    cases hget : inner.head? with
    | none =>
      rw [hget] at htop
      simp only [Pure.pure, Except.pure, Except.ok.injEq, Arena.size, hacts, htop, hmark,
        List.append_nil, List.length_append]
      omega
    | some g =>
      rw [hget] at htop
      simp only [Pure.pure, Except.pure, Except.ok.injEq, htop, hmark, List.length_append]
      omega
  have habove : r.arena.above f.mark = own ++ above := by
    simp [Arena.above, hacts, hmark]
  refine ⟨hn, ?_⟩
  simp only [pendingActions, frame_eq hf, hn, Bind.bind, Except.bind, Pure.pure, Except.pure,
    habove, takeSigned_natCast, List.take_left]

/-- The actions of a live frame are its part of the arena. -/
theorem Sound.pendingActions_eq {r : Registry β} (h : r.Sound) {i : Nat} {f : ScopeFrame}
    (e : r.frames[i]? = some f) :
    ∃ below own above, r.arena.actions = below ++ own ++ above ∧ f.mark = below.length ∧
      (f.begun = false → f.registered = own.length ∧ f.asyncActions = asyncCount own) ∧
      (match r.frames[i + 1]? with
        | none => above = []
        | some g => g.mark = (below ++ own).length) ∧
      r.pendingActions ⟨f.id, i⟩ = .ok own := by
  have hl := h.laid
  rw [split_frames e, List.reverse_append, List.reverse_cons, List.append_assoc,
    List.singleton_append] at hl
  obtain ⟨below, own, above, hacts, -, hmark, hcounts, htop⟩ := hl.split
  rw [List.getLast?_reverse] at htop
  have hown := (pendingActions_of_split (split_frames e) hacts hmark htop).2
  have hi : (r.frames.take i).length = i := by
    have := (List.getElem?_eq_some_iff.mp e).1
    rw [List.length_take]
    omega
  rw [List.head?_drop] at htop
  rw [hi] at hown
  exact ⟨below, own, above, hacts, hmark, hcounts, htop, hown⟩

/-- Each part is what the frame says that it is. -/
theorem Parts.pendingActions {r : Registry β}
    {P : List ScopeFrame → ScopeFrame → List (Action β) → Prop}
    (h : Parts P r.frames.reverse r.arena.actions) :
    Parts (fun outer f own => P outer f own ∧ r.pending ⟨f.id, outer.length⟩ = .ok own.length ∧
      r.pendingActions ⟨f.id, outer.length⟩ = .ok own) r.frames.reverse r.arena.actions := by
  -- the induction is on the frames around a frame, so what is inside it is carried along
  have key : ∀ {fs : List ScopeFrame} {actions : List (Action β)}, Parts P fs actions →
      ∀ inner above, r.frames = fs.reverse ++ inner → r.arena.actions = actions ++ above →
        (match inner.head? with
          | none => above = []
          | some g => g.mark = actions.length) →
        Parts (fun outer f own => P outer f own ∧ r.pending ⟨f.id, outer.length⟩ = .ok own.length ∧
          r.pendingActions ⟨f.id, outer.length⟩ = .ok own) fs actions := by
    intro fs actions hp
    induction hp with
    | nil => intros; exact .nil
    | @cons outer f below own _ mark holds ih =>
      intro inner above hframes hacts htop
      have hsplit : r.frames = outer.reverse ++ f :: inner := by simpa using hframes
      have hown := pendingActions_of_split hsplit hacts mark htop
      rw [List.length_reverse] at hown
      exact .cons (ih (f :: inner) (own ++ above) hsplit (by simpa using hacts) mark) mark
        ⟨holds, hown⟩
  exact key h [] [] (by simp) (by simp) rfl

/-- What is true of a live frame and its part. -/
theorem Parts.of_live {r : Registry β} {P : List ScopeFrame → ScopeFrame → List (Action β) → Prop}
    (h : Parts P r.frames.reverse r.arena.actions) {i : Nat} {f : ScopeFrame}
    (e : r.frames[i]? = some f) :
    ∃ outer own, r.frames.take i = outer ∧ outer.length = i ∧ P outer.reverse f own ∧
      r.pending ⟨f.id, i⟩ = .ok own.length ∧ r.pendingActions ⟨f.id, i⟩ = .ok own := by
  have hi : (r.frames.take i).length = i := by
    have := (List.getElem?_eq_some_iff.mp e).1
    rw [List.length_take]
    omega
  have hparts := h.pendingActions
  rw [split_frames e, List.reverse_append, List.reverse_cons, List.append_assoc,
    List.singleton_append] at hparts
  obtain ⟨_, own, _, -, -, -, ⟨holds, hn, hown⟩, -⟩ := hparts.split
  rw [List.length_reverse, hi] at hn hown
  exact ⟨_, own, rfl, hi, holds, hn, hown⟩

/-- The innermost frame, its actions and its part of the arena, for a handle of it. -/
theorem Sound.of_innermostFrame {r : Registry β} (hs : r.Sound) {h : FrameHandle} {verb : FrameVerb}
    {f : ScopeFrame} (hf : r.innermostFrame h verb = .ok f) :
    ∃ outer below own, r.frames = outer ++ [f] ∧ h = ⟨f.id, outer.length⟩ ∧
      r.arena.actions = below ++ own ∧ f.mark = below.length ∧
      (f.begun = false → f.registered = own.length ∧ f.asyncActions = asyncCount own) ∧
      r.pendingActions h = .ok own := by
  obtain ⟨outer, hr, rfl⟩ := innermostFrame_ok hf
  have hlast : r.frames[outer.length]? = some f := by simp [hr]
  obtain ⟨below, own, above, hacts, hmark, hcounts, htop, hown⟩ := hs.pendingActions_eq hlast
  have hend : r.frames[outer.length + 1]? = none := by simp [hr]
  rw [hend] at htop
  simp only at htop
  subst htop
  exact ⟨outer, below, own, hr, rfl, by simpa using hacts, hmark, hcounts, hown⟩

/-- The actions of the innermost frame are those above its mark. -/
theorem pendingActions_innermost {r : Registry β} {outer : List ScopeFrame} {f : ScopeFrame}
    (e : r.frames = outer ++ [f]) :
    r.pendingActions ⟨f.id, outer.length⟩ = .ok (r.arena.above f.mark) := by
  have hn : r.pending ⟨f.id, outer.length⟩ = .ok ((r.arena.size : Int) - f.mark) := by
    simp only [pending, frame_innermost e, Bind.bind, Except.bind]
    rw [show ((outer.length : Int) + 1) = ((outer.length + 1 : Nat) : Int) by simp,
      signedGet?_natCast, e, List.getElem?_eq_none (by simp)]
    rfl
  simp only [pendingActions, frame_innermost e, hn, Bind.bind, Except.bind, Pure.pure, Except.pure,
    Except.ok.injEq]
  rcases Nat.le_total f.mark r.arena.size with hle | hle
  · rw [show ((r.arena.size : Int) - f.mark) = ((r.arena.size - f.mark : Nat) : Int) by omega,
      takeSigned_natCast, Arena.above, Arena.size, ← List.length_drop, List.take_length]
  · have hnone : r.arena.above f.mark = [] := List.drop_eq_nil_of_le hle
    rw [hnone, takeSigned, List.take_nil]

/-- An action that is registered comes after those that are there. -/
theorem Sound.register_pendingActions {r r' : Registry β} (hs : r.Sound) {h : FrameHandle}
    {a : Action β} (e : r.register h a = .ok r') {actions : List (Action β)}
    (hp : r.pendingActions h = .ok actions) : r'.pendingActions h = .ok (actions ++ [a]) := by
  obtain ⟨outer, f, hr, rfl, -, -, -, rfl⟩ := register_ok e
  obtain ⟨below, own, hacts, -, hmark, -⟩ := hs.innermost hr
  have hle : f.mark ≤ r.arena.size := by
    simp [Arena.size, hacts, hmark]
  have hold := pendingActions_innermost hr
  have hframes : ({ r with frames := outer ++ [counted f a], arena := r.arena.push a } :
      Registry β).frames = outer ++ [counted f a] := rfl
  rw [hold] at hp
  refine (pendingActions_innermost hframes).trans ?_
  show Except.ok ((r.arena.push a).above f.mark) = _
  rw [Arena.above_push _ _ hle, Except.ok.inj hp]

/-- A frame around the innermost one keeps its record and its actions when that one is left. -/
theorem Sound.outer_eq {r r' : Registry β} (h : r.Sound) (h' : r'.Sound)
    {outer : List ScopeFrame} {f : ScopeFrame} (e : r.frames = outer ++ [f])
    (hframes : r'.frames = outer) (harena : r'.arena = r.arena.truncate f.mark)
    {g : FrameHandle} (hlow : 0 ≤ g.depth) (hhigh : g.depth < outer.length) :
    r'.frame g = r.frame g ∧ r'.pendingActions g = r.pendingActions g := by
  obtain ⟨id, depth⟩ := g
  obtain ⟨i, rfl⟩ := Int.eq_ofNat_of_zero_le hlow
  have hi : i < outer.length := by simpa using hhigh
  have hlive : r.frames[i]? = r'.frames[i]? := by
    rw [e, hframes, List.getElem?_append_left hi]
  have hframe : r'.frame ⟨id, i⟩ = r.frame ⟨id, i⟩ := by
    have low : ¬ ((i : Int) < -(r.frames.length : Int)) := by omega
    have low' : ¬ ((i : Int) < -(r'.frames.length : Int)) := by omega
    simp only [frame, low, low', if_false, signedGet?_natCast, hlive]
  refine ⟨hframe, ?_⟩
  rcases frame_natCast r id i with hstale | ⟨k, hk, rfl, -⟩
  · simp [pendingActions, hframe, hstale, Bind.bind, Except.bind]
  · obtain ⟨below, own, above, hacts, hmark, -, htop, hown⟩ := h.pendingActions_eq hk
    obtain ⟨below', own', above', hacts', hmark', -, htop', hown'⟩ :=
      h'.pendingActions_eq (hlive ▸ hk)
    rw [hown, hown']
    -- both parts end where the next frame begins, or at the mark of the frame that is left
    have hend : (below ++ own).length = (below' ++ own').length := by
      rw [e] at htop
      rw [hframes] at htop'
      by_cases hnext : i + 1 < outer.length
      · rw [List.getElem?_append_left hnext, List.getElem?_eq_getElem hnext] at htop
        rw [List.getElem?_eq_getElem hnext] at htop'
        exact htop.symm.trans htop'
      · have hlast : i + 1 = outer.length := by omega
        rw [hlast, List.getElem?_append_right (Nat.le_refl _), Nat.sub_self] at htop
        rw [hlast, List.getElem?_eq_none (Nat.le_refl _)] at htop'
        simp only [List.getElem?_cons_zero] at htop
        simp only at htop'
        have hsize : r'.arena.actions.length = f.mark := by
          rw [harena, Arena.truncate, List.length_take, hacts]
          simp only [List.length_append] at htop ⊢
          omega
        rw [hacts', htop', List.append_nil] at hsize
        rw [hsize, htop]
    have hprefix : below ++ own = below' ++ own' := by
      have hle : (below' ++ own').length ≤ f.mark := by
        have := congrArg List.length hacts'
        rw [harena, Arena.truncate, List.length_take] at this
        simp only [List.length_append] at this ⊢
        omega
      have hcut := congrArg (List.take (below' ++ own').length) hacts'
      rw [List.take_left, harena, Arena.truncate, List.take_take, Nat.min_eq_left hle, hacts,
        ← hend, List.take_left] at hcut
      exact hcut
    have hbelow : below.length = below'.length := hmark.symm.trans hmark'
    exact congrArg Except.ok (List.append_inj hprefix hbelow).2.symm

/-! ### Identities -/

/-- An operation gives no identity twice. -/
theorem Operation.identities {r r' : Registry β} (o : Operation r r') {id : Nat}
    (hid : id < r.nextId) (gone : id ∉ r.frames.map ScopeFrame.id) :
    id < r'.nextId ∧ id ∉ r'.frames.map ScopeFrame.id := by
  cases o with
  | enter kind isAsync span =>
    have hne : id ≠ r.nextId := Nat.ne_of_lt hid
    refine ⟨Nat.lt_succ_of_lt hid, ?_⟩
    show id ∉ (r.frames ++ [_]).map ScopeFrame.id
    rw [List.map_append, List.mem_append]
    rintro (hmem | hmem)
    · exact gone hmem
    · exact hne (by simpa using hmem)
  | register e =>
    obtain ⟨outer, f, hr, -, -, -, -, rfl⟩ := register_ok e
    rw [hr] at gone
    exact ⟨hid, by simpa [counted] using gone⟩
  | beginDrain e =>
    obtain ⟨outer, f, hr, -, -, rfl, rfl⟩ := beginDrain_ok e
    rw [hr] at gone
    exact ⟨hid, by simpa using gone⟩
  | popAction hf e =>
    obtain ⟨outer, hr, rfl⟩ := innermostFrame_ok hf
    obtain ⟨-, ⟨-, -, rfl⟩ | ⟨a, arena, -, -, rfl⟩⟩ := popAction_ok (frame_innermost hr) e
    · exact ⟨hid, gone⟩
    · exact ⟨hid, gone⟩
  | finishDrain e =>
    obtain ⟨outer, f, inner, hr, -, rfl⟩ := finishDrain_ok e
    rw [hr] at gone
    exact ⟨hid, by simpa using gone⟩
  | exit e =>
    obtain ⟨outer, f, hr, -, rfl⟩ := exit_ok e
    rw [hr] at gone
    refine ⟨hid, fun hmem => gone ?_⟩
    rw [List.map_append]
    exact List.mem_append_left _ hmem

/-- Identities are given in order. -/
theorem Operation.nextId_le {r r' : Registry β} (o : Operation r r') : r.nextId ≤ r'.nextId := by
  cases o with
  | enter => exact Nat.le_succ _
  | register e =>
    obtain ⟨_, _, -, -, -, -, -, rfl⟩ := register_ok e
    exact Nat.le_refl _
  | beginDrain e =>
    obtain ⟨_, _, -, -, -, -, rfl⟩ := beginDrain_ok e
    exact Nat.le_refl _
  | popAction hf e =>
    obtain ⟨_, hr, rfl⟩ := innermostFrame_ok hf
    obtain ⟨-, ⟨-, -, rfl⟩ | ⟨_, _, -, -, rfl⟩⟩ := popAction_ok (frame_innermost hr) e
    · exact Nat.le_refl _
    · exact Nat.le_refl _
  | finishDrain e =>
    obtain ⟨_, _, _, -, -, rfl⟩ := finishDrain_ok e
    exact Nat.le_refl _
  | exit e =>
    obtain ⟨_, _, -, -, rfl⟩ := exit_ok e
    exact Nat.le_refl _

theorem Reaches.nextId_le {r r' : Registry β} (hr : r.Reaches r') : r.nextId ≤ r'.nextId := by
  induction hr with
  | refl => exact Nat.le_refl _
  | tail _ o ih => exact Nat.le_trans ih o.nextId_le

/-- An identity that was given away and that no live frame has is never given again. -/
theorem Reaches.stale {r r' : Registry β} (hr : r.Reaches r') {id : Nat}
    (hid : id < r.nextId) (gone : id ∉ r.frames.map ScopeFrame.id) (depth : Nat) :
    r'.frame ⟨id, depth⟩ = .error (.engine (.staleHandle id)) := by
  have key : id < r'.nextId ∧ id ∉ r'.frames.map ScopeFrame.id := by
    induction hr with
    | refl => exact ⟨hid, gone⟩
    | tail _ o ih => exact o.identities ih.1 ih.2
  rcases frame_natCast r' (id : Int) depth with hstale | ⟨f, hf, hfid, -⟩
  · exact hstale
  · have hmem : f.id ∈ r'.frames.map ScopeFrame.id :=
      List.mem_map_of_mem (List.mem_of_getElem? hf)
    rw [Int.ofNat.inj hfid] at hmem
    exact absurd hmem key.2

end Registry

end ScopeExit
