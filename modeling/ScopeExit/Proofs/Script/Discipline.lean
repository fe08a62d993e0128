import ScopeExit.Proofs.Script.Soundness
/-!
The discipline of draining.

Deferred actions are started when the code in their frame is over and before any code outside of it goes
on, the last registered first and each once.  An observer of a run can tell this from the stacks of the
code that runs or is suspended: a frame of the stack stands for a live frame of the engine, and the
invariant of a run says that there are no other ones.
-/
namespace ScopeExit.Script

open World

/-! ### What is on a stack -/

/-- What a frame of a stack stands for: a live frame of an activation, and whether its drain is in
progress, or the end of the activation. -/
def Frame.standsFor? : Frame → Option (Nat × Option (FrameHandle × Bool))
  | .scopeBody a handle _ => some (a, some (handle, false))
  | .taskStart (.drain a handle _) => some (a, some (handle, false))
  | .draining a d => some (a, some (d.handle, true))
  | .activationEnd a => some (a, none)
  | _ => none

/-- The code of a stack is in a frame of an activation, or has left the frame to its drain. -/
def Stack.IsIn (code : Stack) (a id : Nat) : Prop :=
  ∃ (handle : FrameHandle) (isDraining : Bool),
    (a, some (handle, isDraining)) ∈ code.filterMap Frame.standsFor? ∧ handle.frame = id

/-- The code of a state, with what it asks for on top. -/
def Running.code (s : Running) : Stack :=
  match s.control with
  | .suspend request => .taskStart request :: s.stack
  | _ => s.stack

/-- Code that runs or waits to go on. -/
inductive Running.HasCode (s : Running) : Stack → Prop
  | running : HasCode s s.code
  | suspended {g : Nat} {code : Stack} (h : s.world.generator g = .suspended code) : HasCode s code
  | parked {t : Nat} {code : Stack} (h : (s.world.loop.promise t).parked? = some code) :
      HasCode s code

/-- What is true of every moment of a run. -/
structure Disciplined (L : Ledger) (s : Running) : Prop where
  /-- While the code in a frame is not over, none of the actions of the frame is started. -/
  untouched : ∀ code, s.HasCode code → ∀ a (handle : FrameHandle) atEnd,
    .scopeBody a handle atEnd ∈ code → ∀ id : Nat, handle.frame = id → L.started a id = []
  /-- The same for all live frames of an activation with no drain in progress, so in particular where it
  is suspended in a frame. -/
  undrained : ∀ code, s.HasCode code → ∀ a, .activationEnd a ∈ code →
    (∀ d, .draining a d ∉ code) → ∀ f ∈ (s.world.registry a).frames, L.started a f.id = []
  /-- The actions of a frame are started in the reverse order of their registration, each once. -/
  reversed : ∀ code, s.HasCode code → ∀ a, .activationEnd a ∈ code → ∀ id,
    ∃ waiting, L.registered a id = waiting ++ (L.started a id).reverse
  /-- Where the code of an activation is not in a frame, all actions of the frame have been started. -/
  complete : ∀ code, s.HasCode code → ∀ a, .activationEnd a ∈ code → ∀ id, ¬ code.IsIn a id →
    L.registered a id = (L.started a id).reverse
  /-- An action is started for the innermost live frame, and of all frames that are left by then, the
  actions have been started. -/
  innermost : ∀ a id d, s.starts? a id = some d →
    ∃ outer f, (s.world.registry a).frames = outer ++ [f] ∧ f.id = id ∧
      ∀ other, (∀ g ∈ outer ++ [f], g.id ≠ other) →
        L.registered a other = (L.started a other).reverse
  /-- An activation that has ended has no live frame and an empty arena, and all its actions have been
  started. -/
  ended : ∀ a ∈ L.ended, (s.world.registry a).frames = [] ∧
    (s.world.registry a).arena.actions = [] ∧
    ∀ id, L.registered a id = (L.started a id).reverse

/-! ### Marks and frames -/

/-- What a mark says about a stack. -/
def Mark.key (m : Mark) : Nat × Option (FrameHandle × Bool) :=
  (m.activation, m.live?.map fun l => (l.handle, l.isDraining))

section Marks

variable {L : Ledger} {loc : Nat → Host} {w : World} {host : Host} {code : Stack} {marks : List Mark}

/-- A frame inside code stands for nothing else. -/
theorem Frame.Takes.standsFor?_eq [Node.Strays] {Γ : Region} {f : Frame} {form form' : Form}
    (h : f.Takes w Γ form form') : f.standsFor? = none := by
  cases h <;> rfl

/-- Only a drain stands for a frame whose drain is in progress. -/
theorem standsFor?_draining {f : Frame} {a : Nat} {handle : FrameHandle}
    (h : f.standsFor? = some (a, some (handle, true))) : ∃ d, f = .draining a d := by
  cases f with
  | draining b d =>
    obtain ⟨rfl, -⟩ := Prod.mk.inj (Option.some.inj h)
    exact ⟨d, rfl⟩
  | taskStart request => cases request <;> simp [Frame.standsFor?] at h
  | _ => simp [Frame.standsFor?] at h

/-- The marks of a stack are what its frames stand for. -/
theorem Spans.keys [Node.Strays] {p q : Port} (h : Spans w p code marks q) :
    marks.map Mark.key = code.filterMap Frame.standsFor? := by
  induction h with
  | nil => rfl
  | frame takes _ ih => rw [List.filterMap_cons_none takes.standsFor?_eq, ih]
  | scopeBody _ _ ih | draining _ _ ih | activationEnd _ _ _ ih | closing _ _ _ ih =>
    rw [List.map_cons, ih]
    rfl
  | taskEnd | programEnd | nap => rfl
  | actionEnd _ ih | settling _ _ ih | syncAction _ ih | asyncAction _ _ ih | syncCall _ ih
  | asyncCall _ ih | asyncTask _ ih | generator _ ih | callEnd _ ih | awaiting _ _ ih =>
    rw [List.filterMap_cons_none rfl, ih]

variable {P : Live → ScopeFrame → List (Action Deferred) → Prop} {ls : List Live}
  {fs : List ScopeFrame} {actions : List (Action Deferred)}

theorem Covers.of_live (h : Covers P ls fs actions) {l : Live} (hl : l ∈ ls) :
    ∃ f ∈ fs, ∃ own, l.handle.frame = f.id ∧ P l f own := by
  induction h with
  | nil => contradiction
  | @cons l' _ f _ _ own _ _ handle held ih =>
    rcases List.mem_cons.mp hl with rfl | hl
    · exact ⟨f, by simp, own, by rw [handle], held⟩
    · obtain ⟨g, hg, h⟩ := ih hl
      exact ⟨g, List.mem_cons_of_mem _ hg, h⟩

theorem Covers.of_frame (h : Covers P ls fs actions) {f : ScopeFrame} (hf : f ∈ fs) :
    ∃ l ∈ ls, ∃ own, l.handle.frame = f.id ∧ P l f own := by
  induction h with
  | nil => contradiction
  | @cons l f' _ _ _ own _ _ handle held ih =>
    rcases List.mem_cons.mp hf with rfl | hf
    · exact ⟨l, by simp, own, by rw [handle], held⟩
    · obtain ⟨k, hk, h⟩ := ih hf
      exact ⟨k, List.mem_cons_of_mem _ hk, h⟩

theorem mem_lives {a : Nat} {l : Live} : l ∈ lives a marks ↔ ⟨a, some l⟩ ∈ marks := by
  rw [lives, List.mem_filterMap]
  constructor
  · rintro ⟨⟨b, live?⟩, hm, h⟩
    split at h
    · rename_i hb
      rwa [← hb, ← h]
    · contradiction
  · intro hm
    exact ⟨⟨a, some l⟩, hm, if_pos rfl⟩

/-- A host has the code of an activation whose end is on its stack, and what the stack says of live
frames is true. -/
structure Carries [Node.Strays] (L : Ledger) (loc : Nat → Host) (w : World) (code : Stack) (marks : List Mark)
    (host : Host) : Prop where
  hosted : Hosted L loc w host marks
  keys : marks.map Mark.key = code.filterMap Frame.standsFor?

namespace Carries

variable [Node.Strays] (h : Carries L loc w code marks host) {a : Nat}

include h

theorem of_frame {f : Frame} (hf : f ∈ code) {key : Nat × Option (FrameHandle × Bool)}
    (stands : f.standsFor? = some key) : ∃ m ∈ marks, m.key = key := by
  rw [← List.mem_map, h.keys, List.mem_filterMap]
  exact ⟨f, hf, stands⟩

theorem located (hend : .activationEnd a ∈ code) : loc a = host := by
  obtain ⟨⟨b, live?⟩, hm, hkey⟩ := h.of_frame hend rfl
  obtain ⟨rfl, -⟩ := Prod.mk.inj hkey
  exact (h.hosted.located _ hm).1

theorem covers (hend : .activationEnd a ∈ code) :
    Covers (Held L w a) (lives a marks) (w.registry a).frames.reverse (w.registry a).arena.actions :=
  h.hosted.covers a (h.located hend)

/-- A live frame is on the stack. -/
theorem live_of_frame (hend : .activationEnd a ∈ code) {f : ScopeFrame}
    (hf : f ∈ (w.registry a).frames) : ∃ l own, Held L w a l f own ∧ l.handle.frame = f.id ∧
      (a, some (l.handle, l.isDraining)) ∈ code.filterMap Frame.standsFor? := by
  obtain ⟨l, hl, own, hid, held⟩ := (h.covers hend).of_frame (List.mem_reverse.mpr hf)
  refine ⟨l, own, held, hid, ?_⟩
  rw [← h.keys, List.mem_map]
  exact ⟨_, mem_lives.mp hl, rfl⟩

/-- What the code in a frame holds of the frame. -/
theorem untouched {handle : FrameHandle} {atEnd : ExitReason}
    (hbody : .scopeBody a handle atEnd ∈ code) {id : Nat} (hid : handle.frame = id) :
    L.started a id = [] := by
  obtain ⟨⟨b, live?⟩, hm, hkey⟩ := h.of_frame hbody rfl
  obtain ⟨rfl, hlive⟩ := Prod.mk.inj hkey
  obtain ⟨l, rfl, hl⟩ := Option.map_eq_some_iff.mp hlive
  obtain ⟨rfl, hdraining⟩ := Prod.mk.inj hl
  obtain ⟨f, -, own, hf, held⟩ := (h.hosted.covers b (h.hosted.located _ hm).1).of_live
    (mem_lives.mpr hm)
  rw [← Int.ofNat.inj (hf.symm.trans hid)]
  exact held.untouched hdraining

end Carries

end Marks

/-! ### Every moment of a run -/

section Discipline

variable [Node.Strays] {L : Ledger} {s : Running}

/-- The code of a good state has a host. -/
theorem Good.carries (h : Good L s) : ∃ loc, Sys L loc s.world ∧
    ∀ code, s.HasCode code → ∃ marks host, Carries L loc s.world code marks host := by
  have all : ∀ {loc marks}, Sys L loc s.world → Carries L loc s.world s.code marks .running →
      ∃ loc, Sys L loc s.world ∧
        ∀ code, s.HasCode code → ∃ marks host, Carries L loc s.world code marks host := by
    intro loc marks sys running
    refine ⟨loc, sys, ?_⟩
    intro code hcode
    cases hcode with
    | running => exact ⟨_, _, running⟩
    | @suspended g _ hg =>
      have fits := sys.generators g
      rw [hg] at fits
      cases fits with
      | suspended _ _ _ spans hosted => exact ⟨_, _, hosted, spans.keys⟩
    | parked ht =>
      obtain ⟨_, _, _, spans, hosted⟩ := sys.loop.parked _ _ ht
      exact ⟨_, _, hosted, spans.keys⟩
  cases h with
  | parked sys idle => exact all sys ⟨hosted_nil idle, rfl⟩
  | drain r async clean =>
    obtain ⟨marks, spans, hosted⟩ := r.path
    exact all r.sys ⟨hosted, (Spans.closing async clean spans).keys⟩
  | await r async =>
    obtain ⟨marks, spans, hosted⟩ := r.path
    exact all r.sys ⟨hosted, (@Spans.awaiting _ _ _ .undefined _ _ _ async spans).keys⟩
  | yield r _ =>
    obtain ⟨marks, spans, hosted⟩ := r.path
    exact all r.sys ⟨hosted, spans.keys⟩
  | execute r _ _ | action r _ _ | evaluate r _ _ | value r _ | complete r _ _ | resumed r
  | raise r _ =>
    obtain ⟨marks, spans, hosted⟩ := r.path
    exact all r.sys ⟨hosted, spans.keys⟩

/-- An action that is started is the last one of the innermost frame that was not started. -/
theorem Good.innermost (h : Good L s) {a id : Nat} {d : Deferred} (starts : s.starts? a id = some d) :
    ∃ outer f, (s.world.registry a).frames = outer ++ [f] ∧ f.id = id := by
  have found : ∃ body scope boundary drain rest, s.control = .execute body scope ∧
      s.stack = boundary :: .draining a drain :: rest ∧ boundary.isBoundary = true ∧
      drain.handle.frame = id := by
    unfold Running.starts? at starts
    split at starts
    · rename_i body scope boundary b drain rest hcontrol hstack
      split at starts
      · rename_i hb
        obtain ⟨hboundary, rfl, hid⟩ := hb
        exact ⟨body, scope, boundary, drain, rest, hcontrol, hstack, hboundary, hid⟩
      · contradiction
    · contradiction
  obtain ⟨body, scope, boundary, drain, rest, hcontrol, hstack, hboundary, hid⟩ := found
  have key : ∀ {loc marks}, Hosted L loc s.world .running
      (.frame a drain.handle true (drain.mode = .async) :: marks) →
      ∃ outer f, (s.world.registry a).frames = outer ++ [f] ∧ f.id = id := by
    intro loc marks hosted
    obtain ⟨outer, f, _, _, hr, hhandle, -⟩ := hosted.innermost
    rw [hhandle] at hid
    exact ⟨outer, f, hr, Int.ofNat.inj hid⟩
  cases h with
  | execute r _ _ =>
    simp only at hstack
    subst hstack
    obtain ⟨marks, spans, hosted⟩ := r.path
    cases spans with
    | frame takes _ => cases takes <;> contradiction
    | _ => contradiction
  | action r _ _ =>
    simp only at hstack
    subst hstack
    obtain ⟨marks, spans, hosted⟩ := r.path
    cases spans with
    | syncAction rest =>
      cases rest with
      | draining => exact key hosted
    | asyncAction _ rest =>
      cases rest with
      | draining => exact key hosted
  | _ => contradiction

theorem Good.disciplined (h : Good L s) : Disciplined L s := by
  obtain ⟨loc, sys, carries⟩ := h.carries
  refine ⟨?_, ?_, ?_, ?_, ?_, ?_⟩
  · intro code hcode a handle atEnd hbody
    obtain ⟨marks, host, hc⟩ := carries code hcode
    exact fun id hid => hc.untouched hbody hid
  · intro code hcode a hend none f hf
    obtain ⟨marks, host, hc⟩ := carries code hcode
    obtain ⟨l, own, held, hid, hl⟩ := hc.live_of_frame hend hf
    refine held.untouched ?_
    cases hdraining : l.isDraining with
    | false => rfl
    | true =>
      rw [hdraining, List.mem_filterMap] at hl
      obtain ⟨g, hg, hstands⟩ := hl
      obtain ⟨d, rfl⟩ := standsFor?_draining hstands
      exact absurd hg (none d)
  · intro code hcode a hend id
    obtain ⟨marks, host, hc⟩ := carries code hcode
    by_cases hlive : ∃ f ∈ (s.world.registry a).frames, f.id = id
    · obtain ⟨f, hf, rfl⟩ := hlive
      obtain ⟨l, own, held, -, -⟩ := hc.live_of_frame hend hf
      exact ⟨_, held.account⟩
    · refine ⟨[], sys.gone a id fun f hf hid => hlive ⟨f, hf, hid⟩⟩
  · intro code hcode a hend id outside
    obtain ⟨marks, host, hc⟩ := carries code hcode
    refine sys.gone a id fun f hf hid => outside ?_
    obtain ⟨l, own, held, hl, hmem⟩ := hc.live_of_frame hend hf
    exact ⟨l.handle, l.isDraining, hmem, by rw [hl, hid]⟩
  · intro a id d starts
    obtain ⟨outer, f, hframes, hid⟩ := h.innermost starts
    refine ⟨outer, f, hframes, hid, fun other hother => sys.gone a other ?_⟩
    rw [hframes]
    exact hother
  · intro a ended
    obtain ⟨-, -, hframes, harena⟩ := sys.ended a ended
    refine ⟨hframes, harena, fun id => sys.gone a id ?_⟩
    simp [hframes]

end Discipline

/-- **Main result.**  Every run of an accepted program whose generators yield in blocks only keeps the
discipline of draining at every moment, whatever the order of its tasks. -/
theorem Run.keeps_discipline {config : Config} {program : Node} (accepted : Accepted config program)
    {L : Ledger} {s : Running} (run : Run config program L s) : Disciplined L s :=
  letI : Node.Strays := ⟨program.strayLabels⟩
  (run.good accepted fun _ => id).disciplined

/-- In the end the module has left its frames, and both actions of the block have been started, the last
one first. -/
theorem disciplined_throwingActions :
    Disciplined (observed {} throwingActions 40).1 (observed {} throwingActions 40).2 ∧
      (observed {} throwingActions 40).1.ended = [0] ∧
      ((observed {} throwingActions 40).1.started 0 1).map (fun d => d.body.children.map Node.kind) =
        [[.await], [.literal]] :=
  ⟨(Run.observed {} throwingActions 40).keeps_discipline accepted_throwingActions, by decide +kernel,
    by decide +kernel⟩

end ScopeExit.Script
