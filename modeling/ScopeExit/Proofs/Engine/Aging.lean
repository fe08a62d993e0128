import Mathlib.Data.List.Nodup
import ScopeExit.Proofs.Engine.Registry
/-!
Registries grow older.

Whatever is done to a registry, the frames that are live afterwards were live before, as frames of the same
kind, or they are new and have identities that were never given before.  So what is known about the frame of
a handle stays known, and a frame that is gone never comes back.  Nothing is asked of the order in which the
frames are used: a drain may take an action off through an outer frame.

The records that drains leave are here too.  A drain counts the actions that it starts and those that fail,
and its record says how it was entered and what came out.
-/
namespace ScopeExit

/-- What a frame keeps for as long as it lives. -/
def ScopeFrame.key (f : ScopeFrame) : Nat × FrameKind := (f.id, f.kind)

namespace Registry

variable {β : Type} {r r' r'' : Registry β}

/-! ### Older registries -/

/-- The live frames have identities of their own, and all of these were given. -/
structure Dated (r : Registry β) : Prop where
  nodup : (r.frames.map ScopeFrame.id).Nodup
  issued : ∀ f ∈ r.frames, f.id < r.nextId

/-- An identity names one live frame. -/
theorem Dated.eq_of_id (h : r.Dated) {f g : ScopeFrame} (hf : f ∈ r.frames) (hg : g ∈ r.frames)
    (same : f.id = g.id) : f = g := List.inj_on_of_nodup_map h.nodup hf hg same

/-- What one registry may become. -/
structure Ages (r r' : Registry β) : Prop where
  count : r.nextId ≤ r'.nextId
  frames : ∀ f' ∈ r'.frames, (∃ f ∈ r.frames, f.key = f'.key) ∨ r.nextId ≤ f'.id ∧ f'.id < r'.nextId
  dated : r.Dated → r'.Dated

theorem Ages.refl (r : Registry β) : r.Ages r :=
  ⟨Nat.le_refl _, fun f hf => .inl ⟨f, hf, rfl⟩, id⟩

theorem Ages.trans (h : r.Ages r') (h' : r'.Ages r'') : r.Ages r'' where
  count := Nat.le_trans h.count h'.count
  frames f'' hf'' := by
    rcases h'.frames f'' hf'' with ⟨f', hf', key'⟩ | ⟨new, issued⟩
    · have id' : f'.id = f''.id := congrArg Prod.fst key'
      rcases h.frames f' hf' with ⟨f, hf, key⟩ | ⟨new, issued⟩
      · exact .inl ⟨f, hf, key.trans key'⟩
      · exact .inr ⟨id' ▸ new, id' ▸ Nat.lt_of_lt_of_le issued h'.count⟩
    · exact .inr ⟨Nat.le_trans h.count new, issued⟩
  dated dated := h'.dated (h.dated dated)

/-- No frame comes to be. -/
theorem ages_of_sublist (count : r'.nextId = r.nextId)
    (keys : (r'.frames.map ScopeFrame.key).Sublist (r.frames.map ScopeFrame.key)) : r.Ages r' := by
  have old : ∀ f' ∈ r'.frames, ∃ f ∈ r.frames, f.key = f'.key := fun f' hf' =>
    List.mem_map.mp (keys.subset (List.mem_map_of_mem hf'))
  have ids : (r'.frames.map ScopeFrame.id).Sublist (r.frames.map ScopeFrame.id) := by
    have fst := keys.map Prod.fst
    rwa [List.map_map, List.map_map] at fst
  refine ⟨Nat.le_of_eq count.symm, fun f' hf' => .inl (old f' hf'), fun dated => ⟨?_, ?_⟩⟩
  · exact dated.nodup.sublist ids
  · intro f' hf'
    obtain ⟨f, hf, key⟩ := old f' hf'
    rw [count, ← show f.id = f'.id from congrArg Prod.fst key]
    exact dated.issued f hf

/-- What a registry becomes while no frame is entered or left. -/
structure Same (r r' : Registry β) : Prop where
  name : r'.name = r.name
  count : r'.nextId = r.nextId
  keys : r'.frames.map ScopeFrame.key = r.frames.map ScopeFrame.key

theorem Same.refl (r : Registry β) : r.Same r := ⟨rfl, rfl, rfl⟩

theorem Same.trans (h : r.Same r') (h' : r'.Same r'') : r.Same r'' :=
  ⟨h'.name.trans h.name, h'.count.trans h.count, h'.keys.trans h.keys⟩

theorem Same.ages (h : r.Same r') : r.Ages r' :=
  ages_of_sublist h.count (h.keys ▸ List.Sublist.refl _)

/-- Another frame takes the place of one. -/
theorem same_replace {outer inner : List ScopeFrame} {f g : ScopeFrame} (arena : Arena (Action β))
    (frames : r.frames = outer ++ f :: inner) (key : g.key = f.key) :
    r.Same { r with frames := outer ++ g :: inner, arena := arena } := by
  refine ⟨rfl, rfl, ?_⟩
  rw [frames, List.map_append, List.map_append, List.map_cons, List.map_cons, key]

theorem ages_enter (r : Registry β) (kind : FrameKind) (isAsync : Bool) (span : Span) :
    r.Ages (r.enter kind isAsync span).2 := by
  have new : ∀ f' ∈ (r.enter kind isAsync span).2.frames, f' ∈ r.frames ∨ f'.id = r.nextId := by
    intro f' hf'
    exact (List.mem_append.mp hf').imp_right fun hf' => by rw [List.mem_singleton.mp hf']
  refine ⟨Nat.le_succ _, fun f' hf' => ?_, fun dated => ⟨?_, fun f' hf' => ?_⟩⟩
  · rcases new f' hf' with old | id
    · exact .inl ⟨f', old, rfl⟩
    · exact .inr ⟨Nat.le_of_eq id.symm, id ▸ Nat.lt_succ_self _⟩
  · show ((r.frames ++ [_]).map ScopeFrame.id).Nodup
    rw [List.map_append]
    refine List.nodup_append.mpr ⟨dated.nodup, by simp, ?_⟩
    rintro id live id' new rfl
    obtain ⟨f, hf, rfl⟩ := List.mem_map.mp live
    exact Nat.ne_of_lt (dated.issued f hf) (List.mem_singleton.mp new)
  · rcases new f' hf' with old | id
    · exact Nat.lt_succ_of_lt (dated.issued f' old)
    · exact id ▸ Nat.lt_succ_self _

theorem same_register {h : FrameHandle} {a : Action β} (e : r.register h a = .ok r') : r.Same r' := by
  obtain ⟨outer, f, frames, -, -, -, -, rfl⟩ := register_ok e
  exact same_replace _ frames rfl

theorem same_beginDrain {h : FrameHandle} {g : ScopeFrame} (e : r.beginDrain h = .ok (g, r')) :
    r.Same r' := by
  obtain ⟨outer, f, frames, -, -, rfl, rfl⟩ := beginDrain_ok e
  exact same_replace r.arena frames rfl

theorem same_popAction {h : FrameHandle} {a? : Option (Action β)} (e : r.popAction h = .ok (a?, r')) :
    r.Same r' := by
  cases live : r.frame h with
  | error failure => simp [popAction, live, Bind.bind, Except.bind] at e
  | ok f =>
    obtain ⟨-, ⟨-, -, rfl⟩ | ⟨a, arena, -, -, rfl⟩⟩ := popAction_ok live e
    · exact .refl _
    · exact ⟨rfl, rfl, rfl⟩

theorem same_finishDrain {h : FrameHandle} (e : r.finishDrain h = .ok r') : r.Same r' := by
  obtain ⟨outer, f, inner, frames, -, rfl⟩ := finishDrain_ok e
  exact same_replace r.arena frames rfl

theorem ages_exit {h : FrameHandle} (e : r.exit h = .ok r') : r.Ages r' := by
  obtain ⟨outer, f, frames, -, rfl⟩ := exit_ok e
  refine ages_of_sublist rfl ?_
  rw [frames, List.map_append]
  exact List.sublist_append_left ..

theorem ages_leave (r : Registry β) (h : FrameHandle) (result : Except Failure DrainOutcome) :
    r.Ages (r.leave h result).registry := by
  unfold Registry.leave
  split
  · exact .refl _
  · split <;> exact ages_exit ‹_›

/-! ### Known frames -/

/-- The identity of a handle was given, and a live frame that has it is of a kind as said. -/
structure Knows (r : Registry β) (h : FrameHandle) (P : FrameKind → Prop) : Prop where
  issued : h.frame < r.nextId
  kind : ∀ f ∈ r.frames, (f.id : Int) = h.frame → P f.kind

theorem Knows.mono {h : FrameHandle} {P : FrameKind → Prop} (knows : r.Knows h P) (ages : r.Ages r') :
    r'.Knows h P where
  issued := by
    have count := ages.count
    have issued := knows.issued
    omega
  kind f' hf' id := by
    rcases ages.frames f' hf' with ⟨f, hf, key⟩ | ⟨new, -⟩
    · have same : f.id = f'.id := congrArg Prod.fst key
      have kind : f.kind = f'.kind := congrArg Prod.snd key
      exact kind ▸ knows.kind f hf (same ▸ id)
    · have issued := knows.issued
      omega

theorem Knows.imp {h : FrameHandle} {P Q : FrameKind → Prop} (knows : r.Knows h P)
    (imp : ∀ k, P k → Q k) : r.Knows h Q := ⟨knows.issued, fun f hf id => imp _ (knows.kind f hf id)⟩

/-- The frame that is entered is known. -/
theorem knows_enter (dated : r.Dated) (kind : FrameKind) (isAsync : Bool) (span : Span) :
    (r.enter kind isAsync span).2.Knows (r.enter kind isAsync span).1 (· = kind) := by
  refine ⟨?_, fun f hf id => ?_⟩
  · show (r.nextId : Int) < ((r.nextId + 1 : Nat) : Int)
    omega
  · rcases List.mem_append.mp hf with hf | hf
    · have given := dated.issued f hf
      have new : (f.id : Int) = r.nextId := id
      omega
    · rw [List.mem_singleton.mp hf]

/-- An identity was given, and no live frame has it. -/
structure Gone (r : Registry β) (id : Nat) : Prop where
  issued : id < r.nextId
  absent : id ∉ r.frames.map ScopeFrame.id

/-- A frame that is left is gone. -/
theorem gone_exit {h : FrameHandle} {outer : List ScopeFrame} {f : ScopeFrame} (dated : r.Dated)
    (frames : r.frames = outer ++ [f]) (e : r.exit h = .ok r') : r'.Gone f.id := by
  obtain ⟨outer', f', frames', -, rfl⟩ := exit_ok e
  obtain ⟨rfl, same⟩ := List.append_inj' (frames.symm.trans frames') rfl
  obtain rfl := List.singleton_inj.mp same
  have nodup := dated.nodup
  rw [frames, List.map_append] at nodup
  refine ⟨dated.issued f (by simp [frames]), fun live => ?_⟩
  exact (List.nodup_append.mp nodup).2.2 _ live _ (List.mem_singleton_self _) rfl

/-- What is gone never comes back. -/
theorem Gone.mono {id : Nat} (gone : r.Gone id) (ages : r.Ages r') : r'.Gone id := by
  refine ⟨Nat.lt_of_lt_of_le gone.issued ages.count, fun live => ?_⟩
  obtain ⟨f', hf', rfl⟩ := List.mem_map.mp live
  rcases ages.frames f' hf' with ⟨f, hf, key⟩ | ⟨new, -⟩
  · have same : f.id = f'.id := congrArg Prod.fst key
    exact gone.absent (same ▸ List.mem_map_of_mem hf)
  · exact Nat.lt_irrefl _ (Nat.lt_of_lt_of_le gone.issued new)

/-! ### Drains -/

theorem same_close (d : Drain) (r : Registry β) (result : Except Failure DrainOutcome) :
    r.Same (d.close r result).2 := by
  unfold Drain.close
  split
  · exact same_finishDrain ‹_›
  · exact .refl r

theorem same_advance (d : Drain) (r : Registry β) : r.Same (d.advance r).2 := by
  unfold Drain.advance
  split
  · exact same_popAction ‹_›
  · exact (same_popAction ‹_›).trans (same_close ..)
  · exact same_close ..

theorem same_settle (d : Drain) (r : Registry β) (failure? : Option Failure) :
    r.Same (d.settle r failure?).2 := by
  unfold Drain.settle
  split
  · exact same_advance ..
  · split
    · exact same_advance ..
    · exact same_close ..

end Registry

/-! ### Records -/

/-- The counts of a drain. -/
structure Drain.Balanced (d : Drain) : Prop where
  failures : d.aggregator.failures ≤ d.executed
  /-- What has failed is known. -/
  chained : d.aggregator.failures ≠ 0 → d.aggregator.chain?.isSome = true

/-- A drain that has come to its end says what happened. -/
structure DrainOutcome.Fair (o : DrainOutcome) : Prop where
  failures : o.failures ≤ o.executed
  reason : o.reason = o.pending ∧ o.failures = 0 ∨ o.reason.kind = .throw ∧ 0 < o.failures

namespace Drain

variable {β : Type} {d d' : Drain} {r r' : Registry β}

theorem Balanced.fair (h : d.Balanced) : d.outcome.Fair := by
  refine ⟨h.failures, ?_⟩
  show d.aggregator.resolve = d.aggregator.pending ∧ d.aggregator.failures = 0 ∨
    d.aggregator.resolve.kind = .throw ∧ 0 < d.aggregator.failures
  unfold Aggregator.resolve Aggregator.built?
  by_cases none : d.aggregator.failures = 0
  · rw [if_pos none]
    exact .inl ⟨rfl, none⟩
  · obtain ⟨c, chain⟩ := Option.isSome_iff_exists.mp (h.chained none)
    rw [if_neg none, chain]
    exact .inr ⟨rfl, Nat.pos_of_ne_zero none⟩

/-- What a drain goes on with: the next action, or its outcome. -/
structure Goes (d : Drain) (next : DrainStep β) : Prop where
  run : ∀ action d', next = .run action d' → d' = { d with executed := d.executed + 1 }
  ended : ∀ o, next = .ended (.ok o) → o = d.outcome

theorem goes_close {result : Except Failure DrainOutcome} (own : ∀ o, result = .ok o → o = d.outcome) :
    d.Goes (.ended (d'.close r result).1 : DrainStep β) := by
  refine ⟨fun _ _ e => (by cases e), fun o e => ?_⟩
  have closed := DrainStep.ended.inj e
  unfold Drain.close at closed
  split at closed
  · exact own o closed
  · cases closed

theorem goes_advance (d : Drain) (r : Registry β) : d.Goes (d.advance r).1 := by
  unfold Drain.advance
  split
  · exact ⟨fun _ _ e => (DrainStep.run.inj e).2.symm, fun _ e => by cases e⟩
  · exact goes_close fun o e => (Except.ok.inj e).symm
  · exact goes_close fun _ e => by cases e

/-- The end of an action is counted, and the drain goes on, or gives up. -/
theorem goes_settle (h : d.Balanced) (running : d.aggregator.failures < d.executed) (r : Registry β)
    (failure? : Option Failure) : ∃ d' : Drain, d'.Balanced ∧ d'.handle = d.handle ∧ d'.frame = d.frame ∧
      d'.aggregator.pending = d.aggregator.pending ∧ d'.Goes (d.settle r failure?).1 := by
  unfold Drain.settle
  split
  · exact ⟨d, h, rfl, rfl, rfl, goes_advance ..⟩
  · split
    · rename_i failure _
      exact ⟨{ d with aggregator := d.aggregator.record failure }, ⟨running, fun _ => rfl⟩, rfl, rfl, rfl,
        goes_advance ..⟩
    · exact ⟨d, h, rfl, rfl, rfl, goes_close fun _ e => by cases e⟩

/-- A drain starts with the innermost frame, and nothing is counted yet. -/
theorem start_innermost {h : FrameHandle} {mode : ActionMode} {reason : ExitReason}
    (e : Drain.start r h mode reason = .ok (d, r')) :
    r.Ages r' ∧ d.handle = h ∧ d.executed = 0 ∧ d.aggregator = .start reason ∧
      ∃ f ∈ r.frames, h.frame = f.id ∧ d.frame.key = f.key := by
  simp only [Drain.start, Bind.bind, Except.bind] at e
  split at e
  · contradiction
  · split at e
    · contradiction
    · split at e
      · contradiction
      · rename_i begun
        simp only [Pure.pure, Except.pure, Except.ok.injEq, Prod.mk.injEq] at e
        obtain ⟨outer, f, frames, handle, -, g, -⟩ := Registry.beginDrain_ok begun
        obtain ⟨rfl, rfl⟩ := e
        refine ⟨(Registry.same_beginDrain begun).ages, rfl, rfl, rfl, f, by simp [frames], by rw [handle], ?_⟩
        rw [g]
        rfl

end Drain

end ScopeExit
