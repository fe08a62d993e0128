import ScopeExit.Proofs.Script.Rejection
import ScopeExit.Proofs.Script.Twin
/-!
Raising the limit on the depth of calls.

The limit is looked at in one place, where a function of the script is called.  So as long as no call of a
run is refused, the run under a higher limit is its twin: at every moment the two are in the same state, but
for the limit, and they show the same.

Whether a call is refused is a matter of the state before the step, not of what comes of it: the failure of a
refused call may well be raised again later, and an exhausted stack of the host ends in the same failure.
-/
namespace ScopeExit.Script

open World

/-- The next step makes a call that is refused because it goes too deep. -/
def Running.RefusesCall (s : Running) : Prop :=
  s.CallsFunction ∧ s.world.config.maxCallDepth ≤ s.world.depth

/-- The same configuration with another limit on the depth of calls. -/
def Config.limited (config : Config) (limit : Int) : Config := { config with maxCallDepth := limit }

/-- What two runs of a program come to at the same moment, if their tasks go on in the same order and the
first one has refused no call. -/
inductive Abreast (c c' : Config) (program : Node) : Running → Running → Prop
  | start : Abreast c c' program (.start c program.withIdentities) (.start c' program.withIdentities)
  | step {s t s' t' : Running} (before : Abreast c c' program s t) (grants : ¬ s.RefusesCall)
      (next : s.step = .next s') (next' : t.step = .next t') : Abreast c c' program s' t'
  | reorder {w w' : World} {stack stack' : Stack} {loop : Loop Stack}
      (before : Abreast c c' program ⟨w, .parked, stack⟩ ⟨w', .parked, stack'⟩)
      (other : w.loop.Reorders loop)
      (other' : w'.loop.Reorders { loop with promises := w'.loop.promises }) :
      Abreast c c' program ⟨{ w with loop := loop }, .parked, stack⟩
        ⟨{ w' with loop := { loop with promises := w'.loop.promises } }, .parked, stack'⟩

/-- A program runs the same under a second configuration, unless the first one refuses a call: in whatever
order the tasks of a run go on that refuses no call, those of another run under the second configuration may
go on so too; as long as they do, the two show the same and end at the same moment and alike. -/
structure RunsAlikeUnlessRefused (c c' : Config) (program : Node) : Prop where
  forth : ∀ {before : List Running} {s : Running}, Trace c program before s →
    (∀ t ∈ before, ¬ t.RefusesCall) → ∃ before' s', Trace c' program before' s' ∧ Abreast c c' program s s'
  /-- A run under the second configuration goes along with one under the first as long as that refuses no
  call. -/
  back : ∀ {before' : List Running} {s' : Running}, Trace c' program before' s' →
    (∃ before s, Trace c program before s ∧ (∀ t ∈ before, ¬ t.RefusesCall) ∧ Abreast c c' program s s') ∨
      ∃ t' ∈ before', ∃ t, Abreast c c' program t t' ∧ t.RefusesCall
  shows : ∀ {s s' : Running}, Abreast c c' program s s' → s.world.ShowsAlike s'.world
  steps : ∀ {s s' : Running}, Abreast c c' program s s' → ¬ s.RefusesCall →
    Running.Step.Alike s.step s'.step
  ends : (∀ n t, Transition.run Running.step n (.start c program.withIdentities) = .exhausted t →
    ¬ t.RefusesCall) → (runToEnd c program).Alike (runToEnd c' program)

/-! ### Refused calls -/

section Refused

variable {w : World} {stack : Stack}

theorem call_refused {callee : Callee} {arguments : List Value}
    (calls : ∃ closure, callee.function = .function closure) (deep : w.config.maxCallDepth ≤ w.depth) :
    w.call stack callee arguments = ⟨w, .raise tooDeep, stack⟩ := by
  obtain ⟨closure, function⟩ := calls
  rw [World.call, function]
  exact if_pos deep

theorem callMethod_refused {object key : Value} {scope : Nat}
    (calls : ∃ closure, w.method? object key = some (.function closure))
    (deep : w.config.maxCallDepth ≤ w.depth) :
    w.callMethod stack object key [] scope = ⟨(w.getProperty object key).2, .raise tooDeep, stack⟩ := by
  have hminor := minor_getProperty (w := w) object key
  obtain ⟨closure, found⟩ := calls
  unfold World.method? at found
  unfold World.callMethod
  generalize w.getProperty object key = property at hminor found ⊢
  obtain ⟨result, w'⟩ := property
  cases result with
  | error failure => contradiction
  | ok function =>
    simp only [World.perform, World.attempt]
    cases text : w'.heap.text key with
    | error failure => simp [text, Except.isOk, Except.toBool] at found
    | ok name =>
      refine call_refused ⟨closure, ?_⟩ (by rw [hminor.config, hminor.depth]; exact deep)
      simpa [text, Except.isOk, Except.toBool] using found

/-- A refused call raises the failure of a call that goes too deep, and changes nothing else. -/
theorem Running.RefusesCall.step {s : Running} (h : s.RefusesCall) :
    ∃ w stack, s.step = .next ⟨w, .raise tooDeep, stack⟩ ∧ Minor s.world w ∧ s.stack.tail = stack := by
  obtain ⟨w, control, stack⟩ := s
  obtain ⟨calls, deep⟩ := h
  unfold CallsFunction Running.callee? at calls
  simp only at calls deep
  split at calls
  · exact ⟨_, _, congrArg Transition.next (call_refused (calls.imp fun _ => Option.some.inj) deep), .refl w, rfl⟩
  · exact ⟨_, _, congrArg Transition.next (call_refused (calls.imp fun _ => Option.some.inj) deep), .refl w, rfl⟩
  · exact ⟨_, _, congrArg Transition.next (callMethod_refused calls deep), minor_getProperty .., rfl⟩
  · rename_i object callee scope rest
    split at calls
    · rename_i isMember
      have hminor := minor_memberKey (w := w) callee
      have deep' : (w.memberKey callee).2.config.maxCallDepth ≤ (w.memberKey callee).2.depth := by
        rw [hminor.config, hminor.depth]
        exact deep
      have refused : w.findMethod rest object callee [] scope = _ :=
        (if_pos isMember).trans (callMethod_refused calls deep')
      exact ⟨_, _, congrArg Transition.next refused, hminor.trans (minor_getProperty ..), rfl⟩
    · simp at calls
  · simp at calls

end Refused

/-! ### Runs -/

section Limits

variable {config : Config} {limit limit' : Int} {program : Node}

theorem recastable_limited (config : Config) (program : Node) (le : limit ≤ limit') :
    Recastable (config.limited limit) (config.limited limit') (fun _ => false) program where
  start := start_recast program.withIdentities (Bool.or_false _).symm le rfl (.inl rfl) (by simp)
  recasts run := by
    have hconfig := run.config_eq
    exact ⟨by rw [hconfig]; exact le, by rw [hconfig]; rfl, .inl (by rw [hconfig]; rfl), by simp⟩
  sync _ _ _ _ main := by simp at main

/-- The next step of running code, unless it refuses a call, makes none that only it refuses. -/
theorem Running.granted_of {c : Config} {s : Running} (grants : ¬ s.RefusesCall) : s.Granted c :=
  fun h => grants ⟨h.1, h.2.1⟩

theorem Abreast.eq_recast (le : limit ≤ limit') {s t : Running}
    (h : Abreast (config.limited limit) (config.limited limit') program s t) :
    (∃ L, Run (config.limited limit) program L s) ∧ t = s.recast (config.limited limit') fun _ => false := by
  have recastable := recastable_limited config program le
  induction h with
  | start => exact ⟨⟨_, .start⟩, recastable.start⟩
  | step _ grants next next' ih =>
    obtain ⟨⟨L, run⟩, rfl⟩ := ih
    have next'' := recastable.next run (Running.granted_of grants) next
    exact ⟨⟨_, run.step next⟩, Transition.next.inj (next'.symm.trans next'')⟩
  | reorder _ other _ ih =>
    obtain ⟨⟨L, run⟩, twin⟩ := ih
    obtain ⟨rfl, -, rfl⟩ := Running.mk.inj twin
    refine ⟨⟨L, run.reorder other⟩, ?_⟩
    rw [reordered_recast other]
    rfl

theorem Abreast.forth (le : limit ≤ limit') {before : List Running} {s : Running}
    (trace : Trace (config.limited limit) program before s) (grants : ∀ t ∈ before, ¬ t.RefusesCall) :
    (∃ before', Trace (config.limited limit') program before'
      (s.recast (config.limited limit') fun _ => false)) ∧
      Abreast (config.limited limit) (config.limited limit') program s
        (s.recast (config.limited limit') fun _ => false) := by
  have recastable := recastable_limited config program le
  induction trace with
  | start =>
    rw [← recastable.start]
    exact ⟨⟨_, .start⟩, .start⟩
  | @next before s s' trace leads ih =>
    obtain ⟨L, run⟩ := trace.run
    obtain ⟨⟨before', trace'⟩, abreast⟩ := ih fun t ht => grants t (List.mem_cons_of_mem s ht)
    have granted := grants s List.mem_cons_self
    cases leads with
    | step next =>
      have next' := recastable.next run (Running.granted_of granted) next
      exact ⟨⟨_, trace'.next (.step next')⟩, abreast.step granted next next'⟩
    | reorder other =>
      have abreast' := abreast.reorder other
      rw [reordered_recast other] at abreast'
      exact ⟨⟨_, trace'.next (.reorder (reorders_recast other))⟩, abreast' (reorders_recast other)⟩

theorem Abreast.back (le : limit ≤ limit') {before' : List Running} {s' : Running}
    (trace' : Trace (config.limited limit') program before' s') :
    (∃ before s, Trace (config.limited limit) program before s ∧ (∀ t ∈ before, ¬ t.RefusesCall) ∧
      Abreast (config.limited limit) (config.limited limit') program s s') ∨
      ∃ t' ∈ before', ∃ t, Abreast (config.limited limit) (config.limited limit') program t t' ∧
        t.RefusesCall := by
  have recastable := recastable_limited config program le
  induction trace' with
  | start => exact .inl ⟨[], _, .start, List.forall_mem_nil _, .start⟩
  | @next before' t' s' trace' leads ih =>
    rcases ih with ⟨before, t, trace, grants, abreast⟩ | ⟨u', mem, u, abreast, refuses⟩
    · by_cases refuses : t.RefusesCall
      · exact .inr ⟨t', List.mem_cons_self, t, abreast, refuses⟩
      obtain ⟨⟨L, run⟩, twin⟩ := abreast.eq_recast le
      have grants' : ∀ u ∈ t :: before, ¬ u.RefusesCall := List.forall_mem_cons.mpr ⟨refuses, grants⟩
      cases leads with
      | step next' =>
        obtain ⟨s, next, -⟩ := recastable.next_back run (Running.granted_of refuses) (twin ▸ next')
        exact .inl ⟨_, s, trace.next (.step next), grants', abreast.step refuses next next'⟩
      | reorder other =>
        obtain ⟨w, control, stack⟩ := t
        obtain ⟨rfl, rfl, rfl⟩ := Running.mk.inj twin
        obtain ⟨loop, reorders, rfl⟩ := reorders_of_recast other
        exact .inl ⟨_, _, trace.next (.reorder reorders), grants', abreast.reorder reorders other⟩
    · exact .inr ⟨u', List.mem_cons_of_mem t' mem, u, abreast, refuses⟩

end Limits

/-! ### A run that refuses no call -/

instance (s : Running) : Decidable s.RefusesCall :=
  decidable_of_iff ((match s.callee? with | some (.function _) => true | _ => false) = true ∧
    s.world.config.maxCallDepth ≤ s.world.depth) <| and_congr_left' <| by
      unfold Running.CallsFunction
      split <;> simp_all

/-- A run is over after some steps, and none of them refuses a call. -/
def endsGranted : Nat → Running → Bool
  | 0, _ => false
  | n + 1, s => !decide s.RefusesCall &&
    match s.step with
    | .next s' => endsGranted n s'
    | .halt _ => true

theorem not_refusesCall_of_endsGranted {n : Nat} {s : Running} (ends : endsGranted n s = true) (k : Nat)
    (t : Running) (reaches : Transition.run Running.step k s = .exhausted t) : ¬ t.RefusesCall := by
  induction k generalizing n s with
  | zero =>
    obtain rfl := RunResult.exhausted.inj reaches
    cases n with
    | zero => contradiction
    | succ n =>
      simp only [endsGranted, Bool.and_eq_true, Bool.not_eq_true', decide_eq_false_iff_not] at ends
      exact ends.1
  | succ k ih =>
    cases n with
    | zero => contradiction
    | succ n =>
      simp only [endsGranted, Bool.and_eq_true] at ends
      unfold Transition.run at reaches
      cases next : s.step with
      | halt result =>
        rw [next] at reaches
        contradiction
      | next s' =>
        rw [next] at reaches ends
        exact ih ends.2 reaches

/-- A function that calls another one. -/
def nestedCalls : Node :=
  let name (x : Text) : Node := { kind := .identifier, value := .text x }
  let called (f : Node) : Node := { kind := .expressionStatement, children := [{ kind := .call, children := [f] }] }
  let function (f : Text) (statements : List Node) : Node :=
    { kind := .function, value := .text f, children := [{ kind := .block, children := statements }] }
  { kind := .program, children := [function "f" [], function "g" [called (name "f")], called (name "g")] }

end ScopeExit.Script
