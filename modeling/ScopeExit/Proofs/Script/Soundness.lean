import ScopeExit.Proofs.Script.Run
/-!
The check keeps the contracts.

An accepted program never breaches a contract while it runs: no frame refuses an action or is drained
twice or left out of turn, no boundary refuses a suspension, and no node is left without a rule.  All that
a run fails with is what a script may fail with.
-/
namespace ScopeExit.Script

open World

/-- A failure that a state shows: on its way down the stack, kept by a promise, or as the end of the
program or of the run. -/
inductive Running.Shows : Running → Failure → Prop
  | raised {s : Running} {f : Failure} (h : s.control = .raise f) : Shows s f
  | completed {s : Running} {reason : ExitReason} {f : Failure} (h : s.control = .complete reason)
      (hf : f ∈ reason.error?) : Shows s f
  | settled {s : Running} {p : Nat} {f : Failure} (h : s.world.loop.outcome? p = some (.error f)) :
      Shows s f
  | ended {s : Running} {f : Failure} (h : s.world.ending? = some (some f)) : Shows s f
  | halted {s : Running} {f : Failure} (h : s.step = .halt (.error f)) : Shows s f

/-- No failure that a state shows holds a breach of a contract. -/
def Running.NoBreach (s : Running) : Prop :=
  ∀ f, s.Shows f → ∀ x ∈ f.leaves, x.severity ≠ .contract

theorem clean_noBreach {f : Failure} (h : f.Clean) : ∀ x ∈ f.leaves, x.severity ≠ .contract := by
  intro x hx
  rw [h x hx]
  decide

/-- A failure that comes down a stack is no breach. -/
theorem Port.Passes.noBreach {p : Port} {f : Failure} (h : p.Passes f) :
    ∀ x ∈ f.leaves, x.severity ≠ .contract := by
  cases p with
  | code form Γ =>
    rcases h with clean | ⟨-, v, rfl⟩
    · exact clean_noBreach clean
    · intro x hx
      rw [List.mem_singleton.mp hx]
      simp [Fault.severity]
  | woken | bottom => exact h.elim
  | _ => exact clean_noBreach h

/-- A run that halts with a failure has ended with it. -/
theorem halted_ended {w : World} {f : Failure} (h : w.continue = .halt (.error f)) :
    w.ending? = some (some f) := by
  unfold World.continue at h
  cases hend : w.end? with
  | none =>
    rw [hend] at h
    simp only at h
    split at h <;> simp at h
  | some result =>
    rw [hend] at h
    obtain rfl := Transition.halt.inj h
    unfold World.end? at hend
    split at hend
    · contradiction
    · split at hend
      · rename_i he _
        obtain rfl := Except.error.inj (Option.some.inj hend)
        exact he
      · split at hend <;> simp at hend
    · split at hend <;> simp at hend

section NoBreach

variable [Node.Strays] {L : Ledger} {s : Running}

/-- What is suspended in a good state fits its world. -/
theorem Good.sys (h : Good L s) : ∃ loc, Sys L loc s.world := by
  cases h with
  | parked sys _ => exact ⟨_, sys⟩
  | execute r _ _ | action r _ _ | evaluate r _ _ | value r _ | complete r _ _ | resumed r
  | raise r _ | await r _ | yield r _ | drain r _ _ => exact ⟨_, r.sys⟩

/-- Only a state that leaves it to the event loop what goes on may halt. -/
theorem Good.halted (h : Good L s) {result : RunEnd} (halt : s.step = .halt result) :
    s.world.continue = .halt result := by
  cases h with
  | parked => exact halt
  | value r form =>
    obtain ⟨f, rest, rfl⟩ := r.ne_nil (by rintro rfl; cases form)
    contradiction
  | complete r form _ =>
    obtain ⟨f, rest, rfl⟩ := r.ne_nil (by rintro rfl; cases form)
    contradiction
  | resumed r =>
    obtain ⟨f, rest, rfl⟩ := r.ne_nil (by simp)
    contradiction
  | raise r passes =>
    obtain ⟨f, rest, rfl⟩ := r.ne_nil (by rintro rfl; exact passes)
    contradiction
  | _ => contradiction

/-- A good state shows no breach. -/
theorem Good.noBreach (h : Good L s) : s.NoBreach := by
  obtain ⟨loc, sys⟩ := h.sys
  have ending : ∀ f, s.world.ending? = some (some f) → ∀ x ∈ f.leaves, x.severity ≠ .contract :=
    fun f e => clean_noBreach (sys.ending f e)
  intro f shows
  cases shows with
  | raised hcontrol =>
    cases h with
    | raise _ passes =>
      obtain rfl := Control.raise.inj hcontrol
      exact passes.noBreach
    | _ => contradiction
  | completed hcontrol hf =>
    cases h with
    | complete _ _ completes =>
      obtain rfl := Control.complete.inj hcontrol
      exact clean_noBreach (completes.clean f hf)
    | _ => contradiction
  | settled hp => exact clean_noBreach (sys.loop.settled _ f hp)
  | ended e => exact ending f e
  | halted halt => exact ending f (halted_ended (h.halted halt))

end NoBreach

/-- **Main result.**  No run of an accepted program whose generators yield in blocks only breaches a
contract of the engine or of the evaluator, whatever the order of its tasks. -/
theorem Run.keeps_contracts {config : Config} {program : Node} (accepted : Accepted config program) {L : Ledger}
    {s : Running} (run : Run config program L s) : s.NoBreach :=
  letI : Node.Strays := ⟨program.strayLabels⟩
  (run.good accepted fun _ => id).noBreach

/-- A block with two deferred actions that both throw. -/
def throwingActions : Node :=
  { kind := .program, children := [
    { kind := .block, children := [
      { kind := .defer, children := [
        { kind := .throw, children := [{ kind := .literal, value := .text "first" }] }] },
      { kind := .defer, isAsync := true, children := [
        { kind := .throw, children := [
          { kind := .await, children := [{ kind := .literal, value := .text "second" }] }] }] }] }] }

theorem wellFormed_throwingActions : throwingActions.WellFormed := by
  refine ⟨rfl, ⟨rfl, fun _ => rfl⟩, List.forall_mem_singleton.mpr ?_⟩
  refine .block ⟨rfl, fun _ => rfl⟩ rfl (List.forall_mem_cons.mpr ⟨?_, List.forall_mem_singleton.mpr ?_⟩)
  · refine .defer ⟨rfl, fun _ => rfl⟩ rfl rfl (.simple ⟨rfl, fun _ => rfl⟩ (.inr (.inr rfl)) ?_)
    exact List.forall_mem_singleton.mpr (.leaf ⟨rfl, fun _ => rfl⟩ (.inr rfl) rfl)
  · refine .defer ⟨rfl, fun _ => rfl⟩ rfl rfl (.simple ⟨rfl, fun _ => rfl⟩ (.inr (.inr rfl)) ?_)
    refine List.forall_mem_singleton.mpr (.operation ⟨rfl, fun _ => rfl⟩ rfl ?_)
    exact List.forall_mem_singleton.mpr (.leaf ⟨rfl, fun _ => rfl⟩ (.inr rfl) rfl)

theorem accepted_throwingActions : Accepted {} throwingActions :=
  ⟨wellFormed_throwingActions, by decide +kernel, _, rfl⟩

/-- The failures of both actions come down the stack as one. -/
theorem noBreach_throwingActions : ∃ f, (observed {} throwingActions 30).2.Shows f ∧
    f.leaves.length = 2 ∧ ∀ x ∈ f.leaves, x.severity ≠ .contract := by
  have hsound := (Run.observed {} throwingActions 30).keeps_contracts accepted_throwingActions
  have hraised : (match (observed {} throwingActions 30).2.control with
    | .raise f => f.leaves.length
    | _ => 0) = 2 := by decide +kernel
  split at hraised
  · rename_i f hcontrol
    exact ⟨f, .raised hcontrol, hraised, hsound f (.raised hcontrol)⟩
  · contradiction

end ScopeExit.Script
