import ScopeExit.Proofs.Script.Discipline
/-!
Deferred bodies keep control inside.

The drain of a frame meets the body of an action at two moments, when it starts it and when the body has
come to its end.  The body never ends with a return or a break, so no jump takes the place of what the
frame was left for.  A continue leaves the body only if it names a label that no loop around it carries,
which the check does not see.
-/
namespace ScopeExit.Script

open World

/-- What the drain of a frame may meet of the body of an action, given the labels of the continues that
may leave it. -/
inductive Control.StaysInAction (labels : List Text) : Control → Prop
  | starts {body : Node} {scope : Nat} : StaysInAction labels (.execute body scope)
  | ends : StaysInAction labels (.complete .normal)
  | throws {f : Option Failure} : StaysInAction labels (.complete (.throwing f))
  /-- A failure on its way down the stack, of the kind that handlers take. -/
  | fails {f : Failure} (h : f.isException = true) : StaysInAction labels (.raise f)
  | strays {l : Text} (h : l ∈ labels) : StaysInAction labels (.complete (.continuing (some l)))

/-- Where the end of an action lies on the drain of its frame, the body of the action starts or ends
without a jump to what is around it. -/
def Running.Contained (labels : List Text) (s : Running) : Prop :=
  ∀ boundary a d rest, s.stack = boundary :: .draining a d :: rest → boundary.isBoundary = true →
    s.control.StaysInAction labels

/-- How the body of an action has come to its end, before the drain of its frame goes on. -/
def Running.actionExit? (s : Running) : Option ExitKind :=
  match s.stack, s.control with
  | boundary :: .draining _ _ :: _, .complete reason =>
    if boundary.isBoundary then some reason.kind else none
  | _, _ => none

/-- No body that is contained ends with a return or a break, or with a continue if none may leave it. -/
theorem Running.Contained.exit {labels : List Text} {s : Running} (contained : s.Contained labels)
    {kind : ExitKind} (exit : s.actionExit? = some kind) :
    kind = .normal ∨ kind = .throw ∨ kind = .continue ∧ labels ≠ [] := by
  unfold Running.actionExit? at exit
  split at exit
  · rename_i boundary a d rest reason hstack hcontrol
    split at exit
    · rename_i isBoundary
      obtain rfl := Option.some.inj exit
      have stays := contained boundary a d rest hstack isBoundary
      rw [hcontrol] at stays
      cases stays with
      | ends => exact .inl rfl
      | throws => exact .inr (.inl rfl)
      | strays h => exact .inr (.inr ⟨rfl, List.ne_nil_of_mem h⟩)
    · contradiction
  · contradiction

section Containment

variable [Node.Strays] {L : Ledger} {s : Running} {w : World} {boundary : Frame} {a : Nat} {d : Drain}
  {rest : Stack} {p : Port} {marks : List Mark}

/-- Between a boundary and the drain of a frame is the end of an action. -/
theorem Spans.action_of_draining (h : Spans w p (boundary :: .draining a d :: rest) marks .bottom)
    (isBoundary : boundary.isBoundary = true) : ∃ isAsync, p = .action a isAsync := by
  cases h with
  | syncAction rest =>
    cases rest with
    | draining => exact ⟨_, rfl⟩
  | asyncAction _ rest =>
    cases rest with
    | draining => exact ⟨_, rfl⟩
  | frame takes _ => cases takes <;> contradiction
  | syncCall rest | asyncCall rest | asyncTask rest => cases rest
  | generator rest =>
    cases rest with
    | frame takes _ => cases takes
  | _ => contradiction

theorem Good.contained (h : Good L s) : s.Contained Node.Strays.labels := by
  intro boundary a d rest hstack isBoundary
  have port : ∀ {loc w p}, Ready L loc w s.stack p [] → ∃ isAsync, p = .action a isAsync := by
    intro loc w p r
    obtain ⟨marks, spans, -⟩ := r.path
    rw [hstack] at spans
    exact spans.action_of_draining isBoundary
  cases h with
  | execute | action => exact .starts
  | complete r _ completes =>
    obtain ⟨isAsync, rfl⟩ := port r
    rcases Node.Targets.admits_nothing (Region.Completes.admits completes {} rfl) with
      rfl | ⟨f, rfl⟩ | ⟨l, hl, rfl⟩
    · exact .ends
    · exact .throws
    · exact .strays hl
  | raise r passes =>
    obtain ⟨isAsync, rfl⟩ := port r
    exact .fails (Failure.Clean.isException passes)
  | value r form =>
    obtain ⟨isAsync, rfl⟩ := port r
    cases form
  | drain r _ _ =>
    simp only at hstack
    subst hstack
    obtain ⟨marks, spans, -⟩ := r.path
    obtain ⟨isAsync, h⟩ := spans.action_of_draining isBoundary
    cases h
  | evaluate r | resumed r | await r | yield r =>
    obtain ⟨isAsync, h⟩ := port r
    cases h
  | parked => cases hstack

end Containment

/-- **Main result.**  In every run of an accepted program whose generators yield in blocks only, whatever
the order of its tasks, the body of a deferred action ends normally, with a failure, or by a continue that
names no loop around it in the body; if there is no such continue in the program, it ends normally or with
a failure. -/
theorem Run.contains_actions {config : Config} {program : Node} (accepted : Accepted config program)
    {L : Ledger} {s : Running} (run : Run config program L s) : s.Contained program.strayLabels :=
  letI : Node.Strays := ⟨program.strayLabels⟩
  (run.good accepted fun _ => id).contained

/-- A deferred loop that is left by a break out of a block and by one to its own label. -/
def jumpingAction : Node :=
  { kind := .program, children := [
    { kind := .block, children := [
      { kind := .defer, children := [
        { kind := .labeled, label := "a", children := [
          { kind := .whileLoop, children := [
            { kind := .literal, value := .bool true },
            { kind := .block, children := [
              { kind := .labeled, label := "b", children := [
                { kind := .block, children := [{ kind := .break, label := "b" }] }] },
              { kind := .break, label := "a" }] }] }] }] }] }] }

theorem wellFormed_jumpingAction : jumpingAction.WellFormed := by
  refine ⟨rfl, ⟨rfl, fun _ => rfl⟩, List.forall_mem_singleton.mpr ?_⟩
  refine .block ⟨rfl, fun _ => rfl⟩ rfl (List.forall_mem_singleton.mpr ?_)
  refine .defer ⟨rfl, fun _ => rfl⟩ rfl rfl (.labeled ⟨rfl, fun _ => rfl⟩ rfl rfl ?_)
  refine .whileLoop ⟨rfl, fun _ => rfl⟩ rfl rfl (.leaf ⟨rfl, fun _ => rfl⟩ (.inr rfl) rfl) ?_
  refine .block ⟨rfl, fun _ => rfl⟩ rfl (List.forall_mem_cons.mpr ⟨?_, List.forall_mem_singleton.mpr ?_⟩)
  · refine .labeled ⟨rfl, fun _ => rfl⟩ rfl rfl (.block ⟨rfl, fun _ => rfl⟩ rfl ?_)
    exact List.forall_mem_singleton.mpr (.jump ⟨rfl, fun _ => rfl⟩ (.inl rfl) rfl)
  · exact .jump ⟨rfl, fun _ => rfl⟩ (.inl rfl) rfl

theorem accepted_jumpingAction : Accepted {} jumpingAction :=
  ⟨wellFormed_jumpingAction, by decide +kernel, _, rfl⟩

/-- Both breaks are met in the body, which ends normally. -/
theorem contained_jumpingAction : (observed {} jumpingAction 28).2.Contained jumpingAction.strayLabels ∧
    jumpingAction.strayLabels = [] ∧ (observed {} jumpingAction 28).2.actionExit? = some .normal :=
  ⟨(Run.observed {} jumpingAction 28).contains_actions accepted_jumpingAction, by decide +kernel,
    by decide +kernel⟩

/-- A deferred block that is left by a continue with the label of a block in it. -/
def strayingAction : Node :=
  { kind := .program, children := [
    { kind := .block, children := [
      { kind := .defer, children := [
        { kind := .block, children := [
          { kind := .labeled, label := "a", children := [
            { kind := .block, children := [{ kind := .continue, label := "a" }] }] },
          { kind := .throw, children := [{ kind := .literal, value := .text "skipped" }] }] }] }] }] }

theorem wellFormed_strayingAction : strayingAction.WellFormed := by
  refine ⟨rfl, ⟨rfl, fun _ => rfl⟩, List.forall_mem_singleton.mpr ?_⟩
  refine .block ⟨rfl, fun _ => rfl⟩ rfl (List.forall_mem_singleton.mpr ?_)
  refine .defer ⟨rfl, fun _ => rfl⟩ rfl rfl (.block ⟨rfl, fun _ => rfl⟩ rfl ?_)
  refine List.forall_mem_cons.mpr ⟨?_, List.forall_mem_singleton.mpr ?_⟩
  · refine .labeled ⟨rfl, fun _ => rfl⟩ rfl rfl (.block ⟨rfl, fun _ => rfl⟩ rfl ?_)
    exact List.forall_mem_singleton.mpr (.jump ⟨rfl, fun _ => rfl⟩ (.inr (.inl rfl)) rfl)
  · refine .simple ⟨rfl, fun _ => rfl⟩ (.inr (.inr rfl)) ?_
    exact List.forall_mem_singleton.mpr (.leaf ⟨rfl, fun _ => rfl⟩ (.inr rfl) rfl)

/-- The check accepts the block although the continue leaves it, so that it never comes to the throw. -/
theorem uncontained_strayingAction :
    Accepted {} strayingAction ∧ ¬ (observed {} strayingAction 22).2.Contained [] := by
  refine ⟨⟨wellFormed_strayingAction, by decide +kernel, _, rfl⟩, fun contained => ?_⟩
  have exit : (observed {} strayingAction 22).2.actionExit? = some .continue := by decide +kernel
  simpa using contained.exit exit

end ScopeExit.Script
