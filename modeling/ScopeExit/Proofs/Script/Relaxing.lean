import ScopeExit.Proofs.Script.Twin
import ScopeExit.Proofs.Tree.Outside
/-!
Allowing `await` at the top level.

The permission reaches a run in one place: the frames of the module may hold asynchronous actions.  A
program that the check accepts without the permission registers none there, so the run with the permission
is the twin of the run without it.
-/
namespace ScopeExit

/-- The statements that the module runs register synchronous actions, and their clauses and handlers are no
functions. -/
@[reducible] def Node.MainRule.sync : Node.MainRule where
  admits n := n.everyOutside fun m => m.DefersSync ∧ m.PlacesClauses
  children h function c hc := ((Node.everyOutside_iff function).mp h).2 c hc
  clauses h kind c hc s hs := by
    have function := congrArg NodeKind.isFunction kind
    obtain ⟨own, parts⟩ := (Node.everyOutside_iff function).mp h
    exact ((Node.everyOutside_iff (own.2.clauses kind c hc)).mp (parts c (List.mem_of_mem_drop hc))).2 s hs
  handlers := by
    intro n block handler finalizer h kind children s hs
    have function := congrArg NodeKind.isFunction kind
    obtain ⟨own, parts⟩ := (Node.everyOutside_iff function).mp h
    have isHandler := own.2.handler kind handler (by simp [children])
    exact ((Node.everyOutside_iff isHandler).mp (parts handler (by simp [children]))).2 s hs

namespace Script

/-- The same configuration with or without permission to await at the top level. -/
def Config.allowing (config : Config) (allow : Bool) : Config := { config with allowTopLevelAwait := allow }

section Relaxing

variable {config : Config} {program : Node} {found : List Node}

/-- What the module runs of an accepted program follows the rule. -/
theorem admits_sync (root : program.kind.isFunction = false)
    (placed : program.everyOutside Node.PlacesClauses) (accepted : program.validate false = .ok found) :
    ∀ n ∈ program.withIdentities.children, Node.MainRule.sync.admits n := by
  have hsync : program.everyOutside Node.DefersSync := Node.defersSync_of_checked accepted
  have both := Node.everyOutside_and
    (Node.everyOutside_nameLiterals Node.ofKinds_defersSync program.freshKey hsync)
    (Node.everyOutside_nameLiterals Node.ofKinds_placesClauses program.freshKey placed)
  have root' : program.withIdentities.kind.isFunction = false := by
    rw [Node.withIdentities, Node.kind_nameLiterals]
    exact root
  exact ((Node.everyOutside_iff root').mp both).2

/-- The module registers only synchronous actions. -/
theorem Run.registersSync (root : program.kind.isFunction = false)
    (placed : program.everyOutside Node.PlacesClauses) (accepted : program.validate false = .ok found)
    {L : Ledger} {s : Running} (run : Run config program L s) : s.RegistersSync (· == 0) := by
  let _ : Node.MainRule := .sync
  have orderly := run.orderly (admits_sync root placed accepted)
  intro node scope control main defer
  have fits := orderly.fits.resolve_right fun e => Control.noConfusion (control.symm.trans e.1)
  rw [control] at fits
  have admitted := fits (by simpa using main) node (by simp)
  have function : node.kind.isFunction = false := by simp [defer, NodeKind.isFunction]
  exact ((Node.everyOutside_iff function).mp admitted).1.1 defer

/-- A call that is refused without the permission is refused with it. -/
theorem granted_allowing {L : Ledger} {s : Running} (run : Run (config.allowing false) program L s) :
    s.Granted (config.allowing true) := by
  rintro ⟨-, deep, shallow⟩
  rw [run.config_eq] at deep
  exact absurd shallow (Int.not_lt.mpr deep)

theorem recastable_allowing (root : program.kind.isFunction = false)
    (placed : program.everyOutside Node.PlacesClauses) (accepted : program.validate false = .ok found) :
    Recastable (config.allowing false) (config.allowing true) (· == 0) program where
  start := start_recast program.withIdentities rfl (Int.le_refl _) rfl (.inl rfl) (by simp)
  recasts run := by
    let _ : Node.MainRule := .any
    have orderly := run.orderly fun _ _ => trivial
    have hconfig := run.config_eq
    refine ⟨by rw [hconfig]; exact Int.le_refl _, by rw [hconfig]; rfl, .inl (by rw [hconfig]; rfl), fun i hi => ?_⟩
    rw [eq_of_beq hi]
    exact orderly.kept.main
  sync run := run.registersSync root placed accepted

/-- **Main result.**  A program that the check accepts without permission to await at the top level is
accepted with it, with the same actions, and runs the same, if no clause of a switch and no handler of an
attempt is a function. -/
theorem allowing_topLevelAwait (config : Config) (root : program.kind.isFunction = false)
    (placed : program.everyOutside Node.PlacesClauses) (accepted : program.validate false = .ok found) :
    program.validate true = .ok found ∧
      RunsAlike (config.allowing false) (config.allowing true) program :=
  ⟨Node.checked_relaxed accepted, (recastable_allowing root placed accepted).runsAlike granted_allowing rfl⟩

end Relaxing

/-- A deferred action at the top level. -/
def mainDefer : Node :=
  { kind := .program, children := [
    { kind := .defer, children := [
      { kind := .expressionStatement, children := [{ kind := .literal, value := .bool true }] }] }] }

theorem allowing_topLevelAwait_mainDefer :
    mainDefer.kind.isFunction = false ∧ mainDefer.everyOutside Node.PlacesClauses ∧
    mainDefer.validate false = .ok mainDefer.children ∧
    mainDefer.validate true = .ok mainDefer.children ∧
    RunsAlike (Config.allowing {} false) (Config.allowing {} true) mainDefer := by
  have placed : mainDefer.everyOutside Node.PlacesClauses := by
    have other : ∀ n : Node, n.kind ≠ .switch → n.kind ≠ .try → n.PlacesClauses := fun n h h' =>
      ⟨fun kind => absurd kind h, fun kind => absurd kind h'⟩
    refine .inr ⟨other _ (by decide) (by decide), .inr ⟨other _ (by decide) (by decide), ?_, trivial⟩, trivial⟩
    exact .inr ⟨other _ (by decide) (by decide), .inr ⟨other _ (by decide) (by decide), trivial⟩, trivial⟩
  have accepted : mainDefer.validate false = .ok mainDefer.children := rfl
  exact ⟨rfl, placed, accepted, allowing_topLevelAwait {} rfl placed accepted⟩

/-! ### Functions in the wrong place -/

/-- Whether a run that is over shows something, or has ended by a failure that is no failure of a script. -/
def showsResult? : RunResult Running RunEnd → Option Bool
  | .halted result => some result.isOk
  | .exhausted _ => none

theorem runToEnd_isOk {config : Config} {program : Node} {steps : Nat} {isOk : Bool}
    (few : steps ≤ stepLimit) (h : showsResult? (Transition.run Running.step steps
      (Running.start config program.withIdentities)) = some isOk) :
    (runToEnd config program).isOk = isOk := by
  cases hrun : Transition.run Running.step steps (Running.start config program.withIdentities) with
  | exhausted s =>
    rw [hrun] at h
    contradiction
  | halted result =>
    have hfew : steps + (stepLimit - steps) = stepLimit := by omega
    have hlong := Transition.run_halted hrun (stepLimit - steps)
    rw [hfew] at hlong
    rw [hrun] at h
    rw [runToEnd, Script.run, hlong]
    exact Option.some.inj h

theorem RunEnd.Alike.isOk_eq {result result' : RunEnd} (h : result.Alike result') :
    result'.isOk = result.isOk := by
  cases h <;> rfl

/-- A program that is refused under one configuration and shows something under another does not run the
same. -/
theorem not_runsAlike {c c' : Config} {program : Node} {steps : Nat} (few : steps ≤ stepLimit)
    (refused : showsResult? (Transition.run Running.step steps
      (Running.start c program.withIdentities)) = some false)
    (allowed : showsResult? (Transition.run Running.step steps
      (Running.start c' program.withIdentities)) = some true) : ¬ RunsAlike c c' program := by
  intro alike
  have hrefused := runToEnd_isOk few refused
  have hallowed := runToEnd_isOk few allowed
  have same := hallowed.symm.trans (alike.ends.isOk_eq.trans hrefused)
  exact Bool.noConfusion same

/-- An asynchronous function whose body holds an asynchronous action. -/
def asyncHolder : Node :=
  { kind := .functionExpression, isAsync := true, children := [
    { kind := .defer, isAsync := true, children := [
      { kind := .expressionStatement, children := [{ kind := .literal, value := .bool true }] }] }] }

/-- A switch with a clause that is a function. -/
def strayClause : Node :=
  { kind := .program, children := [
    { kind := .switch, children := [
      { kind := .literal, value := .bool true },
      { kind := .case, children := [{ kind := .literal, value := .bool true }] },
      asyncHolder] }] }

/-- An attempt whose handler is a function. -/
def strayHandler : Node :=
  { kind := .program, children := [
    { kind := .try, children := [
      { kind := .block, children := [
        { kind := .throw, children := [{ kind := .literal, value := .bool true }] }] },
      asyncHolder,
      { kind := .empty }] }] }

/-- Where a function stands as a clause, as a handler or as the program, the check looks at its action as one
of the function, and the module runs it as one of its own. -/
theorem stray_notAlike :
    ((∃ found, strayClause.validate false = .ok found) ∧
      ¬ RunsAlike (Config.allowing {} false) (Config.allowing {} true) strayClause) ∧
    ((∃ found, strayHandler.validate false = .ok found) ∧
      ¬ RunsAlike (Config.allowing {} false) (Config.allowing {} true) strayHandler) ∧
    (∃ found, asyncHolder.validate false = .ok found) ∧
      ¬ RunsAlike (Config.allowing {} false) (Config.allowing {} true) asyncHolder := by
  have few : 60 ≤ stepLimit := by simp [stepLimit]
  refine ⟨⟨⟨_, rfl⟩, ?_⟩, ⟨⟨_, rfl⟩, ?_⟩, ⟨_, rfl⟩, ?_⟩
  · exact not_runsAlike few (by decide +kernel) (by decide +kernel)
  · exact not_runsAlike few (by decide +kernel) (by decide +kernel)
  · exact not_runsAlike few (by decide +kernel) (by decide +kernel)

end Script

end ScopeExit
