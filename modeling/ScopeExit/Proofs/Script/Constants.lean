import ScopeExit.Proofs.Script.Passes
/-!
Constants.

A declaration with `const` gives its names their values and makes them constant in the same step.  From then on the
name is constant in its scope, and in the scopes that are copied from it for the passes of a loop, and whatever
assigns it fails and changes nothing.

The variable of a loop over elements is not declared by such a statement.  It may be assigned, whatever stood in
front of it in the source.
-/
namespace ScopeExit.Script

open World

/-- The names that a declaration can give their values at once: those without an initial value, up to the first one
that has to wait for its own. -/
def bareNames (declarators : List Node) : List Text :=
  (declarators.takeWhile fun d => (d.child? 0).isNone).map Node.name

/-- A step of a declaration with `const` gives a name its value in a scope. -/
inductive Running.Initialises (name : Text) (target : Nat) : Running → Prop
  | value {w : World} {v : Value} {kind own : Text} {rest : List Node} {scope : Nat} {stack : Stack}
      (const : (kind == "const") = true) (mem : name = own ∨ name ∈ bareNames rest) :
      Initialises name target ⟨w, .value v, .declare kind own rest scope target :: stack⟩
  | execute {w : World} {node : Node} {stack : Stack} (kind : node.kind = .declaration)
      (const : (node.name == "const") = true) (mem : name ∈ bareNames node.children) :
      Initialises name target ⟨w, .execute node target, stack⟩

/-- A scope of a later state is a scope of a state, or has been copied from it for passes of loops. -/
inductive Running.Descends (s : Running) (i : Nat) : Running → Nat → Prop
  | start : Descends s i s i
  | step {t t' : Running} {j : Nat} (before : Descends s i t j) (next : t.step = .next t') : Descends s i t' j
  | copy {t t' : Running} {j : Nat} {loop : CountingLoop} (before : Descends s i t j) (own : loop.perPass = true)
      (renews : t.Renews loop j) (next : t.step = .next t') : Descends s i t' t.world.scopes.all.size
  | reorder {w : World} {stack : Stack} {tasks : Loop Stack} {j : Nat}
      (before : Descends s i ⟨w, .parked, stack⟩ j) (other : w.loop.Reorders tasks) :
      Descends s i ⟨{ w with loop := tasks }, .parked, stack⟩ j

section Constants

variable {config : Config} {program : Node} {L : Ledger} {w : World} {stack : Stack} {kind name : Text}
  {scope target i j : Nat} {rest : List Node} {s s₁ t : Running}

theorem grows_define (kind name : Text) (target : Nat) (value : Value) :
    w.scopes.Grows (w.define kind name target value).scopes := by
  simp only [World.define]
  split
  · exact (Scopes.grows_bind ..).trans (Scopes.grows_makeConstant ..)
  · exact Scopes.grows_bind ..

theorem isConstant_define (const : (kind == "const") = true) (born : target < w.scopes.all.size) (value : Value) :
    (w.define kind name target value).scopes.isConstant target name = true := by
  have bound : target < (w.bind target name value).scopes.all.size :=
    Nat.lt_of_lt_of_eq born (w.scopes.size_bind target name value).symm
  simp only [World.define, if_pos const]
  exact Scopes.isConstant_makeConstant _ name bound

theorem grows_declare (rest : List Node) :
    w.scopes.Grows (declare stack kind scope target w rest).world.scopes := by
  induction rest generalizing w with
  | nil => exact .refl _
  | cons d rest ih =>
    unfold World.declare
    split
    · exact .refl _
    · split
      · exact ih
      · exact (grows_define ..).trans ih

/-- The names that a declaration gives their values at once are constant after the step. -/
theorem isConstant_declare (const : (kind == "const") = true) (born : target < w.scopes.all.size)
    (mem : name ∈ bareNames rest) :
    (declare stack kind scope target w rest).world.scopes.isConstant target name = true := by
  have other : (kind == "var") = false := by
    rw [eq_of_beq const]
    decide
  induction rest generalizing w with
  | nil => contradiction
  | cons d rest ih =>
    unfold World.declare
    cases initial : d.child? 0 with
    | some _ => simp [bareNames, initial] at mem
    | none =>
      have names : name = d.name ∨ name ∈ bareNames rest := by
        simpa [bareNames, List.takeWhile_cons, initial] using mem
      simp only [other, Bool.false_and]
      rcases names with rfl | mem
      · exact (grows_declare rest).constants target _ (isConstant_define const born .undefined)
      · exact ih (Nat.lt_of_lt_of_le born (grows_define ..).size) mem

/-- Where a declaration with `const` gives a name its value, the name is constant after the step. -/
theorem Running.Initialises.constant (h : s.Initialises name target) (tidy : s.Tidy anywhere)
    (next : s.step = .next t) : t.world.scopes.isConstant target name = true := by
  cases h with
  | @value w v kind own rest scope stack const mem =>
    have born : target < w.scopes.all.size := tidy.stack.1.born target own ⟨rfl, List.mem_cons_self ..⟩
    rw [← Transition.next.inj next]
    rcases mem with rfl | mem
    · exact (grows_declare rest).constants target _ (isConstant_define const born v)
    · exact isConstant_declare const (Nat.lt_of_lt_of_le born (grows_define ..).size) mem
  | @execute w node stack kind const mem =>
    have born : target < w.scopes.all.size := (tidy.control.scopes target (List.mem_singleton_self _)).born
    have other : (node.name == "var") = false := by
      rw [eq_of_beq const]
      decide
    rw [← Transition.next.inj next]
    simp only [World.execute, kind, isCompound, World.executeCompound, World.executeDeclaration, other]
    exact isConstant_declare const born mem

theorem isConstant_copy (constant : s.world.scopes.isConstant i name = true) :
    (s.world.scopes.copy i).2.isConstant s.world.scopes.all.size name = true := by
  rw [Scopes.isConstant, Scopes.copy, Scopes.get_add]
  exact constant

/-- A constant stays one, in the scopes that are copied from its scope, too. -/
theorem Run.constant_of_descends (run : Run config program L s) (constant : s.world.scopes.isConstant i name = true)
    (descends : s.Descends i t j) : s.Later t ∧ t.world.scopes.isConstant j name = true := by
  induction descends with
  | start => exact ⟨.refl _, constant⟩
  | step _ next ih =>
    obtain ⟨later, constant⟩ := ih
    obtain ⟨_, there⟩ := run.later later
    exact ⟨later.step next, (there.tends there.tidy next).grows.constants _ _ constant⟩
  | copy _ own renews next ih =>
    obtain ⟨later, constant⟩ := ih
    obtain ⟨_, there⟩ := run.later later
    have copies := @Running.Renews.copies _ _ _ _ anywhere anywhere anywhere renews own there.tidy
      (fun _ _ _ _ => trivial) ⟨fun _ _ _ => trivial, fun _ _ closed => absurd trivial closed⟩ next
    exact ⟨later.step next, copies.grows.constants _ _ (isConstant_copy constant)⟩
  | reorder _ other ih => exact ⟨ih.1.reorder other, ih.2⟩

/-- **Main result.**  In any run of whatever program:  once a declaration with `const`, a statement of its own or the
head of a loop, has given a name its value, every step that assigns the name fails and changes nothing, from whatever
scope the name is looked up and whatever pass of the loop the binding belongs to.  The failure is that of an
assignment to a constant, unless it was an operator that failed on the operands before. -/
theorem Run.keeps_constants (run : Run config program L s) (initialises : s.Initialises name target)
    (next : s.step = .next s₁) (descends : s₁.Descends target t i) :
    t.world.scopes.isConstant i name = true ∧ ∀ scope, t.world.scopes.resolve? scope name = some i →
      (∀ v, t.Puts name scope v → ∃ stack, t.step = .next ⟨t.world, .raise constantFailure, stack⟩) ∧
      (t.Assigns name scope → ∃ failure stack, t.step = .next ⟨t.world, .raise failure, stack⟩ ∧
        (failure = constantFailure ∨ ∃ w v op current below,
          t = ⟨w, .value v, .assignCombined (.name name scope) op current :: below⟩ ∧ ∀ v, ¬ t.Puts name scope v)) := by
  obtain ⟨-, constant⟩ := (run.step next).constant_of_descends (initialises.constant run.tidy next) descends
  refine ⟨constant, fun scope resolves => ⟨fun v puts => puts.constant resolves constant, fun assigns => ?_⟩⟩
  by_cases puts : ∃ v, t.Puts name scope v
  · obtain ⟨v, puts⟩ := puts
    obtain ⟨stack, e⟩ := puts.constant resolves constant
    exact ⟨constantFailure, stack, e, .inl rfl⟩
  · obtain ⟨w, v, op, current, below, failure, rfl, e⟩ := (assigns.puts resolves).resolve_left puts
    exact ⟨failure, below, e, .inr ⟨w, v, op, current, below, rfl, not_exists.mp puts⟩⟩

/-- What is later goes on with the same scope. -/
theorem Running.Later.descends (later : s.Later t) : s.Descends i t i := by
  induction later with
  | refl => exact .start
  | step _ next ih => exact ih.step next
  | reorder _ other ih => exact ih.reorder other

/-- A program that gives a constant another value. -/
def reassigned : Node :=
  { kind := .program, children := [
    { kind := .declaration, value := .text "const", children := [
      { kind := .declarator, value := .text "x", children := [{ kind := .literal, value := .number (.int 1) }] }] },
    { kind := .expressionStatement, children := [
      { kind := .assign, value := .text "=", children := [
        { kind := .identifier, value := .text "x" }, { kind := .literal, value := .number (.int 2) }] }] }] }

/-- The assignment of the other value fails. -/
theorem keeps_constants_reassigned : (observed {} reassigned 3).2.Initialises "x" 1 ∧
    (observe 5 (observed {} reassigned 4)).2.Puts "x" 1 (.number (.int 2)) ∧
    ∃ stack, (observe 5 (observed {} reassigned 4)).2.step =
      .next ⟨(observe 5 (observed {} reassigned 4)).2.world, .raise constantFailure, stack⟩ := by
  have initialises : (observed {} reassigned 3).2.Initialises "x" 1 := .value (by rfl) (.inl rfl)
  have next : (observed {} reassigned 3).2.step = .next (observed {} reassigned 4).2 := by rfl
  have puts : (observe 5 (observed {} reassigned 4)).2.Puts "x" 1 (.number (.int 2)) := .value
  obtain ⟨-, attempts⟩ := (Run.observed {} reassigned 3).keeps_constants initialises next
    (later_observe 5 (observed {} reassigned 4)).descends
  exact ⟨initialises, puts, (attempts 1 (by rfl)).1 _ puts⟩

/-- A program that gives the variable of a loop over elements another value. -/
def elementReassigned : Node :=
  { kind := .program, children := [
    { kind := .forOfLoop, value := .text "x", children := [
      { kind := .array, children := [{ kind := .literal, value := .number (.int 1) }] },
      { kind := .block, children := [
        { kind := .expressionStatement, children := [
          { kind := .assign, value := .text "=", children := [
            { kind := .identifier, value := .text "x" }, { kind := .literal, value := .number (.int 2) }] }] }] }] }] }

/-- The variable of the pass has the other value then. -/
theorem element_reassigned : (observed {} elementReassigned 10).2.Puts "x" 3 (.number (.int 2)) ∧
    (observed {} elementReassigned 10).2.world.scopes.resolve? 3 "x" = some 2 ∧
    (observed {} elementReassigned 10).2.world.scopes.binding? 2 "x" = some (.number (.int 1)) ∧
    (observed {} elementReassigned 11).2.world.scopes.binding? 2 "x" = some (.number (.int 2)) :=
  ⟨.value, by rfl, by rfl, by rfl⟩

end Constants

end ScopeExit.Script
