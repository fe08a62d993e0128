import ScopeExit.Proofs.Script.Enclosure
import ScopeExit.Proofs.Script.Steps
/-!
Where code binds names.

Code runs in scopes that are there, and names are bound in a scope by the statements that run in it, by the
parameters of a function and by assignments.  `Tidy` says which scopes the code of a run knows, under a rule
for the names that statements may bind: whatever binds names without an assignment does so where the rule
allows it.  It says also that the code of a `for` loop runs inside the scope of the pass of the loop, up to
the next boundary.

The changes of a world are gone through here.  None of them gives up a scope, and none of them touches what
the rule forbids, unless it is an assignment.
-/
namespace ScopeExit.Script

open World

/-! ### Scopes of code -/

/-- The scope that a place is looked up from. -/
def Place.scopes : Place → List Nat
  | .name _ scope => [scope]
  | .property .. => []

def PlaceUse.scopes : PlaceUse → List Nat
  | .update .. => []
  | .assign _ _ scope => [scope]

/-- The scopes that the code of a frame goes on in. -/
def Frame.scopes : Frame → List Nat
  | .statements _ scope | .declare _ _ _ scope _ | .ifCondition _ scope | .forStart _ scope
  | .forCondition _ scope | .forPass _ scope | .forStep _ scope | .forOfSubject _ scope _
  | .switchSubject _ scope _ | .switchTest _ _ _ _ scope | .tryBody _ _ scope | .catchBody _ scope
  | .templatePart _ _ scope | .binaryLeft _ _ scope | .logicalLeft _ _ scope | .calleeObject _ _ scope
  | .calleeKey _ _ scope | .calleeValue _ _ scope | .argument _ _ _ scope | .newCallee _ scope
  | .newArgument _ _ _ scope | .indexObject _ scope | .arrayElement _ _ scope | .objectProperty _ _ _ scope
  | .conditionalTest _ scope | .sequenceElement _ scope | .parameter _ _ _ _ scope => [scope]
  | .whileCondition loop | .whilePass loop | .doPass loop | .doCondition loop => [loop.scope]
  | .forOfNext loop | .forOfPass loop => [loop.scope]
  | .placeObject _ scope use => scope :: use.scopes
  | .placeKey _ use => use.scopes
  | .assignValue place | .assignCombined place _ _ => place.scopes
  | _ => []

/-- The scope of the pass of a `for` loop. -/
def Frame.loopScope? : Frame → Option Nat
  | .forStart _ scope | .forCondition _ scope | .forPass _ scope | .forStep _ scope => some scope
  | _ => none

/-- The code of a frame may bind a name in a scope without an assignment. -/
def Frame.Binds : Frame → Nat → Text → Prop
  | .statements _ scope | .ifCondition _ scope | .switchTest _ _ _ _ scope | .tryBody _ _ scope
  | .catchBody _ scope | .parameter _ _ _ _ scope => fun i _ => i = scope
  | .declare _ name rest _ target => fun i other => i = target ∧ other ∈ name :: rest.map Node.name
  | _ => fun _ _ => False

/-- Frames that stand for no `for` loop and bind no names. -/
def Frame.isQuiet : Frame → Bool
  | .statements .. | .ifCondition .. | .switchTest .. | .tryBody .. | .catchBody .. | .parameter ..
  | .declare .. => false
  | f => f.loopScope?.isNone

def Control.scopes : Control → List Nat
  | .execute _ scope | .evaluate _ scope => [scope]
  | _ => []

/-- A statement binds names in its scope.  A declaration binds there the names that it declares, and none if it
declares them for the whole function. -/
def Control.Binds : Control → Nat → Text → Prop
  | .execute node scope => fun i name =>
    i = scope ∧ (node.kind = .declaration → (node.name == "var") = false ∧ name ∈ node.children.map Node.name)
  | _ => fun _ _ => False

/-- The scopes of the loops around code, up to the nearest boundary, are around a scope. -/
def Stack.Surrounds (s : Scopes) (i : Nat) : Stack → Prop
  | [] => True
  | f :: stack => f.isBoundary = true ∨ (∀ j ∈ f.loopScope?, s.Encloses j i) ∧ Surrounds s i stack

/-- Code on a stack may run in a scope. -/
structure Stack.Admits (s : Scopes) (stack : Stack) (i : Nat) : Prop where
  born : i < s.all.size
  around : stack.Surrounds s i

/-- A loop on a stack may have a pass in a scope: the scope is inside of one that code may run in. -/
def Stack.AdmitsLoop (s : Scopes) (stack : Stack) (i : Nat) : Prop :=
  ∃ p, (s.get i).parent = some p ∧ stack.Admits s p

section Tidy

variable (may : Nat → Text → Prop)

/-- A frame runs its code where it may, and binds what it may. -/
structure Frame.Tidy (s : Scopes) (stack : Stack) (f : Frame) : Prop where
  scopes : ∀ i ∈ f.scopes, stack.Admits s i
  born : ∀ i name, f.Binds i name → i < s.all.size
  binds : ∀ i name, f.Binds i name → may i name
  inner : ∀ i ∈ f.loopScope?, stack.AdmitsLoop s i

structure Control.Tidy (s : Scopes) (stack : Stack) (c : Control) : Prop where
  scopes : ∀ i ∈ c.scopes, stack.Admits s i
  binds : ∀ i name, c.Binds i name → may i name

def Stack.Tidy (s : Scopes) : Stack → Prop
  | [] => True
  | f :: stack => f.Tidy may s stack ∧ Tidy s stack

/-- A deferred action runs in a scope that is there, and may bind names. -/
structure Deferred.Tidy (s : Scopes) (x : Deferred) : Prop where
  born : x.scope < s.all.size
  binds : ∀ name, may x.scope name

structure World.Tidy (w : World) : Prop where
  allows : w.scopes.Allows may
  ordered : w.scopes.Ordered
  outermost : 0 < w.scopes.all.size
  closures : ∀ c ∈ w.heap.closures, c.scope < w.scopes.all.size
  actions : ∀ a, ∀ x ∈ (w.registry a).arena.actions, x.body.Tidy may w.scopes
  generators : ∀ g code, w.generator g = .suspended code → code.Tidy may w.scopes
  parked : ∀ t code, (w.loop.promise t).parked? = some code → code.Tidy may w.scopes

/-- A tidy world with a tidy stack. -/
structure World.Bears (w : World) (stack : Stack) : Prop where
  world : w.Tidy may
  stack : stack.Tidy may w.scopes

/-- Running code knows the scopes that it needs, and all that binds names may do so. -/
structure Running.Tidy (r : Running) : Prop extends r.world.Bears may r.stack where
  control : r.control.Tidy may r.world.scopes r.stack

end Tidy

/-! ### Stacks -/

section Stacks

variable {may : Nat → Text → Prop} {s s' : Scopes} {i j : Nat} {stack code : Stack} {f b : Frame} {c : Control}

theorem Frame.loopScope?_of_isQuiet (quiet : f.isQuiet = true) : f.loopScope? = none := by
  cases f <;> first | rfl | contradiction

theorem Frame.not_binds_of_isQuiet (quiet : f.isQuiet = true) {name : Text} : ¬ f.Binds i name := by
  cases f <;> first | exact id | contradiction

theorem Stack.Surrounds.mono (grows : s.Grows s') (h : stack.Surrounds s i) : stack.Surrounds s' i := by
  induction stack with
  | nil => trivial
  | cons f stack ih => exact h.imp_right fun h => ⟨fun j hj => grows.encloses (h.1 j hj), ih h.2⟩

/-- What is around a scope is around the scopes inside of it. -/
theorem Stack.Surrounds.inside (h : stack.Surrounds s i) (around : s.Encloses i j) : stack.Surrounds s j := by
  induction stack with
  | nil => trivial
  | cons f stack ih => exact h.imp_right fun h => ⟨fun k hk => (h.1 k hk).trans around, ih h.2⟩

/-- A boundary ends what the code above has to do with the code below. -/
theorem Stack.surrounds_append (boundary : b.isBoundary = true) (rest : Stack) :
    Stack.Surrounds s i (code ++ b :: rest) ↔ code.Surrounds s i := by
  induction code with
  | nil => exact ⟨fun _ => trivial, fun _ => .inl boundary⟩
  | cons f code ih => exact or_congr Iff.rfl (and_congr_right fun _ => ih)

/-- Code under the frame of a loop runs inside of the scope of the pass. -/
theorem Stack.Surrounds.encloses {upper lower : Stack} (h : Stack.Surrounds s i (upper ++ f :: lower))
    (straight : ∀ g ∈ upper, g.isBoundary = false) (own : f.loopScope? = some j) : s.Encloses j i := by
  induction upper with
  | nil =>
    rcases h with boundary | ⟨around, -⟩
    · cases f <;> contradiction
    · exact around j own
  | cons g upper ih =>
    obtain ⟨first, others⟩ := List.forall_mem_cons.mp straight
    rcases h with boundary | ⟨-, below⟩
    · rw [first] at boundary
      contradiction
    · exact ih below others

theorem Stack.Admits.mono (grows : s.Grows s') (h : stack.Admits s i) : stack.Admits s' i :=
  ⟨Nat.lt_of_lt_of_le h.born grows.size, h.around.mono grows⟩

theorem Stack.Admits.push (h : stack.Admits s i) (straight : f.loopScope? = none) :
    Stack.Admits s (f :: stack) i := by
  refine ⟨h.born, .inr ⟨fun j hj => ?_, h.around⟩⟩
  rw [straight] at hj
  cases hj

/-- Code of a loop runs in the scope of the pass. -/
theorem Stack.Admits.loop (h : stack.Admits s i) (own : f.loopScope? = some i) :
    Stack.Admits s (f :: stack) i := by
  refine ⟨h.born, .inr ⟨fun j hj => ?_, h.around⟩⟩
  rw [own] at hj
  obtain rfl := Option.some.inj hj
  exact .self

/-- Above a boundary code may run anywhere. -/
theorem Stack.Admits.boundary (born : i < s.all.size) (boundary : b.isBoundary = true) :
    Stack.Admits s (b :: stack) i := ⟨born, .inl boundary⟩

theorem Stack.admits_append (boundary : b.isBoundary = true) (rest : Stack) :
    Stack.Admits s (code ++ b :: rest) i ↔ code.Admits s i :=
  ⟨fun h => ⟨h.born, (surrounds_append boundary rest).mp h.around⟩,
    fun h => ⟨h.born, (surrounds_append boundary rest).mpr h.around⟩⟩

theorem Stack.AdmitsLoop.mono (grows : s.Grows s') (h : stack.AdmitsLoop s i) : stack.AdmitsLoop s' i := by
  obtain ⟨p, parent, admits⟩ := h
  exact ⟨p, (grows.parent i (Scopes.lt_of_parent parent)).trans parent, admits.mono grows⟩

theorem Stack.AdmitsLoop.admits (h : stack.AdmitsLoop s i) : stack.Admits s i := by
  obtain ⟨p, parent, admits⟩ := h
  exact ⟨Scopes.lt_of_parent parent, admits.around.inside (.inside parent .self)⟩

/-- A scope that is added inside of another one may be that of a loop. -/
theorem Stack.AdmitsLoop.add (h : stack.Admits s i) {scope : Scope} (parent : scope.parent = some i) :
    stack.AdmitsLoop (s.add scope).2 s.all.size := by
  refine ⟨i, ?_, h.mono (s.grows_add scope)⟩
  rw [Scopes.get_add]
  exact parent

theorem Stack.AdmitsLoop.child {w : World} (h : stack.Admits w.scopes i) :
    stack.AdmitsLoop (w.childScope i).2.scopes w.scopes.all.size := .add h rfl

theorem Frame.Tidy.mono (grows : s.Grows s') (h : f.Tidy may s stack) : f.Tidy may s' stack where
  scopes i hi := (h.scopes i hi).mono grows
  born i name binds := Nat.lt_of_lt_of_le (h.born i name binds) grows.size
  binds := h.binds
  inner i hi := (h.inner i hi).mono grows

theorem Stack.Tidy.mono (grows : s.Grows s') (h : stack.Tidy may s) : stack.Tidy may s' := by
  induction stack with
  | nil => trivial
  | cons f stack ih => exact ⟨h.1.mono grows, ih h.2⟩

theorem Control.Tidy.mono (grows : s.Grows s') (h : c.Tidy may s stack) : c.Tidy may s' stack :=
  ⟨fun i hi => (h.scopes i hi).mono grows, h.binds⟩

theorem Deferred.Tidy.mono {x : Deferred} (grows : s.Grows s') (h : x.Tidy may s) : x.Tidy may s' :=
  ⟨Nat.lt_of_lt_of_le h.born grows.size, h.binds⟩

theorem Frame.tidy_append (boundary : b.isBoundary = true) (rest : Stack) :
    f.Tidy may s (code ++ b :: rest) ↔ f.Tidy may s code := by
  constructor
  · intro h
    refine ⟨fun i hi => (Stack.admits_append boundary rest).mp (h.scopes i hi), h.born, h.binds, fun i hi => ?_⟩
    obtain ⟨p, parent, admits⟩ := h.inner i hi
    exact ⟨p, parent, (Stack.admits_append boundary rest).mp admits⟩
  · intro h
    refine ⟨fun i hi => (Stack.admits_append boundary rest).mpr (h.scopes i hi), h.born, h.binds, fun i hi => ?_⟩
    obtain ⟨p, parent, admits⟩ := h.inner i hi
    exact ⟨p, parent, (Stack.admits_append boundary rest).mpr admits⟩

theorem Stack.tidy_append (boundary : b.isBoundary = true) (rest : Stack) :
    Stack.Tidy may s (code ++ b :: rest) ↔ code.Tidy may s ∧ Stack.Tidy may s (b :: rest) := by
  induction code with
  | nil => exact ⟨fun h => ⟨trivial, h⟩, And.right⟩
  | cons f code ih =>
    simp only [List.cons_append, Stack.Tidy] at ih ⊢
    rw [Frame.tidy_append boundary, ih, and_assoc]

theorem Stack.Tidy.suffix {rest : Stack} (h : stack.Tidy may s) (below : rest <:+ stack) : rest.Tidy may s := by
  obtain ⟨upper, rfl⟩ := below
  induction upper with
  | nil => exact h
  | cons f upper ih => exact ih h.2

/-- Frames that have to do with no scope. -/
theorem Frame.tidy_of_isQuiet (quiet : f.isQuiet = true) (scopes : ∀ i ∈ f.scopes, stack.Admits s i) :
    f.Tidy may s stack where
  scopes := scopes
  born _ _ binds := absurd binds (not_binds_of_isQuiet quiet)
  binds _ _ binds := absurd binds (not_binds_of_isQuiet quiet)
  inner i hi := by rw [loopScope?_of_isQuiet quiet] at hi; cases hi

section Narrow

variable {may' : Nat → Text → Prop}

/-- Another rule may forbid more, but not where the frame may have to do with it. -/
theorem Frame.Tidy.narrow (h : f.Tidy may s stack) (old : ∀ i < s.all.size, ∀ name, may i name → may' i name) :
    f.Tidy may' s stack :=
  ⟨h.scopes, h.born, fun i name binds => old i (h.born i name binds) name (h.binds i name binds), h.inner⟩

theorem Stack.Tidy.narrow (h : stack.Tidy may s) (old : ∀ i < s.all.size, ∀ name, may i name → may' i name) :
    stack.Tidy may' s := by
  induction stack with
  | nil => trivial
  | cons f stack ih => exact ⟨h.1.narrow old, ih h.2⟩

theorem Deferred.Tidy.narrow {x : Deferred} (h : x.Tidy may s)
    (old : ∀ i < s.all.size, ∀ name, may i name → may' i name) : x.Tidy may' s :=
  ⟨h.born, fun name => old _ h.born name (h.binds name)⟩

end Narrow

/-- What is no code has to do with no scope. -/
theorem Control.tidy_of_not_isCode (other : c.isCode = false) : c.Tidy may s stack := by
  cases c <;> first | contradiction | exact ⟨fun i hi => (by cases hi), fun i name binds => binds.elim⟩

end Stacks

/-! ### Changes of the world -/

/-- What becomes of a world: scopes only come to be, and a binding only changes where the rule allows it, or
where a name is assigned. -/
structure World.Advances (may assigned : Nat → Text → Prop) (w w' : World) : Prop where
  grows : w.scopes.Grows w'.scopes
  keeps : w.scopes.Keeps (fun i name => may i name ∨ assigned i name) w'.scopes
  tidy : w'.Tidy may

section Advances

variable {may assigned : Nat → Text → Prop} {w w' w'' : World} {stack : Stack} {f : Frame}

theorem World.Advances.trans (h : w.Advances may assigned w') (h' : w'.Advances may assigned w'') :
    w.Advances may assigned w'' := ⟨h.grows.trans h'.grows, h.keeps.trans h'.keeps, h'.tidy⟩

theorem World.Bears.advance (h : w.Bears may stack) (e : w.Advances may assigned w') : w'.Bears may stack :=
  ⟨e.tidy, h.stack.mono e.grows⟩

/-- What is kept elsewhere stays tidy where the scopes grow. -/
theorem World.Tidy.grow (hw : w.Tidy may) (grows : w.scopes.Grows w'.scopes) (ordered : w'.scopes.Ordered)
    (closures : ∀ c ∈ w'.heap.closures, c ∈ w.heap.closures ∨ c.scope < w'.scopes.all.size)
    (actions : ∀ a, ∀ x ∈ (w'.registry a).arena.actions,
      (∃ b, x ∈ (w.registry b).arena.actions) ∨ x.body.Tidy may w'.scopes)
    (generators : ∀ g code, w'.generator g = .suspended code →
      w.generator g = .suspended code ∨ code.Tidy may w'.scopes)
    (parked : ∀ t code, (w'.loop.promise t).parked? = some code →
      (w.loop.promise t).parked? = some code ∨ code.Tidy may w'.scopes) : w'.Tidy may where
  allows := hw.allows.mono grows
  ordered := ordered
  outermost := Nat.lt_of_lt_of_le hw.outermost grows.size
  closures c hc := (closures c hc).elim (fun old => Nat.lt_of_lt_of_le (hw.closures c old) grows.size) id
  actions a x hx := (actions a x hx).elim (fun ⟨b, old⟩ => (hw.actions b x old).mono grows) id
  generators g code e := (generators g code e).elim (fun old => (hw.generators g code old).mono grows) id
  parked t code e := (parked t code e).elim (fun old => (hw.parked t code old).mono grows) id

/-- The scopes are as they were. -/
theorem World.Tidy.advances (hw : w.Tidy may) (scopes : w'.scopes = w.scopes)
    (closures : ∀ c ∈ w'.heap.closures, c ∈ w.heap.closures ∨ c.scope < w.scopes.all.size)
    (actions : ∀ a, ∀ x ∈ (w'.registry a).arena.actions,
      (∃ b, x ∈ (w.registry b).arena.actions) ∨ x.body.Tidy may w.scopes)
    (generators : ∀ g code, w'.generator g = .suspended code →
      w.generator g = .suspended code ∨ code.Tidy may w.scopes)
    (parked : ∀ t code, (w'.loop.promise t).parked? = some code →
      (w.loop.promise t).parked? = some code ∨ code.Tidy may w.scopes) : w.Advances may assigned w' where
  grows := scopes ▸ .refl _
  keeps := scopes ▸ .refl _
  tidy := by
    rw [← scopes] at closures actions generators parked
    exact hw.grow (scopes ▸ .refl _) (scopes ▸ hw.ordered) closures actions generators parked

theorem World.Tidy.refl (hw : w.Tidy may) : w.Advances may assigned w := ⟨.refl _, .refl _, hw⟩

/-- Nothing changes that has to do with scopes. -/
theorem World.Tidy.same (hw : w.Tidy may) (scopes : w'.scopes = w.scopes)
    (closures : w'.heap.closures = w.heap.closures) (activations : w'.activations = w.activations)
    (generators : w'.generators = w.generators) (loop : w'.loop = w.loop) : w.Advances may assigned w' := by
  refine hw.advances scopes (fun c hc => .inl (closures ▸ hc)) (fun a x hx => .inl ⟨a, ?_⟩)
    (fun g code e => .inl ?_) fun t code e => .inl (loop ▸ e)
  · rwa [World.registry, World.activation, activations] at hx
  · rwa [World.generator, generators] at e

theorem World.Tidy.heap (hw : w.Tidy may) {heap : Heap} (closures : heap.closures = w.heap.closures) :
    w.Advances may assigned { w with heap := heap } := hw.same rfl closures rfl rfl rfl

/-- Only the scopes change. -/
theorem World.Tidy.scopes (hw : w.Tidy may) {scopes : Scopes} (grows : w.scopes.Grows scopes)
    (keeps : w.scopes.Keeps (fun i name => may i name ∨ assigned i name) scopes) (ordered : scopes.Ordered) :
    w.Advances may assigned { w with scopes := scopes } :=
  ⟨grows, keeps, hw.grow grows ordered (fun _ => .inl) (fun a _ hx => .inl ⟨a, hx⟩) (fun _ _ => .inl)
    fun _ _ => .inl⟩

theorem World.Tidy.addScope (hw : w.Tidy may) {scope : Scope}
    (older : ∀ p, scope.parent = some p → p < w.scopes.all.size) :
    w.Advances may assigned { w with scopes := (w.scopes.add scope).2 } :=
  hw.scopes (w.scopes.grows_add scope) ((w.scopes.keeps_add scope hw.allows).mono fun _ _ => .inl)
    (hw.ordered.add older)

/-- When a scope is added, the rule for it may be a new one:  nothing that there is yet has to do with it. -/
theorem World.Bears.extend {may' : Nat → Text → Prop} (h : w.Bears may stack) {scope : Scope}
    (older : ∀ p, scope.parent = some p → p < w.scopes.all.size)
    (old : ∀ i < w.scopes.all.size, ∀ name, may i name → may' i name)
    (allows : (w.scopes.add scope).2.Allows may') :
    World.Bears may' { w with scopes := (w.scopes.add scope).2 } stack := by
  have grows := w.scopes.grows_add scope
  refine ⟨⟨allows, h.world.ordered.add older, Nat.lt_of_lt_of_le h.world.outermost grows.size, fun c hc => ?_,
    fun a x hx => ?_, fun g code e => ?_, fun t code e => ?_⟩, (h.stack.narrow old).mono grows⟩
  · exact Nat.lt_of_lt_of_le (h.world.closures c hc) grows.size
  · exact ((h.world.actions a x hx).narrow old).mono grows
  · exact ((h.world.generators g code e).narrow old).mono grows
  · exact ((h.world.parked t code e).narrow old).mono grows

theorem World.Tidy.bind (hw : w.Tidy may) {scope : Nat} {name : Text} (value : Value)
    (allowed : may scope name ∨ assigned scope name) : w.Advances may assigned (w.bind scope name value) :=
  hw.scopes (w.scopes.grows_bind scope name value) (w.scopes.keeps_bind value allowed)
    (hw.ordered.of_grows (w.scopes.grows_bind scope name value) (w.scopes.size_bind ..))

/-- A binding is added to what became of a world. -/
theorem World.Advances.bind (e : w.Advances may assigned w') {scope : Nat} {name : Text} (value : Value)
    (allowed : may scope name ∨ assigned scope name) : w.Advances may assigned (w'.bind scope name value) :=
  e.trans (e.tidy.bind value allowed)

theorem World.Tidy.makeConstant (hw : w.Tidy may) (scope : Nat) (name : Text) :
    w.Advances may assigned { w with scopes := w.scopes.makeConstant scope name } :=
  hw.scopes (w.scopes.grows_makeConstant scope name) (fun i other _ => w.scopes.binding?_makeConstant scope i name other)
    (hw.ordered.of_grows (w.scopes.grows_makeConstant scope name) (w.scopes.size_makeConstant ..))

theorem World.Tidy.define (hw : w.Tidy may) (kind : Text) {name : Text} {target : Nat} (value : Value)
    (allowed : may target name) : w.Advances may assigned (w.define kind name target value) := by
  have bound : w.Advances may assigned (w.bind target name value) := hw.bind value (.inl allowed)
  simp only [World.define]
  split
  · exact bound.trans (bound.tidy.makeConstant target name)
  · exact bound

/-- A new scope is open for all names. -/
theorem World.Tidy.fresh (hw : w.Tidy may) (name : Text) : may w.scopes.all.size name :=
  hw.allows.fresh _ (Nat.le_refl _) name

theorem World.Tidy.childScope (hw : w.Tidy may) {scope : Nat} (born : scope < w.scopes.all.size) :
    w.Advances may assigned (w.childScope scope).2 :=
  hw.addScope fun _ parent => Option.some.inj parent ▸ born

/-- Changing the world by what a computation gives. -/
theorem World.Tidy.change {α β : Type} {r : Except Failure α} {go : World → α → β × World} (hw : w.Tidy may)
    (h : ∀ x, r = .ok x → w.Advances may assigned (go w x).2) : w.Advances may assigned (w.change r go).2 := by
  cases r with
  | ok x => exact h x rfl
  | error failure => exact hw.refl

theorem World.Tidy.makeFunction (hw : w.Tidy may) (node : Node) {scope : Nat} (born : scope < w.scopes.all.size) :
    w.Advances may assigned (w.makeFunction node scope).2 := by
  unfold World.makeFunction
  split
  · exact hw.refl
  · refine hw.advances rfl (fun c hc => ?_) (fun a _ hx => .inl ⟨a, hx⟩) (fun _ _ => .inl) fun _ _ => .inl
    rcases Array.mem_push.mp hc with old | rfl
    · exact .inl old
    · exact .inr born

theorem World.Tidy.hoist (hw : w.Tidy may) {scope : Nat} (born : scope < w.scopes.all.size)
    (allowed : ∀ name, may scope name) (statements : List Node) :
    w.Advances may assigned (w.hoist scope statements).1 := by
  induction statements generalizing w with
  | nil => exact hw.refl
  | cons s rest ih =>
    have made : w.Advances may assigned (w.makeFunction s scope).2 := hw.makeFunction s born
    unfold World.hoist
    split
    · split
      · rename_i v w' e
        rw [e] at made
        have bound : w'.Advances may assigned (w'.bind scope s.name v) := made.tidy.bind v (.inl (allowed _))
        refine (made.trans bound).trans (ih bound.tidy ?_)
        exact Nat.lt_of_lt_of_le born (made.grows.trans bound.grows).size
      · rename_i failure w' e
        rw [e] at made
        exact made
    · exact ih hw born

theorem World.Tidy.setRegistry (hw : w.Tidy may) (a : Nat) {r : Registry Deferred}
    (actions : ∀ x ∈ r.arena.actions, x ∈ (w.registry a).arena.actions ∨ x.body.Tidy may w.scopes) :
    w.Advances may assigned (w.setRegistry a r) := by
  refine hw.advances rfl (fun _ => .inl) (fun b x hx => ?_) (fun _ _ => .inl) fun _ _ => .inl
  by_cases own : b = a ∧ b < w.activations.size
  · obtain ⟨rfl, inside⟩ := own
    rw [w.registry_setRegistry_self inside] at hx
    exact (actions x hx).imp_left fun old => ⟨b, old⟩
  · rw [World.registry, World.activation_setRegistry, if_neg own] at hx
    exact .inl ⟨b, hx⟩

theorem World.Tidy.setGenerator (hw : w.Tidy may) (g : Nat) {state : GeneratorState}
    (suspended : ∀ code, state = .suspended code → code.Tidy may w.scopes) :
    w.Advances may assigned (w.setGenerator g state) := by
  refine hw.advances rfl (fun _ => .inl) (fun a _ hx => .inl ⟨a, hx⟩) (fun g' code e => ?_) fun _ _ => .inl
  rcases generator_setGenerator w g state g' with ⟨-, new | done⟩ | ⟨-, old⟩
  · exact .inr (suspended code (new.symm.trans e))
  · cases done.symm.trans e
  · exact .inl (old.symm.trans e)

theorem World.Tidy.closure (hw : w.Tidy may) (i : Nat) : (w.heap.closure i).scope < w.scopes.all.size := by
  rw [Heap.closure, Array.getD_eq_getD_getElem?]
  by_cases hi : i < w.heap.closures.size
  · rw [Array.getElem?_eq_getElem hi]
    exact hw.closures _ (Array.getElem_mem hi)
  · rw [Array.getElem?_eq_none (Nat.le_of_not_lt hi)]
    exact hw.outermost

/-- Only the loop changes, and with it the code that is parked. -/
theorem World.Tidy.relooped (hw : w.Tidy may) (scopes : w'.scopes = w.scopes) (heap : w'.heap = w.heap)
    (activations : w'.activations = w.activations) (generators : w'.generators = w.generators)
    (parked : ∀ t code, (w'.loop.promise t).parked? = some code →
      (w.loop.promise t).parked? = some code ∨ code.Tidy may w.scopes) : w.Advances may assigned w' := by
  refine hw.advances scopes (fun c hc => .inl (heap ▸ hc)) (fun a x hx => .inl ⟨a, ?_⟩) (fun g code e => .inl ?_)
    parked
  · rwa [World.registry, World.activation, activations] at hx
  · rwa [World.generator, generators] at e

end Advances

end ScopeExit.Script
