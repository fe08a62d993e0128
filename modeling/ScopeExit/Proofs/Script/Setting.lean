import ScopeExit.Proofs.Script.Following
import ScopeExit.Proofs.Tree.Constructs
/-!
The setting of code.

Code runs for an activation, in a body of the program, and with some constructs of that body around it.
All of this can be read off the stack below: the end of the activation is there, and every loop, switch
and labeled statement that was entered has left a frame.  `Settled` says that the code is what the program
has there: a statement that is about to run, or that a frame keeps for later, occurs in the program with
the very constructs around it whose frames are on the stack, and the scope that it runs in belongs to the
activation.

A completion that asks for a construct finds one, if every jump of the program does.
-/
namespace ScopeExit

/-- A function of the program, as far as its parts are concerned. -/
structure Closure.Holds (program : Node) (c : Closure) : Prop where
  params : ∀ p ∈ c.params, ∀ n ∈ p.children, program.Holds n
  body : program.Occurs [] c.body

/-- A completion is no jump, or there is a construct that takes it, if all jumps of the program have
one. -/
def ExitReason.Met (program : Node) (path : Path) (r : ExitReason) : Prop :=
  program.JumpsMeet → r.isJump = true → ∃ c ∈ path, c.meets r = true

section Nodes

variable {program n m : Node} {path path' : Path} {r : ExitReason}

theorem Node.Occurs.holds (h : program.Occurs path n) : program.Holds n := ⟨path, h⟩

/-- A function of the program makes a closure of its parts. -/
theorem Node.Holds.closure (h : program.Holds n) (kind : n.kind.isFunction = true) :
    ∀ m ∈ n.params.flatMap Node.children ++ n.children, program.Occurs [] m := by
  intro m hm
  obtain ⟨path, h⟩ := h
  refine h.part ?_
  have own : n.parts path = (n.params.flatMap Node.children ++ n.children).map ([], ·) := by
    unfold Node.parts
    cases hk : n.kind <;> first | rfl | (rw [hk] at kind; contradiction)
  rw [own]
  exact List.mem_map_of_mem hm

theorem met_of_not_jump (h : r.isJump = false) : r.Met program path :=
  fun _ jump => absurd jump (by simp [h])

/-- Where no construct is around, no jump completes. -/
theorem ExitReason.Met.anywhere (h : r.Met program []) : r.Met program path := by
  intro all jump
  obtain ⟨c, hc, -⟩ := h all jump
  contradiction

/-- A completion that a construct does not take is for those around it. -/
theorem ExitReason.Met.tail {c : Construct} (h : r.Met program (c :: path)) (passes : c.meets r = false) :
    r.Met program path := by
  intro all jump
  obtain ⟨c', hc', meets⟩ := h all jump
  rcases List.mem_cons.mp hc' with rfl | hc'
  · rw [passes] at meets
    contradiction
  · exact ⟨c', hc', meets⟩

/-- A jump of the program finds its target. -/
theorem Node.Occurs.met (h : program.Occurs path n) (leaves : n.leaves? = some r) : r.Met program path :=
  fun all _ => all path n r h leaves

end Nodes

namespace Script

open World

/-! ### Settings -/

/-- The activation that code runs for, and the constructs around it in its body. -/
structure Setting where
  activation : Nat
  path : Path

/-- The construct that a frame stands for. -/
def Frame.construct? : Frame → Option Construct
  | .whilePass loop | .doPass loop => some (.loop loop.labels loop.body)
  | .forPass loop _ => some (.loop loop.labels loop.body)
  | .forOfPass loop => some (.loop loop.labels loop.body)
  | .switchEnd labels => some (.switch labels)
  | .labeled labels => some (.labeled labels)
  | _ => none

/-- The setting above a frame.  A body begins at the end of its activation, that of a deferred action at
a boundary. -/
def Setting.above (Γ : Setting) : Frame → Setting
  | .activationEnd a => ⟨a, []⟩
  | .syncBoundary | .asyncDrive => ⟨Γ.activation, []⟩
  | f => ⟨Γ.activation, f.construct?.toList ++ Γ.path⟩

/-- The setting of code that runs on a stack. -/
def Stack.setting (stack : Stack) : Setting := stack.foldr (fun f Γ => Γ.above f) ⟨0, []⟩

section Belongs

variable (program : Node) (w : World) (Γ : Setting)

/-- Statements that are to run in a scope of the setting. -/
structure Setting.Keeps (scope : Nat) (nodes : List Node) : Prop where
  scope : ScopeIn w Γ.activation scope
  occurs : ∀ n ∈ nodes, program.Occurs Γ.path n

/-- The parts of a loop occur in the setting. -/
structure PlainLoop.Belongs (loop : PlainLoop) : Prop where
  scope : ScopeIn w Γ.activation loop.scope
  condition : program.Holds loop.condition
  body : program.Occurs (.loop loop.labels loop.body :: Γ.path) loop.body

structure CountingLoop.Belongs (scope : Nat) (loop : CountingLoop) : Prop where
  scope : ScopeIn w Γ.activation scope
  condition : program.Holds loop.condition
  step : program.Holds loop.step
  body : program.Occurs (.loop loop.labels loop.body :: Γ.path) loop.body

structure ElementLoop.Belongs (loop : ElementLoop) : Prop where
  scope : ScopeIn w Γ.activation loop.scope
  body : program.Occurs (.loop loop.labels loop.body :: Γ.path) loop.body

/-- The operand that is assigned to a place occurs in the program. -/
def PlaceUse.Holds : PlaceUse → Prop
  | .update .. => True
  | .assign _ right _ => program.Holds right

/-- A drain that is asked for is one of the activation. -/
def Request.Belongs : Request → Prop
  | .drain a _ reason => a = Γ.activation ∧ reason.Met program Γ.path
  | _ => True

/-- What a frame keeps belongs to the setting below the frame. -/
def Frame.Belongs : Frame → Prop
  | .statements rest scope => Γ.Keeps program w scope rest
  | .declare _ _ rest _ _ => ∀ d ∈ rest, ∀ n ∈ d.children, program.Holds n
  | .scopeBody a _ atEnd => a = Γ.activation ∧ atEnd.Met program Γ.path
  | .draining a d => a = Γ.activation ∧ d.aggregator.pending.Met program Γ.path
  | .ifCondition node scope => Γ.Keeps program w scope node.children
  | .whileCondition loop | .whilePass loop | .doPass loop | .doCondition loop =>
    loop.Belongs program w Γ
  | .forStart loop scope | .forCondition loop scope | .forPass loop scope | .forStep loop scope =>
    loop.Belongs program w Γ scope
  | .forOfSubject node scope labels =>
    ScopeIn w Γ.activation scope ∧
      ∀ body, node.children[1]? = some body → program.Occurs (.loop labels body :: Γ.path) body
  | .forOfNext loop | .forOfPass loop => loop.Belongs program w Γ
  | .forOfClose reason => reason.Met program Γ.path
  | .switchSubject node scope labels =>
    ScopeIn w Γ.activation scope ∧
      ∀ c ∈ node.children.drop 1, ∀ n ∈ c.children, program.Occurs (.switch labels :: Γ.path) n
  | .switchTest _ clause rest fallback scope =>
    Γ.Keeps program w scope ((clause :: rest).flatMap Node.children) ∧
      ∀ clauses ∈ fallback, Γ.Keeps program w scope (clauses.flatMap Node.children)
  | .tryBody handler finalizer scope => Γ.Keeps program w scope (finalizer :: handler.children)
  | .catchBody finalizer scope => Γ.Keeps program w scope [finalizer]
  | .finallyBody completion => completion.Met program Γ.path
  | .templatePart _ rest _ | .argument _ _ rest _ | .newArgument _ _ rest _ | .arrayElement _ rest _
  | .sequenceElement rest _ | .calleeKey _ rest _ | .calleeValue _ rest _ | .newCallee rest _ =>
    ∀ n ∈ rest, program.Holds n
  | .binaryLeft _ operand _ | .logicalLeft _ operand _ | .indexObject operand _ =>
    ∀ n ∈ operand, program.Holds n
  | .placeObject target _ use => (∀ n ∈ target.children, program.Holds n) ∧ use.Holds program
  | .placeKey _ use => use.Holds program
  | .calleeObject callee rest _ => ∀ n ∈ callee.children ++ rest, program.Holds n
  | .objectProperty _ _ rest _ => ∀ p ∈ rest, ∀ n ∈ p.children, program.Holds n
  | .conditionalTest node _ => ∀ n ∈ node.children, program.Holds n
  | .parameter _ _ rest _ scope =>
    ScopeIn w Γ.activation scope ∧ Γ.path = [] ∧ ∀ p ∈ rest, ∀ n ∈ p.children, program.Holds n
  | .functionEnd => Γ.path = []
  | .taskStart request => request.Belongs program Γ
  | _ => True

/-- What code does next belongs to its setting. -/
def Control.Belongs : Control → Prop
  | .execute n scope => Γ.Keeps program w scope [n]
  | .evaluate n _ => program.Holds n
  | .complete reason => reason.Met program Γ.path
  | .suspend request => request.Belongs program Γ
  | _ => True

/-- Every frame of a stack belongs to the setting below it. -/
def Stack.Settled : Stack → Prop
  | [] => True
  | f :: stack => f.Belongs program w (Stack.setting stack) ∧ Settled stack

/-- What a world keeps belongs where it is kept. -/
structure World.Settled : Prop where
  closures : ∀ c ∈ w.heap.closures, c.Holds program
  actions : ∀ a, ∀ x ∈ (w.registry a).arena.actions,
    Setting.Keeps program w ⟨a, []⟩ x.body.scope [x.body.body]
  generators : ∀ g code, w.generator g = .suspended code → code.Settled program w
  parked : ∀ t code, (w.loop.promise t).parked? = some code → code.Settled program w

/-- Everything is where it belongs. -/
structure Running.Settled (s : Running) : Prop where
  world : s.world.Settled program
  stack : s.stack.Settled program s.world
  control : s.control.Belongs program s.world s.stack.setting

end Belongs

/-! ### Wider worlds -/

/-- The scopes that are there stay, and so do their activations. -/
structure World.Widens (w w' : World) : Prop where
  size : w.scopes.all.size ≤ w'.scopes.all.size
  owners : ∀ i < w.scopes.all.size, (w'.scopes.get i).activation = (w.scopes.get i).activation

section Widens

variable {program : Node} {w w' w'' : World} {Γ : Setting}

theorem World.Widens.refl (w : World) : w.Widens w := ⟨Nat.le_refl _, fun _ _ => rfl⟩

theorem World.Widens.trans (h : w.Widens w') (h' : w'.Widens w'') : w.Widens w'' where
  size := Nat.le_trans h.size h'.size
  owners i hi := (h'.owners i (Nat.lt_of_lt_of_le hi h.size)).trans (h.owners i hi)

theorem World.Widens.of_eq (scopes : w'.scopes = w.scopes) : w.Widens w' :=
  ⟨Nat.le_of_eq (by rw [scopes]), fun _ _ => by rw [scopes]⟩

theorem ScopeIn.widen (wide : w.Widens w') {a scope : Nat} (h : ScopeIn w a scope) : ScopeIn w' a scope :=
  ⟨Nat.lt_of_lt_of_le h.1 wide.size, (wide.owners scope h.1).trans h.2⟩

variable (wide : w.Widens w')

include wide

theorem Setting.Keeps.mono {scope : Nat} {nodes : List Node} (h : Γ.Keeps program w scope nodes) :
    Γ.Keeps program w' scope nodes := ⟨h.scope.widen wide, h.occurs⟩

theorem Frame.Belongs.mono {f : Frame} (h : f.Belongs program w Γ) : f.Belongs program w' Γ := by
  cases f with
  | statements | ifCondition | tryBody | catchBody => exact Setting.Keeps.mono wide h
  | whileCondition | whilePass | doPass | doCondition =>
    exact ⟨h.scope.widen wide, h.condition, h.body⟩
  | forStart | forCondition | forPass | forStep =>
    exact ⟨h.scope.widen wide, h.condition, h.step, h.body⟩
  | forOfSubject | switchSubject | parameter => exact ⟨h.1.widen wide, h.2⟩
  | forOfNext | forOfPass => exact ⟨h.scope.widen wide, h.body⟩
  | switchTest => exact ⟨h.1.mono wide, fun clauses hc => (h.2 clauses hc).mono wide⟩
  | _ => exact h

theorem Control.Belongs.mono {c : Control} (h : c.Belongs program w Γ) : c.Belongs program w' Γ := by
  cases c with
  | execute => exact Setting.Keeps.mono wide h
  | _ => exact h

theorem Stack.Settled.mono {stack : Stack} (h : stack.Settled program w) : stack.Settled program w' := by
  induction stack with
  | nil => trivial
  | cons f stack ih => exact ⟨Frame.Belongs.mono wide h.1, ih h.2⟩

end Widens

/-! ### Small changes -/

/-- The heap and the scopes change, and all new functions are functions of the program. -/
structure World.Touches (program : Node) (w w' : World) : Prop where
  minor : Minor w w'
  wide : w.Widens w'
  closures : ∀ c ∈ w'.heap.closures, c ∈ w.heap.closures ∨ c.Holds program

section Touches

variable {program : Node} {w w' w'' : World}

theorem World.Touches.refl (w : World) : w.Touches program w := ⟨.refl w, .refl w, fun _ => .inl⟩

theorem World.Touches.trans (h : w.Touches program w') (h' : w'.Touches program w'') :
    w.Touches program w'' where
  minor := h.minor.trans h'.minor
  wide := h.wide.trans h'.wide
  closures c hc := (h'.closures c hc).elim (h.closures c) .inr

theorem World.Touches.settled (h : w.Touches program w') (settled : w.Settled program) :
    w'.Settled program where
  closures c hc := (h.closures c hc).elim (settled.closures c) id
  actions a x hx := by
    rw [World.registry, World.activation, h.minor.activations] at hx
    exact (settled.actions a x hx).mono h.wide
  generators g code e := by
    rw [World.generator, h.minor.generators] at e
    exact (settled.generators g code e).mono h.wide
  parked t code e := by
    rw [h.minor.loop] at e
    exact (settled.parked t code e).mono h.wide

theorem touches_heap {heap : Heap} (closures : ∀ c ∈ heap.closures, c ∈ w.heap.closures ∨ c.Holds program) :
    w.Touches program { w with heap := heap } := ⟨minor_heap heap, .of_eq rfl, closures⟩

/-- No function is made. -/
theorem touches_same {heap : Heap} (closures : heap.closures = w.heap.closures) :
    w.Touches program { w with heap := heap } := touches_heap fun _ hc => .inl (closures ▸ hc)

theorem touches_stats (stats : Stats) : w.Touches program { w with stats := stats } :=
  ⟨minor_stats stats, .of_eq rfl, fun _ => .inl⟩

theorem touches_addScope (scope : Scope) :
    w.Touches program { w with scopes := (w.scopes.add scope).2 } :=
  ⟨minor_addScope scope,
    ⟨by simp [Scopes.add], fun _ hi => by rw [Scopes.get_add_of_lt _ _ hi]⟩, fun _ => .inl⟩

theorem touches_childScope (scope : Nat) : w.Touches program (w.childScope scope).2 := touches_addScope _

theorem touches_copyScope (loop : CountingLoop) (scope : Nat) :
    w.Touches program (w.copyScope loop scope).2 := by
  unfold World.copyScope
  split
  · exact touches_addScope _
  · exact .refl w

theorem touches_bind (scope : Nat) (name : Text) (value : Value) :
    w.Touches program (w.bind scope name value) :=
  ⟨minor_bind .., ⟨by simp [World.bind, Scopes.bind], fun _ _ => get_modify _ _ _ (by intro _; rfl) _⟩,
    fun _ => .inl⟩

theorem touches_define (kind name : Text) (target : Nat) (value : Value) :
    w.Touches program (w.define kind name target value) := by
  refine ⟨minor_define .., ?_, ?_⟩
  · simp only [World.define]
    split
    · refine (@touches_bind program w target name value).wide.trans ?_
      exact ⟨by simp [Scopes.makeConstant], fun _ _ => get_modify _ _ _ (by intro _; rfl) _⟩
    · exact (@touches_bind program w target name value).wide
  · simp only [World.define]
    split <;> exact fun _ => .inl

/-- A change by what a computation gives. -/
theorem touches_change {α β : Type} {r : Except Failure α} {f : World → α → β × World}
    (h : ∀ x, w.Touches program (f w x).2) : w.Touches program (w.change r f).2 := by
  cases r with
  | ok x => exact h x
  | error failure => exact .refl w

theorem touches_makeFunction {n : Node} (h : program.Holds n) (kind : n.kind.isFunction = true)
    (scope : Nat) : w.Touches program (w.makeFunction n scope).2 := by
  have parts := h.closure kind
  unfold World.makeFunction
  split
  · exact .refl w
  · rename_i body _ children
    refine touches_heap fun c hc => ?_
    rcases Array.mem_push.mp hc with hc | rfl
    · exact .inl hc
    · refine .inr ⟨fun p hp m hm => ⟨_, parts m ?_⟩, parts body ?_⟩
      · exact List.mem_append_left _ (List.mem_flatMap.mpr ⟨p, hp, hm⟩)
      · rw [children]
        exact List.mem_append_right _ (List.mem_cons_self ..)

/-- Binding the functions among statements. -/
theorem touches_hoist (scope : Nat) {statements : List Node} (h : ∀ s ∈ statements, program.Holds s) :
    w.Touches program (w.hoist scope statements).1 := by
  induction statements generalizing w with
  | nil => exact .refl w
  | cons s rest ih =>
    obtain ⟨hs, hrest⟩ := List.forall_mem_cons.mp h
    unfold World.hoist
    split
    · rename_i kind
      have made := touches_makeFunction (w := w) hs (by rw [kind]; rfl) scope
      split
      · rename_i v w' e
        rw [e] at made
        exact (made.trans (touches_bind ..)).trans (ih hrest)
      · rename_i failure w' e
        rw [e] at made
        exact made
    · exact ih hrest

theorem touches_method (builtin : Builtin) : w.Touches program (w.method builtin).2 := touches_same rfl

/-- All that is known of a function among data is what it is called and how it runs. -/
theorem load_made {P : Closure → Prop} (bare : ∀ name isAsync isGenerator, P { name, isAsync, isGenerator })
    (d : Datum) (h : Heap) : ∀ c ∈ (h.load d).2.closures, c ∈ h.closures ∨ P c := by
  refine Heap.load.induct
    (fun d h => ∀ c ∈ (h.load d).2.closures, c ∈ h.closures ∨ P c)
    (fun ds h => ∀ c ∈ (h.loadEntries ds).2.closures, c ∈ h.closures ∨ P c)
    (fun ds h => ∀ c ∈ (h.loadAll ds).2.closures, c ∈ h.closures ∨ P c)
    ?_ ?_ ?_ ?_ ?_ ?_ ?_ ?_ ?_ ?_ ?_ ?_ ?_ ?_ ?_ ?_ ?_ ?_ d h
  case refine_6 =>
    intro items h vs h' e ih c hc
    simp only [Heap.load, e] at hc
    rw [e] at ih
    exact ih c hc
  case refine_7 =>
    intro className properties h es h' e ih c hc
    simp only [Heap.load, e] at hc
    rw [e] at ih
    exact ih c hc
  case refine_8 =>
    intro name params isAsync isGenerator h c hc
    rcases Array.mem_push.mp hc with hc | rfl
    · exact .inl hc
    · exact .inr (bare name isAsync isGenerator)
  case refine_13 =>
    intro key d h v e c hc
    simp only [Heap.load, e] at hc
    exact .inl hc
  case refine_14 =>
    intro key d h e v h' e' ih c hc
    simp only [Heap.load, e, e'] at hc
    rw [e'] at ih
    exact ih c hc
  case refine_16 =>
    intro d ds h v h' e vs h'' e' ih ih' c hc
    simp only [Heap.loadAll, e, e'] at hc
    rw [e] at ih
    rw [e'] at ih'
    exact (ih' c hc).elim (ih c) .inr
  case refine_18 =>
    intro k d ds h v h' e es h'' e' ih ih' c hc
    simp only [Heap.loadEntries, e, e'] at hc
    rw [e] at ih
    rw [e'] at ih'
    exact (ih' c hc).elim (ih c) .inr
  all_goals
    intros
    exact .inl ‹_›

/-- Functions among data do nothing. -/
theorem load_holds (program : Node) (d : Datum) (h : Heap) :
    ∀ c ∈ (h.load d).2.closures, c ∈ h.closures ∨ c.Holds program :=
  load_made (fun _ _ _ => ⟨fun _ hp => by contradiction, .bare rfl rfl rfl⟩) d h

theorem touches_load (d : Datum) : w.Touches program { w with heap := (w.heap.load d).2 } :=
  touches_heap (load_holds program d w.heap)

theorem touches_memberKey (node : Node) : w.Touches program (w.memberKey node).2 := touches_load _

theorem touches_getProperty (object key : Value) : w.Touches program (w.getProperty object key).2 := by
  refine touches_change fun m => ?_
  cases m with
  | value => exact .refl w
  | method => exact touches_method _

theorem touches_setProperty (object key value : Value) :
    w.Touches program (w.setProperty object key value).2 := by
  unfold World.setProperty
  split
  · exact touches_change fun _ => touches_same rfl
  · exact touches_change fun _ => touches_same rfl
  · split <;> exact .refl w

theorem touches_readPlace (place : Place) : w.Touches program (w.readPlace place).2 := by
  cases place with
  | name => exact .refl w
  | property => exact touches_getProperty _ _

theorem touches_writePlace (place : Place) (value : Value) :
    w.Touches program (w.writePlace place value).2 := by
  cases place with
  | name => exact touches_change fun _ => touches_bind _ _ _
  | property => exact touches_setProperty _ _ _

end Touches

end Script

end ScopeExit
