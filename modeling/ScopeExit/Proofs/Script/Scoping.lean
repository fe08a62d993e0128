import ScopeExit.Proofs.Script.Bindings
import ScopeExit.Proofs.Script.Resumption
import ScopeExit.Proofs.Script.Whereabouts
/-!
What steps do to the bindings of scopes.

Each function of the machine has its lemma here: from a tidy world with a tidy stack it comes to tidy code,
and on the way no binding changes that the rule forbids to change, unless a name is assigned that means this
binding.  Where a step assigns, `Assigns` says so.

**Main results.**  `Running.Tidy.step` is about one step, `Run.tidy` about all states of a run.
-/
namespace ScopeExit.Script

open World

/-! ### Assignments -/

/-- A step assigns a name that is looked up from a scope. -/
inductive Running.Assigns (name : Text) (scope : Nat) : Running → Prop
  /-- An update expression reads the name and assigns it. -/
  | update {w : World} {node target : Node} {rest : List Node} {stack : Stack} (kind : node.kind = .update)
      (children : node.children = target :: rest) (identifier : target.kind = .identifier)
      (own : target.name = name) : Assigns name scope ⟨w, .evaluate node scope, stack⟩
  /-- The right side of an assignment has its value. -/
  | value {w : World} {v : Value} {stack : Stack} :
      Assigns name scope ⟨w, .value v, .assignValue (.name name scope) :: stack⟩
  | combined {w : World} {v current : Value} {op : Option Text} {stack : Stack} :
      Assigns name scope ⟨w, .value v, .assignCombined (.name name scope) op current :: stack⟩

/-- A step assigns the binding of a name in a scope, from the code of some scope. -/
def Running.Rebinds (r : Running) (i : Nat) (name : Text) : Prop :=
  ∃ scope, r.Assigns name scope ∧ r.world.scopes.resolve? scope name = some i

/-- What a place leads to may be assigned. -/
def Place.Leads (s : Scopes) (assigned : Nat → Text → Prop) : Place → Prop
  | .name text scope => ∀ i, s.resolve? scope text = some i → assigned i text
  | .property .. => True

/-! ### Combining steps -/

/-- Running code that a world comes to. -/
structure Running.Tends (may assigned : Nat → Text → Prop) (w : World) (r : Running) : Prop
    extends w.Advances may assigned r.world where
  code : r.Tidy may

section Combining

variable {may assigned : Nat → Text → Prop} {w w' : World} {stack : Stack} {f : Frame} {c : Control} {r : Running}
  {scope : Nat} {node : Node}

theorem World.Bears.push (h : w.Bears may stack) (tidy : f.Tidy may w.scopes stack) : w.Bears may (f :: stack) :=
  ⟨h.world, tidy, h.stack⟩

/-- A frame that has to do with no scope. -/
theorem World.Bears.mark (h : w.Bears may stack) (quiet : f.isQuiet = true) (none : f.scopes = []) :
    w.Bears may (f :: stack) := h.push (Frame.tidy_of_isQuiet quiet fun i hi => by rw [none] at hi; cases hi)

/-- A frame that goes on in the scope of the code that it waits for. -/
theorem World.Bears.wait (h : w.Bears may stack) (admits : stack.Admits w.scopes scope) (quiet : f.isQuiet = true)
    (own : ∀ i ∈ f.scopes, i = scope) : w.Bears may (f :: stack) ∧ Stack.Admits w.scopes (f :: stack) scope :=
  ⟨h.push (Frame.tidy_of_isQuiet quiet fun i hi => own i hi ▸ admits),
    admits.push (Frame.loopScope?_of_isQuiet quiet)⟩

/-- A frame that binds names in the scope of the code that it waits for. -/
theorem World.Bears.keep (h : w.Bears may stack) (admits : stack.Admits w.scopes scope)
    (straight : f.loopScope? = none) (own : ∀ i ∈ f.scopes, i = scope) (binds : ∀ i name, f.Binds i name → i = scope)
    (allowed : ∀ name, may scope name) : w.Bears may (f :: stack) ∧ Stack.Admits w.scopes (f :: stack) scope := by
  refine ⟨h.push ⟨fun i hi => own i hi ▸ admits, fun i name hb => binds i name hb ▸ admits.born,
    fun i name hb => binds i name hb ▸ allowed name, fun i hi => ?_⟩, admits.push straight⟩
  rw [straight] at hi
  cases hi

namespace Running.Tends

theorem comes (h : w.Bears may stack) (tidy : c.Tidy may w.scopes stack) : Tends may assigned w ⟨w, c, stack⟩ :=
  ⟨h.world.refl, h, tidy⟩

theorem here (h : w.Bears may stack) (other : c.isCode = false) : Tends may assigned w ⟨w, c, stack⟩ :=
  comes h (Control.tidy_of_not_isCode other)

theorem evaluates (h : w.Bears may stack) (admits : stack.Admits w.scopes scope) :
    Tends may assigned w ⟨w, .evaluate node scope, stack⟩ :=
  comes h ⟨fun _ hi => List.mem_singleton.mp hi ▸ admits, fun _ _ => False.elim⟩

theorem executes (h : w.Bears may stack) (admits : stack.Admits w.scopes scope)
    (allowed : ∀ name, may scope name) : Tends may assigned w ⟨w, .execute node scope, stack⟩ :=
  comes h ⟨fun _ hi => List.mem_singleton.mp hi ▸ admits, fun _ name binds => binds.1 ▸ allowed name⟩

theorem after (e : w.Advances may assigned w') (h : Tends may assigned w' r) : Tends may assigned w r :=
  ⟨e.trans h.toAdvances, h.code⟩

theorem perform {α : Type} {change : World.Change α} {go : World → α → Running} (h : w.Bears may stack)
    (e : w.Advances may assigned change.2)
    (goes : ∀ x, change.1 = .ok x → change.2.Bears may stack → Tends may assigned change.2 (go change.2 x)) :
    Tends may assigned w (World.perform stack change go) := by
  have bears := h.advance e
  obtain ⟨result, w'⟩ := change
  cases result with
  | ok x => exact .after e (goes x rfl bears)
  | error failure => exact .after e (here bears rfl)

theorem attempt {α : Type} {result : Except Failure α} {go : World → α → Running} (h : w.Bears may stack)
    (goes : ∀ x, result = .ok x → Tends may assigned w (go w x)) :
    Tends may assigned w (w.attempt stack result go) :=
  .perform h h.world.refl fun x e _ => goes x e

end Running.Tends

end Combining

namespace World

open Running

variable {may assigned : Nat → Text → Prop} {w : World} {stack : Stack} {scope : Nat} {f : Frame}

/-! ### Frames of the engine -/

theorem tends_complete (h : w.Bears may stack) (reason : ExitReason) :
    (w.complete stack reason).Tends may assigned w := by
  unfold World.complete
  split <;> exact .here h rfl

/-- The functions among statements are bound, and what comes after that goes on above a frame. -/
theorem tends_hoist {w₁ : World} (e : w.Advances may assigned w₁) (h : w.Bears may (f :: stack))
    (born : scope < w.scopes.all.size) (allowed : ∀ name, may scope name) (statements : List Node)
    {inside : World → Running}
    (goes : ∀ w', w.Advances may assigned w' → w'.Bears may (f :: stack) → (inside w').Tends may assigned w') :
    Running.Tends may assigned w (match w₁.hoist scope statements with
      | (w', none) => inside w'
      | (w', some failure) => ⟨w', .raise failure, f :: stack⟩) := by
  have hoisted : w₁.Advances may assigned (w₁.hoist scope statements).1 :=
    e.tidy.hoist (Nat.lt_of_lt_of_le born e.grows.size) allowed statements
  have whole := e.trans hoisted
  split
  · rename_i w' hw
    rw [hw] at whole
    exact .after whole (goes w' whole (h.advance whole))
  · rename_i w' failure hw
    rw [hw] at whole
    exact .after whole (.here (h.advance whole) rfl)

theorem tends_openFrame (h : w.Bears may stack) (kind : FrameKind) (span : Span) (born : scope < w.scopes.all.size)
    (allowed : ∀ name, may scope name) (statements : List Node) (atEnd : ExitReason)
    {inside : World → Stack → Running}
    (goes : ∀ w' a handle, w.Advances may assigned w' → w'.Bears may (.scopeBody a handle atEnd :: stack) →
      (inside w' (.scopeBody a handle atEnd :: stack)).Tends may assigned w') :
    (w.openFrame stack kind span scope statements atEnd inside).Tends may assigned w := by
  obtain ⟨entered, hentered⟩ : ∃ entered, entered = (w.activation (w.scopes.activation scope)).registry.enter kind
    (w.activation (w.scopes.activation scope)).isAsync span := ⟨_, rfl⟩
  have opened : w.Advances may assigned (w.setRegistry (w.scopes.activation scope) entered.2) :=
    h.world.setRegistry _ fun x hx => .inl (by rwa [hentered] at hx)
  have counted : w.Advances may assigned { w.setRegistry (w.scopes.activation scope) entered.2 with
      stats := { w.stats with framesEntered := w.stats.framesEntered + 1 } } :=
    opened.trans (opened.tidy.same rfl rfl rfl rfl rfl)
  unfold World.openFrame
  simp only
  rw [← hentered]
  exact tends_hoist counted (h.mark rfl rfl) born allowed statements fun w' e bears => goes w' _ _ e bears

theorem tends_enterFrame (h : w.Bears may stack) (kind : FrameKind) (span : Span)
    (admits : stack.Admits w.scopes scope) (allowed : ∀ name, may scope name) (statements : List Node)
    (atEnd : ExitReason) : (w.enterFrame stack kind span scope statements atEnd).Tends may assigned w := by
  refine tends_openFrame h kind span admits.born allowed statements atEnd fun w' a handle e bears => ?_
  have inside := (admits.mono e.grows).push (f := .scopeBody a handle atEnd) rfl
  exact .here (bears.keep (f := .statements statements scope) inside rfl (fun i hi => List.mem_singleton.mp hi)
    (fun _ _ => id) allowed).1 rfl

theorem tends_leaveFrame (h : w.Bears may stack) (a : Nat) (handle : FrameHandle)
    (result : Except Failure DrainOutcome) : (w.leaveFrame stack a handle result).Tends may assigned w := by
  obtain ⟨r, hr⟩ : ∃ r, r = ((w.registry a).leave handle result).registry := ⟨_, rfl⟩
  have left : w.Advances may assigned (w.setRegistry a r) :=
    h.world.setRegistry a fun x hx => .inl (subset_leave _ _ _ (hr ▸ hx))
  simp only [World.leaveFrame, ← hr]
  cases ((w.registry a).leave handle result).record? with
  | none => split <;> exact .after left (.here (h.advance left) rfl)
  | some record =>
    have reported : w.Advances may assigned ((w.setRegistry a r).report record) :=
      left.trans (left.tidy.same rfl rfl rfl rfl rfl)
    split <;> exact .after reported (.here (h.advance reported) rfl)

theorem tends_proceed (h : w.Bears may stack) (a : Nat) (handle : FrameHandle)
    {next : DrainStep Deferred × Registry Deferred} (draws : Draws (w.registry a) next) :
    (w.proceed stack a handle next).Tends may assigned w := by
  obtain ⟨step, r⟩ := next
  have drawn : w.Advances may assigned (w.setRegistry a r) :=
    h.world.setRegistry a fun x hx => .inl (draws.subset hx)
  have bears := h.advance drawn
  cases step with
  | run action d =>
    have tidy := (h.world.actions a action (draws.drawn action d rfl)).mono drawn.grows
    simp only [World.proceed]
    generalize hb : (if action.mode = .async then Frame.asyncDrive else .syncBoundary) = b
    have boundary : b = .asyncDrive ∨ b = .syncBoundary := by
      rw [← hb]
      split
      · exact .inl rfl
      · exact .inr rfl
    have below : World.Bears may (w.setRegistry a r) (.draining a d :: stack) := bears.mark rfl rfl
    refine .after drawn (.executes ?_ (.boundary tidy.born ?_) tidy.binds)
    · rcases boundary with rfl | rfl <;> exact below.mark rfl rfl
    · rcases boundary with rfl | rfl <;> rfl
  | ended result => exact .after drawn (tends_leaveFrame bears a handle result)

theorem tends_drain (h : w.Bears may stack) (a : Nat) (handle : FrameHandle) (mode : ActionMode)
    (reason : ExitReason) : (w.drain stack a handle mode reason).Tends may assigned w := by
  unfold World.drain
  split
  · rename_i d r e
    have start := subset_start e
    have draws := draws_advance d r
    exact tends_proceed h a handle
      ⟨fun x hx => start (draws.subset hx), fun action d' e' => start (draws.drawn action d' e')⟩
  · exact tends_leaveFrame h ..

theorem tends_settleAction (h : w.Bears may stack) (a : Nat) (d : Drain) (failure? : Option Failure) :
    (w.settleAction stack a d failure?).Tends may assigned w :=
  tends_proceed h a d.handle (draws_settle d _ failure?)

theorem tends_leaveBody (h : w.Bears may stack) (a : Nat) (handle : FrameHandle) (reason : ExitReason) :
    (w.leaveBody stack a handle reason).Tends may assigned w := by
  have bears : w.Bears may (.scopeEnd :: stack) := h.mark rfl rfl
  unfold World.leaveBody
  split
  · exact .here bears rfl
  · exact .here bears rfl
  · exact tends_drain bears ..

theorem advances_register (h : w.Tidy may) (node : Node) (born : scope < w.scopes.all.size)
    (allowed : ∀ name, may scope name) : w.Advances may assigned (w.register node scope).2 := by
  unfold World.register
  split
  · exact h.refl
  · dsimp only
    split
    · exact h.refl
    · refine h.change fun r e => h.setRegistry _ fun x hx => ?_
      obtain ⟨outer, f, -, -, -, -, -, rfl⟩ := Registry.register_ok e
      rcases List.mem_append.mp hx with old | new
      · exact .inl old
      · rw [List.mem_singleton.mp new]
        exact .inr ⟨born, allowed⟩

/-! ### Calls -/

theorem tends_enterBody (h : w.Bears may stack) (body : Node) (admits : stack.Admits w.scopes scope)
    (allowed : ∀ name, may scope name) : (w.enterBody stack body scope).Tends may assigned w := by
  unfold World.enterBody
  split
  · exact tends_enterFrame (h.mark rfl rfl) _ _ (admits.push rfl) allowed _ _
  · exact .evaluates h admits

theorem tends_bindParameters (h : w.Bears may stack) (closure : Nat) (admits : stack.Admits w.scopes scope)
    (allowed : ∀ name, may scope name) (rest : List Node) (arguments : List Value) :
    (w.bindParameters stack closure scope rest arguments).Tends may assigned w := by
  induction rest generalizing w arguments with
  | nil => exact tends_enterBody h _ admits allowed
  | cons p rest ih =>
    have binds : ∀ v, ((w.bind scope p.name v).bindParameters stack closure scope rest
        (arguments.drop 1)).Tends may assigned w := by
      intro v
      have bound : w.Advances may assigned (w.bind scope p.name v) := h.world.bind v (.inl (allowed _))
      exact .after bound (ih (h.advance bound) (admits.mono bound.grows) _)
    simp only [World.bindParameters]
    split
    · split
      · obtain ⟨bears, inside⟩ := h.keep (f := .parameter closure p.name rest (arguments.drop 1) scope) admits rfl
          (fun i hi => List.mem_singleton.mp hi) (fun _ _ => id) allowed
        exact .evaluates bears inside
      · exact binds _
    · exact binds _

/-- The body of a function runs in a scope of its own. -/
theorem tends_startBody {b : Frame} (boundary : b.isBoundary = true) (h : w.Bears may (b :: stack))
    (closure activation : Nat) (arguments : List Value) :
    (w.startBody (b :: stack) closure activation arguments).Tends may assigned w := by
  obtain ⟨scope, hscope⟩ : ∃ scope : Scope, scope =
    { parent := some (w.heap.closure closure).scope, activation := some activation, isFunction := true } := ⟨_, rfl⟩
  have older : ∀ p, scope.parent = some p → p < w.scopes.all.size := by
    intro p parent
    rw [hscope] at parent
    exact Option.some.inj parent ▸ h.world.closure closure
  have added : w.Advances may assigned { w with scopes := (w.scopes.add scope).2 } := h.world.addScope older
  unfold World.startBody
  simp only
  rw [← hscope]
  refine .after added (tends_bindParameters ((h.advance added).mark rfl rfl) _ ?_ h.world.fresh _ _)
  refine Stack.Admits.push (.boundary ?_ boundary) rfl
  exact Nat.lt_of_lt_of_eq (Nat.lt_succ_self _) (w.scopes.size_add scope).symm

theorem tends_finished (h : w.Bears may stack) (mode : ResumeMode) (value : Value) :
    (resume.finished stack mode value w).Tends may assigned w := by
  unfold resume.finished
  split <;> exact .here h rfl

theorem tends_resume (h : w.Bears may stack) (g : Nat) (mode : ResumeMode) (value : Value) :
    (w.resume stack g mode value).Tends may assigned w := by
  have running : w.Advances may assigned (w.setGenerator g .running) := h.world.setGenerator g nofun
  have done : w.Advances may assigned (w.setGenerator g .done) := h.world.setGenerator g nofun
  unfold World.resume
  split
  · exact .here h rfl
  · exact tends_finished h ..
  · split
    · exact .after running (tends_startBody rfl ((h.advance running).mark rfl rfl) ..)
    · exact .after done (tends_finished (h.advance done) ..)
  · rename_i code e
    have resumed : World.Bears may (w.setGenerator g .running) (code ++ .generatorBoundary g :: stack) := by
      have below := ((h.advance running).mark (f := .generatorBoundary g) rfl rfl).stack
      exact ⟨running.tidy, (Stack.tidy_append rfl _).mpr ⟨(h.world.generators g code e).mono running.grows, below⟩⟩
    cases mode with
    | next | «return» => exact .after running (.here resumed rfl)
    | throw =>
      simp only
      split
      · exact .after running (.here resumed rfl)
      · exact .after done (.here (h.advance done) rfl)

theorem advances_nap (h : w.Tidy may) (seconds : Float) : w.Advances may assigned (w.nap seconds).2 := by
  refine h.relooped rfl rfl rfl rfl fun t code e => (Loop.parked_add e).imp_right fun e => ?_
  obtain rfl := Option.some.inj e
  exact ⟨Frame.tidy_of_isQuiet rfl (List.forall_mem_nil _), Frame.tidy_of_isQuiet rfl (List.forall_mem_nil _),
    trivial⟩

theorem advances_apply (h : w.Tidy may) (builtin : Builtin) (arguments : List Value) :
    w.Advances may assigned (w.apply builtin arguments).2 := by
  cases builtin with
  | log => exact h.change fun _ _ => h.same rfl rfl rfl rfl rfl
  | tick | sleep => exact h.change fun _ _ => advances_nap h _
  | toText => cases arguments <;> exact h.refl
  | makeError | makeSuppressed => exact h.change fun _ _ => h.heap rfl
  | push => exact h.heap rfl
  | join | resume | named => exact h.refl

theorem tends_callNative (h : w.Bears may stack) (n : Native) (arguments : List Value) :
    (w.callNative stack n arguments).Tends may assigned w := by
  unfold World.callNative
  split
  · exact tends_resume (h.mark rfl rfl) ..
  · exact .perform h (advances_apply h.world ..) fun _ _ bears => .here bears rfl

theorem advances_newActivation (h : w.Tidy may) (name : Text) (isAsync : Bool) (depth : Int) :
    w.Advances may assigned { (w.newActivation name isAsync).2 with depth := depth } := by
  refine h.advances rfl (fun _ => .inl) (fun a x hx => .inl ⟨a, ?_⟩) (fun _ _ => .inl) fun _ _ => .inl
  have hx' : x ∈ ((w.newActivation name isAsync).2.registry a).arena.actions := hx
  rw [registry_newActivation] at hx'
  split at hx'
  · contradiction
  · exact hx'

/-- A new generator has not suspended any code. -/
theorem advances_pushGenerator (h : w.Tidy may) (closure : Nat) (arguments : List Value) (activation : Nat)
    (name : Text) : w.Advances may assigned { w with
      heap := (w.heap.newGenerator name).2, generators := w.generators.push (.fresh closure arguments activation) } := by
  refine h.advances rfl (fun _ => .inl) (fun a _ hx => .inl ⟨a, hx⟩) (fun g code e => ?_) fun _ _ => .inl
  simp only [World.generator, Array.getD_eq_getD_getElem?, Array.getElem?_push] at e
  split at e
  · cases e
  · refine .inl ?_
    rwa [World.generator, Array.getD_eq_getD_getElem?]

theorem tends_callClosure (h : w.Bears may stack) (closure : Nat) (arguments : List Value) :
    (w.callClosure stack closure arguments).Tends may assigned w := by
  simp only [World.callClosure]
  split
  · exact .here h rfl
  · have called : ∀ depth, w.Advances may assigned { (w.newActivation (w.heap.closure closure).name
        (w.heap.closure closure).isAsync).2 with depth := depth } := advances_newActivation h.world _ _
    split
    · have made := (called w.depth).trans (advances_pushGenerator (called w.depth).tidy closure arguments
        w.activations.size (w.heap.closure closure).name)
      exact .after made (.here (h.advance made) rfl)
    · have deeper := called (w.depth + 1)
      have below := (h.advance deeper).mark (f := .callEnd) rfl rfl
      refine .after deeper ?_
      split
      · exact tends_startBody rfl (below.mark rfl rfl) ..
      · exact tends_startBody rfl (below.mark rfl rfl) ..

theorem tends_call (h : w.Bears may stack) (callee : Callee) (arguments : List Value) :
    (w.call stack callee arguments).Tends may assigned w := by
  unfold World.call
  split
  · exact tends_callNative h ..
  · exact tends_callClosure h ..
  · exact .attempt h fun _ _ => .here h rfl

theorem tends_construct (h : w.Bears may stack) (constructor : Value) (arguments : List Value) :
    (w.construct stack constructor arguments).Tends may assigned w := by
  have refused : Tends may assigned w (w.attempt stack (w.heap.text constructor) fun w name =>
      ⟨w, .raise (.typeError (name ++ " is not a constructor")), stack⟩) :=
    .attempt h fun _ _ => .here h rfl
  unfold World.construct
  split
  · split
    · exact tends_callNative h ..
    · exact refused
  · exact refused

/-! ### Statements -/

theorem tends_evaluateChild (h : w.Bears may stack) (node : Node) (i : Nat) (admits : stack.Admits w.scopes scope) :
    (w.evaluateChild stack node i scope).Tends may assigned w := by
  unfold World.evaluateChild
  split
  · exact .evaluates h admits
  · exact .here h rfl

theorem tends_executeChild (h : w.Bears may stack) (node : Node) (i : Nat) (admits : stack.Admits w.scopes scope)
    (allowed : ∀ name, may scope name) : (w.executeChild stack node i scope).Tends may assigned w := by
  unfold World.executeChild
  split
  · exact .executes h admits allowed
  · exact .here h rfl

theorem tends_declare (h : w.Bears may stack) (kind : Text) {target : Nat} (admits : stack.Admits w.scopes scope)
    (born : target < w.scopes.all.size) {rest : List Node} (allowed : ∀ d ∈ rest, may target d.name) :
    (declare stack kind scope target w rest).Tends may assigned w := by
  induction rest generalizing w with
  | nil => exact .here h rfl
  | cons d rest ih =>
    obtain ⟨first, others⟩ := List.forall_mem_cons.mp allowed
    have tidy : (Frame.declare kind d.name rest scope target).Tidy may w.scopes stack := by
      refine ⟨fun i hi => List.mem_singleton.mp hi ▸ admits, fun i name own => own.1 ▸ born, ?_, nofun⟩
      rintro i name ⟨rfl, member⟩
      obtain ⟨d', hd, rfl⟩ := List.mem_map.mp (show name ∈ (d :: rest).map Node.name from member)
      exact allowed d' hd
    unfold World.declare
    split
    · exact .evaluates (h.push tidy) (admits.push rfl)
    · split
      · exact ih h admits born others
      · have defined : w.Advances may assigned (w.define kind d.name target .undefined) := h.world.define kind .undefined first
        exact .after defined (ih (h.advance defined) (admits.mono defined.grows)
          (Nat.lt_of_lt_of_le born defined.grows.size) others)

theorem tends_executeDeclaration (h : w.Bears may stack) (node : Node) (admits : stack.Admits w.scopes scope)
    (allowed : (node.name == "var") = false → ∀ d ∈ node.children, may scope d.name) :
    (w.executeDeclaration stack node scope).Tends may assigned w := by
  unfold World.executeDeclaration
  refine tends_declare h _ admits ?_ fun d hd => ?_
  · split
    · exact Nat.lt_of_le_of_lt ((w.scopes.functionScope_encloses scope).le h.world.ordered) admits.born
    · exact admits.born
  split
  · exact h.world.allows.functionScope h.world.ordered admits.born d.name
  · rename_i other
    exact allowed (by simpa using other) d hd

theorem tends_runPass (h : w.Bears may stack) (body : Node) (admits : stack.Admits w.scopes scope) :
    (w.runPass stack body scope).Tends may assigned w := by
  have entered : w.Advances may assigned (w.childScope scope).2 := h.world.childScope admits.born
  refine .after entered (tends_enterFrame (h.advance entered) _ _ ?_ h.world.fresh _ _)
  exact (Stack.AdmitsLoop.child admits).admits

theorem tends_afterPassThen (h : w.Bears may stack) (reason : ExitReason) (labels : List Text)
    (again : World → Running) (goes : (again w).Tends may assigned w) :
    (w.afterPassThen stack reason labels again).Tends may assigned w := by
  unfold World.afterPassThen
  split
  · exact goes
  · exact .here h rfl

theorem tends_testWhile (h : w.Bears may stack) (loop : PlainLoop) (admits : stack.Admits w.scopes loop.scope) :
    (w.testWhile stack loop).Tends may assigned w := by
  obtain ⟨bears, inside⟩ := h.wait (f := .whileCondition loop) admits rfl fun i hi => List.mem_singleton.mp hi
  exact .evaluates bears inside

/-- A loop with a scope of its own goes on above its frame. -/
theorem bears_loop (h : w.Bears may stack) (admits : stack.AdmitsLoop w.scopes scope)
    (own : f.loopScope? = some scope) (scopes : f.scopes = [scope]) (quiet : ∀ i name, ¬ f.Binds i name) :
    w.Bears may (f :: stack) ∧ Stack.Admits w.scopes (f :: stack) scope := by
  refine ⟨h.push ⟨fun i hi => ?_, fun i name binds => absurd binds (quiet i name),
    fun i name binds => absurd binds (quiet i name), fun i hi => ?_⟩,
    admits.admits.loop own⟩
  · rw [scopes] at hi
    exact List.mem_singleton.mp hi ▸ admits.admits
  · rw [own] at hi
    exact Option.some.inj hi ▸ admits

theorem tends_testFor (h : w.Bears may stack) (loop : CountingLoop) (admits : stack.AdmitsLoop w.scopes scope) :
    (w.testFor stack loop scope).Tends may assigned w := by
  unfold World.testFor
  split
  · obtain ⟨bears, inside⟩ := bears_loop (f := .forPass loop scope) h admits rfl rfl fun _ _ => id
    exact tends_runPass bears _ inside
  · obtain ⟨bears, inside⟩ := bears_loop (f := .forCondition loop scope) h admits rfl rfl fun _ _ => id
    exact .evaluates bears inside

/-- The scope of the next pass stands where that of the pass before stands. -/
theorem advances_copyScope (h : w.Tidy may) (loop : CountingLoop) (admits : stack.AdmitsLoop w.scopes scope) :
    w.Advances may assigned (w.copyScope loop scope).2 ∧
      stack.AdmitsLoop (w.copyScope loop scope).2.scopes (w.copyScope loop scope).1 := by
  unfold World.copyScope
  split
  · obtain ⟨p, parent, outer⟩ := admits
    refine ⟨h.addScope fun q hq => ?_, .add outer parent⟩
    obtain rfl := Option.some.inj (hq.symm.trans parent)
    exact outer.born
  · exact ⟨h.refl, admits⟩

theorem tends_startFor (h : w.Bears may stack) (loop : CountingLoop) (admits : stack.AdmitsLoop w.scopes scope) :
    (w.startFor stack loop scope).Tends may assigned w := by
  obtain ⟨copied, next⟩ := @advances_copyScope _ assigned _ _ _ h.world loop admits
  exact .after copied (tends_testFor (h.advance copied) loop next)

theorem tends_stepFor (h : w.Bears may stack) (loop : CountingLoop) (admits : stack.AdmitsLoop w.scopes scope) :
    (w.stepFor stack loop scope).Tends may assigned w := by
  obtain ⟨copied, next⟩ := @advances_copyScope _ assigned _ _ _ h.world loop admits
  simp only [World.stepFor]
  split
  · exact .after copied (tends_testFor (h.advance copied) loop next)
  · obtain ⟨bears, inside⟩ := bears_loop (f := .forStep loop (w.copyScope loop scope).1) (h.advance copied) next rfl rfl
      fun _ _ => id
    exact .after copied (.evaluates bears inside)

theorem tends_runElement (h : w.Bears may stack) (loop : ElementLoop) (value : Value)
    (admits : stack.Admits w.scopes loop.scope) : (w.runElement stack loop value).Tends may assigned w := by
  have entered : w.Advances may assigned (w.childScope loop.scope).2 := h.world.childScope admits.born
  have whole := entered.bind value (.inl (h.world.fresh loop.name))
  obtain ⟨bears, -⟩ := (h.advance whole).wait (f := .forOfPass loop) (admits.mono whole.grows) rfl
    fun i hi => List.mem_singleton.mp hi
  refine .after whole (tends_runPass bears _ (.push ?_ rfl))
  exact (Stack.AdmitsLoop.child admits).admits.mono (Scopes.grows_bind ..)

theorem tends_runFound (h : w.Bears may stack) (loop : ElementLoop) (value? : Option Value)
    (admits : stack.Admits w.scopes loop.scope) : (w.runFound stack loop value?).Tends may assigned w := by
  unfold World.runFound
  split
  · exact tends_runElement h _ _ admits
  · exact .here h rfl

theorem tends_nextElement (h : w.Bears may stack) (loop : ElementLoop)
    (admits : stack.Admits w.scopes loop.scope) : (w.nextElement stack loop).Tends may assigned w := by
  unfold World.nextElement
  split
  · exact tends_runFound h _ _ admits
  · exact tends_runFound h _ _ admits
  · obtain ⟨bears, -⟩ := h.wait (f := .forOfNext loop) admits rfl fun i hi => List.mem_singleton.mp hi
    exact tends_resume bears ..
  · exact .attempt h fun _ _ => .here h rfl

theorem tends_startForOf (h : w.Bears may stack) (node : Node) (labels : List Text) (iterable : Value)
    (admits : stack.Admits w.scopes scope) : (w.startForOf stack node scope labels iterable).Tends may assigned w := by
  unfold World.startForOf
  split
  · exact .here h rfl
  · exact tends_nextElement h _ admits

theorem tends_leaveForOf (h : w.Bears may stack) (loop : ElementLoop) (reason : ExitReason) :
    (w.leaveForOf stack loop reason).Tends may assigned w := by
  unfold World.leaveForOf
  split
  · exact tends_resume (h.mark rfl rfl) ..
  · exact .here h rfl

theorem tends_abandonForOf (h : w.Bears may stack) (loop : ElementLoop) (failure : Failure) :
    (w.abandonForOf stack loop failure).Tends may assigned w := by
  unfold World.abandonForOf
  split
  · split
    · exact tends_resume (h.mark rfl rfl) ..
    · exact .here h rfl
  · exact .here h rfl

theorem tends_testClauses (h : w.Bears may stack) (subject : Value) (admits : stack.Admits w.scopes scope)
    (allowed : ∀ name, may scope name) (fallback : Option (List Node)) (rest : List Node) :
    (w.testClauses stack subject scope fallback rest).Tends may assigned w := by
  induction rest generalizing fallback with
  | nil =>
    exact .here (h.keep (f := .statements _ scope) admits rfl (fun i hi => List.mem_singleton.mp hi)
      (fun _ _ => id) allowed).1 rfl
  | cons clause rest ih =>
    unfold World.testClauses
    split
    · exact ih _
    · obtain ⟨bears, inside⟩ := h.keep (f := .switchTest subject clause rest fallback scope) admits rfl
        (fun i hi => List.mem_singleton.mp hi) (fun _ _ => id) allowed
      exact tends_evaluateChild bears _ _ inside

theorem tends_runSwitch (h : w.Bears may stack) (node : Node) (labels : List Text) (subject : Value)
    (admits : stack.Admits w.scopes scope) : (w.runSwitch stack node scope labels subject).Tends may assigned w := by
  have entered : w.Advances may assigned (w.childScope scope).2 := h.world.childScope admits.born
  have inner := (Stack.AdmitsLoop.child admits).admits
  unfold World.runSwitch
  refine .after entered (tends_openFrame ((h.advance entered).mark rfl rfl) _ _ inner.born h.world.fresh _ _
    fun w' a handle e bears => ?_)
  exact tends_testClauses bears subject (((inner.mono e.grows).push rfl).push rfl) h.world.fresh _ _

theorem tends_finish (h : w.Bears may stack) (finalizer : Node) (admits : stack.Admits w.scopes scope)
    (allowed : ∀ name, may scope name) (reason : ExitReason) :
    (w.finish stack finalizer scope reason).Tends may assigned w := by
  unfold World.finish
  split
  · exact tends_complete h reason
  · exact .executes (h.mark rfl rfl) (admits.push rfl) allowed

theorem tends_handle (h : w.Bears may stack) (handler finalizer : Node) (admits : stack.Admits w.scopes scope)
    (allowed : ∀ name, may scope name) (failure : Failure) :
    (w.handle stack handler finalizer scope failure).Tends may assigned w := by
  have entered : w.Advances may assigned (w.childScope scope).2 := h.world.childScope admits.born
  have inner := (Stack.AdmitsLoop.child admits).admits
  have handled : ∀ w', w.Advances may assigned w' → (w.childScope scope).2.scopes.Grows w'.scopes →
      (w'.executeChild (.catchBody finalizer scope :: stack) handler 0 w.scopes.all.size).Tends may assigned w := by
    intro w' e grows
    obtain ⟨bears, -⟩ := (h.advance e).keep (f := .catchBody finalizer scope) (admits.mono e.grows) rfl
      (fun i hi => List.mem_singleton.mp hi) (fun _ _ => id) allowed
    exact .after e (tends_executeChild bears _ _ ((inner.mono grows).push rfl) h.world.fresh)
  unfold World.handle
  split
  · exact tends_finish h finalizer admits allowed _
  · simp only
    split
    · exact handled _ entered (.refl _)
    · have shown := entered.trans (entered.tidy.heap (failureValue_closures failure (w.childScope scope).2.heap))
      exact handled _ (shown.bind _ (.inl (h.world.fresh handler.name))) (Scopes.grows_bind ..)

theorem tends_executeTarget (h : w.Bears may stack) (node : Node) (labels : List Text)
    (admits : stack.Admits w.scopes scope) : (w.executeTarget stack node scope labels).Tends may assigned w := by
  unfold World.executeTarget
  simp only
  split
  · exact tends_testWhile h _ admits
  · rename_i body condition _ _
    obtain ⟨bears, inside⟩ := h.wait (f := .doPass { condition, body, scope, labels }) admits rfl
      fun i hi => List.mem_singleton.mp hi
    exact tends_runPass bears _ inside
  · have entered : w.Advances may assigned (w.childScope scope).2 := h.world.childScope admits.born
    have inner : stack.AdmitsLoop (w.childScope scope).2.scopes (w.childScope scope).1 := .child admits
    split
    · exact .after entered (tends_startFor (h.advance entered) _ inner)
    · obtain ⟨bears, inside⟩ := bears_loop (f := .forStart _ _) (h.advance entered) inner rfl rfl fun _ _ => id
      exact .after entered (.executes bears inside h.world.fresh)
  · obtain ⟨bears, inside⟩ := h.wait (f := .forOfSubject node scope labels) admits rfl
      fun i hi => List.mem_singleton.mp hi
    exact tends_evaluateChild bears _ _ inside
  · obtain ⟨bears, inside⟩ := h.wait (f := .switchSubject node scope labels) admits rfl
      fun i hi => List.mem_singleton.mp hi
    exact tends_evaluateChild bears _ _ inside
  · exact .here h rfl

theorem tends_executeLabeled (h : w.Bears may stack) (node : Node) (admits : stack.Admits w.scopes scope)
    (allowed : ∀ name, may scope name) : (w.executeLabeled stack node scope).Tends may assigned w := by
  refine .attempt h fun target _ => ?_
  have bears : w.Bears may (.labeled target.1 :: stack) := h.mark rfl rfl
  simp only
  split
  · exact tends_executeTarget bears _ _ (admits.push rfl)
  · exact .executes bears (admits.push rfl) allowed

theorem tends_executeCompound (h : w.Bears may stack) (node : Node) (admits : stack.Admits w.scopes scope)
    (allowed : (∀ name, may scope name) ∨ node.kind = .declaration ∧
      ((node.name == "var") = false → ∀ d ∈ node.children, may scope d.name)) : (w.executeCompound stack node scope).Tends may assigned w := by
  have free : node.kind ≠ .declaration → ∀ name, may scope name := fun other =>
    allowed.resolve_right fun own => other own.1
  unfold World.executeCompound
  split
  · exact tends_evaluateChild (h.mark rfl rfl) _ _ (admits.push rfl)
  · exact tends_executeDeclaration h node admits (allowed.elim (fun all _ d _ => all d.name) And.right)
  · have entered : w.Advances may assigned (w.childScope scope).2 := h.world.childScope admits.born
    refine .after entered (tends_enterFrame (h.advance entered) _ _ ?_ h.world.fresh _ _)
    exact (Stack.AdmitsLoop.child admits).admits
  · rename_i kind
    obtain ⟨bears, inside⟩ := h.keep (f := .ifCondition node scope) admits rfl
      (fun i hi => List.mem_singleton.mp hi) (fun _ _ => id) (free (by simp [kind]))
    exact tends_evaluateChild bears _ _ inside
  · split
    · exact .evaluates (h.mark rfl rfl) (admits.push rfl)
    · exact .here h rfl
  · exact tends_evaluateChild (h.mark rfl rfl) _ _ (admits.push rfl)
  · rename_i kind
    have all := free (by simp [kind])
    split
    · obtain ⟨bears, inside⟩ := h.keep (f := .tryBody _ _ scope) admits rfl
        (fun i hi => List.mem_singleton.mp hi) (fun _ _ => id) all
      exact .executes bears inside all
    · exact .here h rfl
  · rename_i kind
    exact tends_executeLabeled h node admits (free (by simp [kind]))
  · exact tends_executeTarget h node [] admits

theorem tends_execute (h : w.Bears may stack) (node : Node)
    (tidy : (Control.execute node scope).Tidy may w.scopes stack) :
    (w.execute stack node scope).Tends may assigned w := by
  have admits : stack.Admits w.scopes scope := tidy.scopes scope (List.mem_singleton_self _)
  have allowed : (∀ name, may scope name) ∨ node.kind = .declaration ∧
      ((node.name == "var") = false → ∀ d ∈ node.children, may scope d.name) := by
    by_cases own : node.kind = .declaration
    · exact .inr ⟨own, fun other d hd => tidy.binds scope d.name ⟨rfl, fun _ => ⟨other, List.mem_map_of_mem hd⟩⟩⟩
    · exact .inl fun name => tidy.binds scope name ⟨rfl, fun kind => absurd kind own⟩
  have counted : w.Advances may assigned { w with stats := { w.stats with statements := w.stats.statements + 1 } } :=
    h.world.same rfl rfl rfl rfl rfl
  have bears := h.advance counted
  unfold World.execute
  simp only
  refine .after counted ?_
  split
  · exact .here bears rfl
  · exact .here bears rfl
  · exact .here bears rfl
  · exact .here bears rfl
  · rename_i kind
    have all := allowed.resolve_right fun own => by simp [kind] at own
    exact .perform bears (advances_register bears.world node admits.born all) fun _ _ bears => .here bears rfl
  · split
    · exact tends_executeCompound (bears.mark rfl rfl) node (admits.push rfl) allowed
    · exact .here bears rfl

/-! ### Expressions -/

theorem tends_template (h : w.Bears may stack) (before : List Text) (rest : List Node)
    (admits : stack.Admits w.scopes scope) : (w.template stack before rest scope).Tends may assigned w := by
  unfold World.template
  split
  · exact .here h rfl
  · rename_i part rest
    obtain ⟨bears, inside⟩ := h.wait (f := .templatePart before rest scope) admits rfl
      fun i hi => List.mem_singleton.mp hi
    exact .evaluates bears inside

theorem tends_arguments (h : w.Bears may stack) (callee : Callee) (before : List Value) (rest : List Node)
    (admits : stack.Admits w.scopes scope) : (w.arguments stack callee before rest scope).Tends may assigned w := by
  unfold World.arguments
  split
  · exact tends_call h ..
  · rename_i argument rest
    obtain ⟨bears, inside⟩ := h.wait (f := .argument callee before rest scope) admits rfl
      fun i hi => List.mem_singleton.mp hi
    exact .evaluates bears inside

theorem tends_newArguments (h : w.Bears may stack) (constructor : Value) (before : List Value) (rest : List Node)
    (admits : stack.Admits w.scopes scope) :
    (w.newArguments stack constructor before rest scope).Tends may assigned w := by
  unfold World.newArguments
  split
  · exact tends_construct h ..
  · rename_i argument rest
    obtain ⟨bears, inside⟩ := h.wait (f := .newArgument constructor before rest scope) admits rfl
      fun i hi => List.mem_singleton.mp hi
    exact .evaluates bears inside

theorem tends_elements (h : w.Bears may stack) (before : List Value) (rest : List Node)
    (admits : stack.Admits w.scopes scope) : (w.elements stack before rest scope).Tends may assigned w := by
  unfold World.elements
  split
  · have made : w.Advances may assigned { w with heap := (w.heap.newArray before.reverse.toArray).2 } := h.world.heap rfl
    exact .after made (.here (h.advance made) rfl)
  · rename_i element rest
    obtain ⟨bears, inside⟩ := h.wait (f := .arrayElement before rest scope) admits rfl
      fun i hi => List.mem_singleton.mp hi
    exact .evaluates bears inside

theorem tends_properties (h : w.Bears may stack) (ref : Nat) (rest : List Node)
    (admits : stack.Admits w.scopes scope) : (w.properties stack ref rest scope).Tends may assigned w := by
  unfold World.properties
  split
  · exact .here h rfl
  · rename_i p rest
    obtain ⟨bears, inside⟩ := h.wait (f := .objectProperty ref p.name rest scope) admits rfl
      fun i hi => List.mem_singleton.mp hi
    exact tends_evaluateChild bears _ _ inside

theorem tends_sequence (h : w.Bears may stack) (rest : List Node) (value : Value)
    (admits : stack.Admits w.scopes scope) : (w.sequence stack rest scope value).Tends may assigned w := by
  unfold World.sequence
  split
  · exact .here h rfl
  · rename_i e rest
    obtain ⟨bears, inside⟩ := h.wait (f := .sequenceElement rest scope) admits rfl
      fun i hi => List.mem_singleton.mp hi
    exact .evaluates bears inside

/-! ### Places -/

theorem advances_load (h : w.Tidy may) (d : Datum) :
    w.Advances may assigned { w with heap := (w.heap.load d).2 } := by
  refine h.advances rfl (fun c hc => ?_) (fun a _ hx => .inl ⟨a, hx⟩) (fun _ _ => .inl) fun _ _ => .inl
  exact load_made (P := fun c => c.scope < w.scopes.all.size) (fun _ _ _ => h.outermost) d w.heap c hc

theorem advances_getProperty (h : w.Tidy may) (object key : Value) :
    w.Advances may assigned (w.getProperty object key).2 := by
  refine h.change fun m _ => ?_
  cases m with
  | value => exact h.refl
  | method => exact h.heap rfl

theorem advances_setProperty (h : w.Tidy may) (object key value : Value) :
    w.Advances may assigned (w.setProperty object key value).2 := by
  unfold World.setProperty
  split
  · exact h.change fun _ _ => h.heap rfl
  · exact h.change fun _ _ => h.heap rfl
  · split <;> exact h.refl

theorem advances_readPlace (h : w.Tidy may) (place : Place) : w.Advances may assigned (w.readPlace place).2 := by
  cases place with
  | name => exact h.refl
  | property => exact advances_getProperty h ..

theorem scopes_getProperty (object key : Value) : (w.getProperty object key).2.scopes = w.scopes := by
  unfold World.getProperty World.change
  cases member w.heap object key with
  | ok m => cases m <;> rfl
  | error failure => rfl

theorem scopes_readPlace (place : Place) : (w.readPlace place).2.scopes = w.scopes := by
  cases place with
  | name => rfl
  | property => exact scopes_getProperty ..

/-- An assignment changes the binding that the name means. -/
theorem advances_writePlace (h : w.Tidy may) {place : Place} (leads : place.Leads w.scopes assigned)
    (value : Value) : w.Advances may assigned (w.writePlace place value).2 := by
  cases place with
  | name name scope =>
    refine h.change fun owner e => h.bind value (.inr (leads owner ?_))
    unfold World.assignable at e
    split at e
    · cases e
    · rename_i found
      split at e
      · cases e
      · rw [found, Except.ok.inj e]
  | property => exact advances_setProperty h ..

theorem tends_store (h : w.Bears may stack) {place : Place} (leads : place.Leads w.scopes assigned)
    (value result : Value) : (w.store stack place value result).Tends may assigned w :=
  .perform h (advances_writePlace h.world leads value) fun _ _ bears => .here bears rfl

theorem tends_update (h : w.Bears may stack) {place : Place} (leads : place.Leads w.scopes assigned) (op : Text)
    (isLeading : Bool) : (w.update stack place op isLeading).Tends may assigned w := by
  refine .perform h (advances_readPlace h.world place) fun v _ bears => .attempt bears fun _ _ => ?_
  exact tends_store bears (by rwa [scopes_readPlace]) _ _

theorem tends_assignTo (h : w.Bears may stack) {place : Place} (own : ∀ i ∈ place.scopes, i = scope)
    (op : Option Text) (right : Node) (admits : stack.Admits w.scopes scope) :
    (w.assignTo stack place op right scope).Tends may assigned w := by
  have evaluates : ∀ {w' : World} (f : Frame), w'.Bears may stack → w'.scopes = w.scopes → f.isQuiet = true →
      f.scopes = place.scopes → Running.Tends may assigned w' ⟨w', .evaluate right scope, f :: stack⟩ := by
    intro w' f bears same quiet scopes
    obtain ⟨bears, inside⟩ := bears.wait (same ▸ admits) quiet fun i hi => own i (scopes ▸ hi)
    exact .evaluates bears inside
  simp only [World.assignTo]
  split
  · exact evaluates _ h rfl rfl rfl
  · refine .perform h (advances_readPlace h.world place) fun current _ bears => ?_
    have same := @scopes_readPlace w place
    split
    · refine .attempt bears fun keeps _ => ?_
      split
      · exact .here bears rfl
      · exact evaluates _ bears same rfl rfl
    · exact evaluates _ bears same rfl rfl

theorem tends_assignCombined (h : w.Bears may stack) {place : Place} (leads : place.Leads w.scopes assigned)
    (op : Option Text) (current operand : Value) :
    (w.assignCombined stack place op current operand).Tends may assigned w := by
  unfold World.assignCombined
  split
  · exact .here h rfl
  · exact .attempt h fun _ _ => tends_store h leads _ _

/-- What is done with a place that is no name. -/
theorem tends_useProperty (h : w.Bears may stack) (object key : Value) (use : PlaceUse)
    (admits : ∀ i ∈ use.scopes, stack.Admits w.scopes i) :
    (w.usePlace stack (.property object key) use).Tends may assigned w := by
  cases use with
  | update => exact @tends_update _ assigned _ _ h (.property object key) trivial _ _
  | assign =>
    exact @tends_assignTo _ _ _ _ _ h (.property object key) (List.forall_mem_nil _) _ _
      (admits _ (List.mem_singleton_self _))

theorem tends_findPlace (h : w.Bears may stack) (target : Node) (use : PlaceUse) (own : ∀ i ∈ use.scopes, i = scope)
    (admits : stack.Admits w.scopes scope)
    (leads : ∀ op isLeading, use = .update op isLeading → target.kind = .identifier →
      (Place.name target.name scope).Leads w.scopes assigned) :
    (w.findPlace stack target scope use).Tends may assigned w := by
  unfold World.findPlace
  split
  · rename_i identifier
    cases use with
    | update op isLeading => exact tends_update h (leads _ _ rfl identifier) _ _
    | assign op right scope' =>
      obtain rfl := own scope' (List.mem_singleton_self _)
      exact @tends_assignTo _ _ _ _ _ h (.name target.name _) (fun i hi => List.mem_singleton.mp hi) _ _ admits
  · obtain ⟨bears, inside⟩ := h.wait (f := .placeObject target scope use) admits rfl fun i hi =>
      (List.mem_cons.mp hi).elim id (own i)
    exact tends_evaluateChild bears _ _ inside

theorem tends_findPlaceIn (h : w.Bears may stack) (object : Value) (target : Node) (use : PlaceUse)
    (admits : stack.Admits w.scopes scope) (uses : ∀ i ∈ use.scopes, stack.Admits w.scopes i) :
    (w.findPlaceIn stack object target scope use).Tends may assigned w := by
  unfold World.findPlaceIn
  split
  · have loaded : w.Advances may assigned _ := advances_load h.world target.value
    exact .after loaded (tends_useProperty (h.advance loaded) _ _ _ uses)
  · have bears : w.Bears may (.placeKey object use :: stack) := h.push (Frame.tidy_of_isQuiet rfl uses)
    exact tends_evaluateChild bears _ _ (admits.push rfl)

/-! ### Callees -/

theorem tends_callMethod (h : w.Bears may stack) (object key : Value) (rest : List Node)
    (admits : stack.Admits w.scopes scope) : (w.callMethod stack object key rest scope).Tends may assigned w := by
  refine .perform h (advances_getProperty h.world ..) fun _ _ bears => .attempt bears fun _ _ => ?_
  exact tends_arguments bears _ _ _ (by rwa [scopes_getProperty])

theorem tends_findCallee (h : w.Bears may stack) (callee : Node) (rest : List Node)
    (admits : stack.Admits w.scopes scope) : (w.findCallee stack callee rest scope).Tends may assigned w := by
  have called : ∀ name, Running.Tends may assigned w ⟨w, .evaluate callee scope, .calleeValue name rest scope :: stack⟩ := by
    intro name
    obtain ⟨bears, inside⟩ := h.wait (f := .calleeValue name rest scope) admits rfl
      fun i hi => List.mem_singleton.mp hi
    exact .evaluates bears inside
  obtain ⟨bears, inside⟩ := h.wait (f := .calleeObject callee rest scope) admits rfl
    fun i hi => List.mem_singleton.mp hi
  unfold World.findCallee
  split
  · exact tends_evaluateChild bears _ _ inside
  · exact tends_evaluateChild bears _ _ inside
  · exact called _

theorem tends_findMethod (h : w.Bears may stack) (object : Value) (callee : Node) (rest : List Node)
    (admits : stack.Admits w.scopes scope) : (w.findMethod stack object callee rest scope).Tends may assigned w := by
  unfold World.findMethod
  split
  · have loaded : w.Advances may assigned _ := advances_load h.world callee.value
    exact .after loaded (tends_callMethod (h.advance loaded) _ _ _ admits)
  · obtain ⟨bears, inside⟩ := h.wait (f := .calleeKey object rest scope) admits rfl
      fun i hi => List.mem_singleton.mp hi
    exact tends_evaluateChild bears _ _ inside

theorem tends_read (h : w.Bears may stack) (object key : Value) :
    (w.read stack object key).Tends may assigned w :=
  .perform h (advances_getProperty h.world ..) fun _ _ bears => .here bears rfl

/-! ### Operators -/

theorem tends_logical (h : w.Bears may stack) (op : Text) (left : Value) (right : Option Node)
    (admits : stack.Admits w.scopes scope) : (w.logical stack op left right scope).Tends may assigned w := by
  refine .attempt h fun decided _ => ?_
  split
  · exact .here h rfl
  · split
    · exact .evaluates h admits
    · exact .here h rfl

theorem tends_unary (h : w.Bears may stack) (node : Node) (admits : stack.Admits w.scopes scope) :
    (w.unary stack node scope).Tends may assigned w := by
  unfold World.unary
  split
  · exact .here h rfl
  · split
    · exact .here h rfl
    · split
      · exact .here h rfl
      · exact .evaluates (h.mark rfl rfl) (admits.push rfl)

theorem tends_evaluate (h : w.Bears may stack) (node : Node) (admits : stack.Admits w.scopes scope)
    (leads : ∀ target rest, node.kind = .update → node.children = target :: rest → target.kind = .identifier →
      (Place.name target.name scope).Leads w.scopes assigned) :
    (w.evaluate stack node scope).Tends may assigned w := by
  have wait : ∀ {f : Frame}, f.isQuiet = true → f.scopes = [scope] →
      w.Bears may (f :: stack) ∧ Stack.Admits w.scopes (f :: stack) scope := fun quiet scopes =>
    h.wait admits quiet fun i hi => List.mem_singleton.mp (scopes ▸ hi)
  have evaluates : ∀ {f : Frame} (n : Node), f.isQuiet = true → f.scopes = [scope] →
      Running.Tends may assigned w ⟨w, .evaluate n scope, f :: stack⟩ := fun n quiet scopes =>
    .evaluates (wait quiet scopes).1 (wait quiet scopes).2
  have evaluatesChild : ∀ {f : Frame} (i : Nat), f.isQuiet = true → f.scopes = [scope] →
      (w.evaluateChild (f :: stack) node i scope).Tends may assigned w := fun i quiet scopes =>
    tends_evaluateChild (wait quiet scopes).1 _ _ (wait quiet scopes).2
  unfold World.evaluate
  split
  · have loaded : w.Advances may assigned _ := advances_load h.world node.value
    exact .after loaded (.here (h.advance loaded) rfl)
  · exact .attempt h fun _ _ => .here h rfl
  · exact .perform h (h.world.makeFunction node admits.born) fun _ _ bears => .here bears rfl
  · exact tends_template h _ _ admits
  · split
    · exact evaluates _ rfl rfl
    · exact .here h rfl
  · exact evaluatesChild _ rfl rfl
  · exact tends_unary h node admits
  · rename_i kind
    split
    · rename_i target rest children
      exact tends_findPlace h target _ (List.forall_mem_nil _) admits fun _ _ _ => leads target rest kind children
    · exact .here h rfl
  · split
    · exact tends_findPlace h _ _ (fun i hi => List.mem_singleton.mp hi) admits fun _ _ e => by cases e
    · exact .here h rfl
  · split
    · exact tends_findCallee h _ _ admits
    · exact .here h rfl
  · have loaded : w.Advances may assigned _ := advances_load h.world node.value
    exact .after loaded (tends_evaluateChild ((h.advance loaded).mark rfl rfl) _ _ (admits.push rfl))
  · exact evaluatesChild _ rfl rfl
  · exact tends_elements h _ _ admits
  · have made : w.Advances may assigned { w with heap := (w.heap.newObject {}).2 } := h.world.heap rfl
    exact .after made (tends_properties (h.advance made) _ _ admits)
  · split
    · exact evaluates _ rfl rfl
    · exact .here h rfl
  · exact tends_evaluateChild (h.mark rfl rfl) _ _ (admits.push rfl)
  · split
    · exact .evaluates (h.mark rfl rfl) (admits.push rfl)
    · exact .here h rfl
  · exact evaluatesChild _ rfl rfl
  · exact tends_sequence h _ _ admits
  · exact .here h rfl

/-! ### Outcomes -/

theorem tends_branch (h : w.Bears may stack) (v : Value) {yes no : World → Running}
    (hyes : (yes w).Tends may assigned w) (hno : (no w).Tends may assigned w) :
    (w.branch stack v yes no).Tends may assigned w := by
  refine .attempt h fun b _ => ?_
  split
  · exact hyes
  · exact hno

theorem tends_evaluateOperand (h : w.Bears may stack) (operand : Option Node) (admits : stack.Admits w.scopes scope)
    (quiet : f.isQuiet = true) (none : f.scopes = []) :
    (w.evaluateOperand stack operand scope f).Tends may assigned w := by
  unfold World.evaluateOperand
  split
  · exact .evaluates (h.mark quiet none) (admits.push (Frame.loopScope?_of_isQuiet quiet))
  · exact .here h rfl

theorem tends_give (h : w.Bears may stack) (r : Conversion Value) : (w.give stack r).Tends may assigned w :=
  .attempt h fun _ _ => .here h rfl

theorem tends_onValue (h : w.Bears may stack) (tidy : f.Tidy may w.scopes stack) (plain : f.isPlain = true)
    (v : Value) (leads : ∀ place, f = .assignValue place ∨ (∃ op current, f = .assignCombined place op current) →
      place.Leads w.scopes assigned) : (w.onValue stack v f).Tends may assigned w := by
  have admits : ∀ {i}, i ∈ f.scopes → stack.Admits w.scopes i := tidy.scopes _
  cases f with
  | declare kind name rest scope target =>
    have defined : w.Advances may assigned (w.define kind name target v) := h.world.define kind v
      (tidy.binds target name ⟨rfl, List.mem_cons_self ..⟩)
    refine .after defined (tends_declare (h.advance defined) _
      ((admits (List.mem_singleton_self _)).mono defined.grows) ?_ fun d hd => ?_)
    · exact Nat.lt_of_lt_of_le (tidy.born target name ⟨rfl, List.mem_cons_self ..⟩) defined.grows.size
    exact tidy.binds target d.name ⟨rfl, List.mem_cons_of_mem _ (List.mem_map_of_mem hd)⟩
  | ifCondition node scope =>
    have inside := admits (List.mem_singleton_self _)
    have allowed : ∀ name, may scope name := fun name => tidy.binds scope name rfl
    refine tends_branch h _ (tends_executeChild h _ _ inside allowed) ?_
    split
    · exact .executes h inside allowed
    · exact .here h rfl
  | whileCondition loop =>
    obtain ⟨bears, inside⟩ := h.wait (f := .whilePass loop) (admits (List.mem_singleton_self _)) rfl
      fun i hi => List.mem_singleton.mp hi
    exact tends_branch h _ (tends_runPass bears _ inside) (.here h rfl)
  | doCondition loop =>
    obtain ⟨bears, inside⟩ := h.wait (f := .doPass loop) (admits (List.mem_singleton_self _)) rfl
      fun i hi => List.mem_singleton.mp hi
    exact tends_branch h _ (tends_runPass bears _ inside) (.here h rfl)
  | forCondition loop scope =>
    obtain ⟨bears, inside⟩ := bears_loop (f := .forPass loop scope) h (tidy.inner scope rfl) rfl rfl fun _ _ => id
    exact tends_branch h _ (tends_runPass bears _ inside) (.here h rfl)
  | forStep loop scope => exact tends_testFor h _ (tidy.inner scope rfl)
  | forOfSubject => exact tends_startForOf h _ _ _ (admits (List.mem_singleton_self _))
  | switchSubject => exact tends_runSwitch h _ _ _ (admits (List.mem_singleton_self _))
  | switchTest subject clause rest fallback scope =>
    have inside := admits (List.mem_singleton_self _)
    have allowed : ∀ name, may scope name := fun name => tidy.binds scope name rfl
    simp only [World.onValue]
    split
    · exact .here (h.keep (f := .statements _ scope) inside rfl (fun i hi => List.mem_singleton.mp hi)
        (fun _ _ => id) allowed).1 rfl
    · exact tends_testClauses h _ inside allowed _ _
  | templatePart => exact .attempt h fun _ _ => tends_template h _ _ (admits (List.mem_singleton_self _))
  | binaryLeft | indexObject => exact tends_evaluateOperand h _ (admits (List.mem_singleton_self _)) rfl rfl
  | binaryRight | unaryOperand => exact tends_give h _
  | logicalLeft => exact tends_logical h _ _ _ (admits (List.mem_singleton_self _))
  | placeObject =>
    exact tends_findPlaceIn h _ _ _ (admits (List.mem_cons_self ..)) fun i hi => admits (List.mem_cons_of_mem _ hi)
  | placeKey => exact tends_useProperty h _ _ _ fun i hi => admits hi
  | assignValue place => exact tends_store h (leads place (.inl rfl)) _ _
  | assignCombined place op current => exact tends_assignCombined h (leads place (.inr ⟨op, current, rfl⟩)) _ _ _
  | calleeObject => exact tends_findMethod h _ _ _ (admits (List.mem_singleton_self _))
  | calleeKey => exact tends_callMethod h _ _ _ (admits (List.mem_singleton_self _))
  | calleeValue | argument => exact tends_arguments h _ _ _ (admits (List.mem_singleton_self _))
  | newCallee | newArgument => exact tends_newArguments h _ _ _ (admits (List.mem_singleton_self _))
  | memberObject | indexKey => exact tends_read h ..
  | arrayElement => exact tends_elements h _ _ (admits (List.mem_singleton_self _))
  | objectProperty ref key rest scope =>
    have set : w.Advances may assigned { w with heap := w.heap.setProperty ref key v } := h.world.heap rfl
    exact .after set (tends_properties (h.advance set) _ _ (admits (List.mem_singleton_self _)))
  | conditionalTest =>
    have inside := admits (List.mem_singleton_self _)
    exact tends_branch h _ (tends_evaluateChild h _ _ inside) (tends_evaluateChild h _ _ inside)
  | sequenceElement => exact tends_sequence h _ _ (admits (List.mem_singleton_self _))
  | parameter closure name rest arguments scope =>
    have bound : w.Advances may assigned (w.bind scope name v) := h.world.bind v (.inl (tidy.binds scope name rfl))
    exact .after bound (tends_bindParameters (h.advance bound) _
      ((admits (List.mem_singleton_self _)).mono bound.grows) (fun name => tidy.binds scope name rfl) _ _)
  | activationEnd | callEnd | syncBoundary | asyncStart | asyncDrive | generatorBoundary | taskStart | nap
  | taskEnd | programEnd => contradiction
  | _ => exact .here h rfl

theorem tends_onComplete (h : w.Bears may stack) (tidy : f.Tidy may w.scopes stack) (plain : f.isPlain = true)
    (reason : ExitReason) : (w.onComplete stack reason f).Tends may assigned w := by
  have admits : ∀ {i}, i ∈ f.scopes → stack.Admits w.scopes i := tidy.scopes _
  cases f with
  | statements rest scope =>
    simp only [World.onComplete]
    split
    · exact .here h rfl
    · split
      · exact .here h rfl
      · rename_i s rest
        obtain ⟨bears, inside⟩ := h.keep (f := .statements rest scope) (admits (List.mem_singleton_self _)) rfl
          (fun i hi => List.mem_singleton.mp hi) (fun _ _ => id) fun name => tidy.binds scope name rfl
        exact .executes bears inside fun name => tidy.binds scope name rfl
  | scopeBody => exact tends_leaveBody h ..
  | scopeEnd => exact tends_complete h _
  | draining => exact tends_settleAction h ..
  | whilePass loop =>
    exact tends_afterPassThen h _ _ (·.testWhile stack loop) (tends_testWhile h loop (admits (List.mem_singleton_self _)))
  | doPass loop =>
    obtain ⟨bears, inside⟩ := h.wait (f := .doCondition loop) (admits (List.mem_singleton_self _)) rfl
      fun i hi => List.mem_singleton.mp hi
    exact tends_afterPassThen h _ _ (fun w =>
      ⟨w, .evaluate loop.condition loop.scope, .doCondition loop :: stack⟩) (.evaluates bears inside)
  | forStart loop scope =>
    simp only [World.onComplete]
    split
    · exact .here h rfl
    · exact tends_startFor h _ (tidy.inner scope rfl)
  | forPass loop scope =>
    exact tends_afterPassThen h _ _ (·.stepFor stack loop scope) (tends_stepFor h loop (tidy.inner scope rfl))
  | forOfPass =>
    simp only [World.onComplete]
    split
    · exact tends_nextElement h _ (admits (List.mem_singleton_self _))
    · exact tends_leaveForOf h ..
  | tryBody handler finalizer scope =>
    exact tends_finish h _ (admits (List.mem_singleton_self _)) (fun name => tidy.binds scope name rfl) _
  | catchBody finalizer scope =>
    exact tends_finish h _ (admits (List.mem_singleton_self _)) (fun name => tidy.binds scope name rfl) _
  | finallyBody =>
    simp only [World.onComplete]
    split
    · exact .here h rfl
    · exact tends_complete h _
  | functionEnd =>
    simp only [World.onComplete]
    split <;> exact .here h rfl
  | activationEnd | callEnd | syncBoundary | asyncStart | asyncDrive | generatorBoundary | taskStart | nap
  | taskEnd | programEnd => contradiction
  | _ => exact .here h rfl

theorem tends_onResumed (h : w.Bears may stack) (tidy : f.Tidy may w.scopes stack) (v : Value) (done : Bool) :
    (w.onResumed stack v done f).Tends may assigned w := by
  cases f with
  | iterationResult =>
    have made : w.Advances may assigned { w with
        heap := (w.heap.newObject { properties := [("value", v), ("done", .bool done)] }).2 } := h.world.heap rfl
    exact .after made (.here (h.advance made) rfl)
  | forOfNext =>
    simp only [World.onResumed]
    split
    · exact .here h rfl
    · exact tends_runElement h _ _ (tidy.scopes _ (List.mem_singleton_self _))
  | _ => exact .here h rfl

theorem tends_onRaise (h : w.Bears may stack) (tidy : f.Tidy may w.scopes stack) (plain : f.isPlain = true)
    (other : f ≠ .settling) (failure : Failure) : (w.onRaise stack failure f).Tends may assigned w := by
  have admits : ∀ {i}, i ∈ f.scopes → stack.Admits w.scopes i := tidy.scopes _
  cases f with
  | statementEnd =>
    simp only [World.onRaise]
    split <;> exact .here h rfl
  | scopeBody =>
    simp only [World.onRaise]
    split
    · exact tends_leaveBody h ..
    · split
      · exact tends_leaveBody h ..
      · exact .here h rfl
  | draining => exact tends_settleAction h ..
  | forOfPass => exact tends_abandonForOf h ..
  | forOfAbort =>
    simp only [World.onRaise]
    split <;> exact .here h rfl
  | tryBody handler finalizer scope =>
    simp only [World.onRaise]
    split
    · exact tends_handle h _ _ (admits (List.mem_singleton_self _)) (fun name => tidy.binds scope name rfl) _
    · exact .here h rfl
  | catchBody finalizer scope =>
    simp only [World.onRaise]
    split
    · exact tends_finish h _ (admits (List.mem_singleton_self _)) (fun name => tidy.binds scope name rfl) _
    · exact .here h rfl
  | settling => exact absurd rfl other
  | activationEnd | callEnd | syncBoundary | asyncStart | asyncDrive | generatorBoundary | taskStart | nap
  | taskEnd | programEnd => contradiction
  | _ => exact .here h rfl

end World

/-! ### Steps -/

section Steps

variable {may assigned : Nat → Text → Prop} {w : World} {c : Control} {f : Frame} {stack : Stack} {s s' : Running}

/-- What a step assigns may be assigned in that step. -/
theorem tends_code (tidy : Running.Tidy may ⟨w, c, stack⟩) (isCode : c.isCode = true)
    (next : Running.step ⟨w, c, stack⟩ = .next s') :
    s'.Tends may (Running.Rebinds ⟨w, c, stack⟩) w := by
  cases c with
  | execute node scope =>
    rw [← Transition.next.inj next]
    exact tends_execute tidy.toBears node tidy.control
  | evaluate node scope =>
    rw [← Transition.next.inj next]
    refine tends_evaluate tidy.toBears node (tidy.control.scopes scope (List.mem_singleton_self _)) ?_
    exact fun target rest kind children identifier i found => ⟨scope, .update kind children identifier rfl, found⟩
  | _ => contradiction

theorem tends_frame (tidy : Running.Tidy may ⟨w, c, f :: stack⟩) (outcome : c.isOutcome = true)
    (plain : f.isPlain = true) (next : Running.step ⟨w, c, f :: stack⟩ = .next s') :
    s'.Tends may (Running.Rebinds ⟨w, c, f :: stack⟩) w := by
  obtain ⟨own, below⟩ := tidy.stack
  have bears : w.Bears may stack := ⟨tidy.world, below⟩
  cases c with
  | value v =>
    rw [← Transition.next.inj next]
    refine tends_onValue bears own plain v fun place assigns => ?_
    cases place with
    | name name scope =>
      intro i found
      rcases assigns with rfl | ⟨op, current, rfl⟩
      · exact ⟨scope, .value, found⟩
      · exact ⟨scope, .combined, found⟩
    | property => trivial
  | complete reason =>
    rw [← Transition.next.inj next]
    exact tends_onComplete bears own plain reason
  | resumed v done =>
    rw [← Transition.next.inj next]
    exact tends_onResumed bears own v done
  | raise failure =>
    rw [← Transition.next.inj next]
    by_cases settling : f = .settling
    · subst settling
      rw [World.onRaise, World.pass]
      cases failure.isException with
      | true => exact .here bears rfl
      | false => exact .here ⟨bears.world, below.suffix (belowDrive_suffix stack)⟩ rfl
    · exact tends_onRaise bears own plain settling failure
  | _ => contradiction

theorem tends_served {request : Request} (h : Served w stack request s) (bears : w.Bears may stack) :
    s.Tends may assigned w := by
  have settling : w.Bears may (.settling :: stack) := bears.mark rfl rfl
  have parked : ∀ {w' : World}, w'.heap = w.heap → w'.scopes = w.scopes → w'.activations = w.activations →
      w'.generators = w.generators → (∀ t code, (w'.loop.promise t).parked? = some code →
        (w.loop.promise t).parked? = some code ∨ code = .settling :: stack) →
      Running.Tends may assigned w ⟨w', .parked, []⟩ := by
    intro w' heap scopes activations generators parked
    have e : w.Advances may assigned w' := bears.world.relooped scopes heap activations generators fun t code e =>
      (parked t code e).imp_right fun own => by rw [own]; exact settling.stack
    exact .after e (.here ⟨e.tidy, trivial⟩ rfl)
  cases h with
  | @settled p outcome =>
    have e : w.Advances may assigned { w with observed := p :: w.observed } := bears.world.same rfl rfl rfl rfl rfl
    exact .after e (.here (settling.advance e) (by cases outcome <;> rfl))
  | waits => exact parked rfl rfl rfl rfl fun t code e => Loop.parked_park e
  | own | turn => exact parked rfl rfl rfl rfl fun t code e => Loop.parked_hold e
  | drain a handle reason => exact tends_drain settling ..
  | refused => exact .here ⟨bears.world, bears.stack.suffix (belowDrive_suffix stack)⟩ rfl

/-- **Main result.**  A step of tidy code leads to tidy code.  It changes no binding that the rule forbids to
change, unless it assigns that binding. -/
theorem Running.Tidy.step [Node.MainRule] (tidy : s.Tidy may) (orderly : s.Orderly)
    (next : s.step = .next s') : s'.Tends may s.Rebinds s.world := by
  have hw := tidy.world
  have hs := tidy.stack
  have wakes : ∀ {w' : World} {stack : Stack} (o : Outcome), s.world.Advances may s.Rebinds w' →
      stack.Tidy may s.world.scopes → Running.Tends may s.Rebinds s.world ⟨w', .ofOutcome o, stack⟩ := by
    intro w' stack o e hs
    exact .after e (.here ⟨e.tidy, hs.mono e.grows⟩ (by cases o <;> rfl))
  have gives : ∀ {w' : World} {stack : Stack} {c : Control}, s.world.Advances may s.Rebinds w' →
      stack.Tidy may s.world.scopes → c.isCode = false →
      Running.Tends may s.Rebinds s.world ⟨w', c, stack⟩ := by
    intro w' stack c e hs other
    exact .after e (.here ⟨e.tidy, hs.mono e.grows⟩ other)
  have idle : ∀ {w' : World}, s.world.Advances may s.Rebinds w' →
      Running.Tends may s.Rebinds s.world ⟨w', .parked, []⟩ := fun e => gives e trivial rfl
  have below : ∀ {b : Frame} {rest : Stack}, s.stack.fromBoundary = b :: rest → rest.Tidy may s.world.scopes :=
    fun e => hs.suffix (suffix_of_boundary e)
  have segment : ∀ {b : Frame} {rest : Stack}, s.stack.fromBoundary = b :: rest → b.isBoundary = true →
      s.stack.segment.Tidy may s.world.scopes := by
    intro b rest e boundary
    have whole := hs
    rw [← s.stack.segment_append_fromBoundary, e] at whole
    exact ((Stack.tidy_append boundary rest).mp whole).1
  have notCode : ∀ {c : Control}, c.isOutcome = true → c.isCode = false := by
    intro c outcome
    cases c <;> first | rfl | contradiction
  cases orderly.moves next with
  | code isCode => exact tends_code tidy isCode next
  | frame outcome plain => exact tends_frame tidy outcome plain next
  | pass outcome => exact gives hw.refl hs.2 (notCode outcome)
  | callEnd o o' => exact wakes o' (hw.same rfl rfl rfl rfl rfl) hs.2
  | settled =>
    refine gives (hw.relooped rfl rfl rfl rfl fun t code e => .inl ?_) hs.2 rfl
    exact (Loop.parked_add e).elim id fun e => by cases e
  | stepEnd outcome => exact gives (hw.setGenerator _ fun _ e => by cases e) hs.2 (notCode outcome)
  | start h => exact tends_served h ⟨hw, hs.2⟩
  | abandon => exact gives hw.refl (hs.2.suffix (belowDrive_suffix _)) rfl
  | refuse boundary => exact gives hw.refl (below boundary) rfl
  | refuseStep boundary => exact gives (hw.setGenerator _ fun _ e => by cases e) (below boundary) rfl
  | yield boundary =>
    refine gives (hw.setGenerator _ fun code e => ?_) (below boundary) rfl
    exact GeneratorState.suspended.inj e ▸ segment boundary rfl
  | @spawn w request stack rest boundary =>
    refine gives (hw.relooped rfl rfl rfl rfl fun t code e => (Loop.parked_add e).imp_right fun e => ?_)
      (below boundary) rfl
    obtain rfl := Option.some.inj e
    have mark : ∀ {f : Frame} {stack : Stack}, f.isQuiet = true → f.scopes = [] → f.Tidy may w.scopes stack :=
      fun quiet none => Frame.tidy_of_isQuiet quiet fun i hi => by rw [none] at hi; cases hi
    exact ⟨mark rfl rfl, (Stack.tidy_append rfl _).mpr ⟨segment boundary rfl, mark rfl rfl, mark rfl rfl, trivial⟩⟩
  | serve boundary h => exact tends_served h ⟨hw, hs⟩
  | nap =>
    refine idle (hw.relooped rfl rfl rfl rfl fun t code e => (Loop.parked_rest e).imp_right ?_)
    rintro rfl
    exact hs.2
  | taskEnd =>
    refine idle (hw.relooped rfl rfl rfl rfl fun t code e => .inl ?_)
    rwa [← Loop.parked_settle]
  | programEnd => exact idle (hw.relooped rfl rfl rfl rfl fun _ _ => .inl)
  | resume _ h =>
    obtain ⟨parked, later⟩ := Loop.parked_resume h
    exact wakes _ (hw.relooped rfl rfl rfl rfl fun t code e => .inl (later t code e)) (hw.parked _ _ parked)
  | internal _ h =>
    refine idle (hw.relooped rfl rfl rfl rfl fun t code e => .inl ?_)
    rwa [← Loop.parked_internal h]

end Steps

/-! ### Runs -/

section Runs

variable {config : Config} {program : Node} {may : Nat → Text → Prop} {L : Ledger} {s t : Running}

/-- The rule that forbids nothing. -/
def anywhere : Nat → Text → Prop := fun _ _ => True

theorem World.Tidy.bindAnywhere {w : World} (h : w.Tidy anywhere) (scope : Nat) (name : Text) (value : Value) :
    (w.bind scope name value).Tidy anywhere := by
  have bound : w.Advances anywhere anywhere (w.bind scope name value) := h.bind value (.inl trivial)
  exact bound.tidy

theorem World.Tidy.heapAnywhere {w : World} (h : w.Tidy anywhere) {heap : Heap}
    (closures : heap.closures = w.heap.closures) : World.Tidy anywhere { w with heap := heap } := by
  have same : w.Advances anywhere anywhere { w with heap := heap } := h.heap closures
  exact same.tidy

theorem tidy_bindBuiltins {w : World} (h : w.Tidy anywhere) (scope : Nat) :
    (w.bindBuiltins scope).Tidy anywhere := by
  unfold World.bindBuiltins
  generalize globalNames = names
  induction names generalizing w with
  | nil => exact h
  | cons entry names ih =>
    have made : w.Advances anywhere anywhere (w.method entry.2).2 := h.heap rfl
    exact ih (made.tidy.bindAnywhere scope entry.1 _)

/-- A world without code has nothing untidy in it. -/
theorem tidy_of_blank {w : World} (ordered : w.scopes.Ordered) (outermost : 0 < w.scopes.all.size)
    (closures : w.heap.closures = #[]) (actions : ∀ a, (w.registry a).arena.actions = [])
    (generators : w.generators = #[]) (parked : ∀ t, (w.loop.promise t).parked? = none) : w.Tidy anywhere where
  allows := ⟨fun _ _ _ => trivial, fun _ _ closed => absurd trivial closed⟩
  ordered := ordered
  outermost := outermost
  closures c hc := by simp [closures] at hc
  actions a x hx := by simp [actions] at hx
  generators g code e := by simp [World.generator, generators] at e
  parked t code e := by simp [parked] at e

/-- The world with the built-in names has no code yet. -/
theorem tidy_initial (config : Config) : (World.initial config).Tidy anywhere := by
  have blank : World.Tidy anywhere { config, scopes := (Scopes.add {} { isFunction := true }).2 } := by
    refine tidy_of_blank (Scopes.Ordered.add (fun i p parent => ?_) fun p e => by cases e) ?_ rfl ?_ rfl ?_
    · have := Scopes.lt_of_parent parent
      simp at this
    · simp [Scopes.add]
    · intro a
      simp [World.registry, World.activation]
      rfl
    · intro t
      rw [Loop.promise_of_size_le _ (Nat.zero_le t)]
      rfl
  dsimp only [World.initial, Scopes.add] at blank ⊢
  refine .bindAnywhere ?_ _ _ _
  refine .bindAnywhere ?_ _ _ _
  refine .bindAnywhere ?_ _ _ _
  refine .bindAnywhere ?_ _ _ _
  refine (tidy_bindBuiltins blank outermost).heapAnywhere ?_
  rfl

/-- A program starts with tidy code. -/
theorem tidy_start (config : Config) (program : Node) : (Running.start config program).Tidy anywhere := by
  have initial := tidy_initial config
  unfold Running.start
  generalize World.initial config = w at initial
  obtain ⟨w₁, hw₁⟩ : ∃ w₁ : World, w₁ = { w with loop := (w.loop.add {}).2, current := (w.loop.add {}).1 } := ⟨_, rfl⟩
  obtain ⟨owner, howner⟩ : ∃ owner : Scope, owner =
    { parent := some outermost, activation := some w₁.activations.size, isFunction := true } := ⟨_, rfl⟩
  have looped : w.Advances anywhere anywhere w₁ := by
    rw [hw₁]
    exact initial.relooped rfl rfl rfl rfl fun t code e => .inl <|
      (Loop.parked_add e).elim id fun e => by cases e
  have called := @advances_newActivation _ anywhere _ looped.tidy mainName config.allowTopLevelAwait w₁.depth
  have added := @World.Tidy.addScope _ anywhere _ called.tidy owner fun p parent => by
    rw [howner] at parent
    exact Option.some.inj parent ▸ called.tidy.outermost
  have mark : ∀ {w : World} {f : Frame} {stack : Stack}, w.Bears anywhere stack → f.isQuiet = true → f.scopes = [] →
      w.Bears anywhere (f :: stack) := fun h quiet none => h.mark quiet none
  have bears : World.Bears anywhere _ [.activationEnd w₁.activations.size, .asyncDrive, .programEnd] :=
    mark (mark (mark ⟨added.tidy, trivial⟩ rfl rfl) rfl rfl) rfl rfl
  have starts := @tends_enterFrame _ anywhere _ _ w₁.scopes.all.size bears .module program.span
    ⟨Nat.lt_of_lt_of_eq (Nat.lt_succ_self _) (Scopes.size_add _ owner).symm, .inr ⟨fun j hj => (by cases hj), .inl rfl⟩⟩
    (fun _ => trivial) program.children .normal
  rw [howner, hw₁] at starts
  exact starts.code

/-- Tasks that go on in another order are tidy, too. -/
theorem Running.Tidy.reorder {w : World} {stack : Stack} {loop : Loop Stack}
    (tidy : Running.Tidy may ⟨w, .parked, stack⟩) (other : w.loop.Reorders loop) :
    Running.Tidy may ⟨{ w with loop := loop }, .parked, stack⟩ := by
  have e : w.Advances may anywhere { w with loop := loop } := by
    refine tidy.world.relooped rfl rfl rfl rfl fun t code e => .inl ?_
    rwa [Loop.promise, other.promises, ← Loop.promise] at e
  exact ⟨tidy.toBears.advance e, Control.tidy_of_not_isCode rfl⟩

/-- **Main result.**  In every state of every run, of whatever program, the code is tidy. -/
theorem Run.tidy (run : Run config program L s) : s.Tidy anywhere := by
  let _ : Node.MainRule := .any
  induction run with
  | start => exact tidy_start config _
  | step before next ih => exact (ih.step (before.orderly fun _ _ => trivial) next).code
  | reorder before other ih => exact ih.reorder other

/-- A step of a run that is tidy under some rule. -/
theorem Run.tends (run : Run config program L s) (tidy : s.Tidy may) (next : s.step = .next t) :
    t.Tends may s.Rebinds s.world := by
  let _ : Node.MainRule := .any
  exact tidy.step (run.orderly fun _ _ => trivial) next

/-- What is tidy under some rule stays so, and the scopes only grow. -/
theorem Run.tidy_later (run : Run config program L s) (tidy : s.Tidy may) (later : s.Later t) :
    t.Tidy may ∧ s.world.scopes.Grows t.world.scopes := by
  induction later with
  | refl => exact ⟨tidy, .refl _⟩
  | step before next ih =>
    obtain ⟨_, there⟩ := run.later before
    have tends := there.tends ih.1 next
    exact ⟨tends.code, ih.2.trans tends.grows⟩
  | reorder before other ih => exact ⟨ih.1.reorder other, ih.2⟩

end Runs

end ScopeExit.Script
