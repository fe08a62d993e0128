import ScopeExit.Proofs.Engine.Aging
import ScopeExit.Proofs.Script.Call
/-!
What code knows about the frames of the engine.

A frame of the engine is drained with the exit reason that its code came to.  The reason depends on the kind
of the frame: the code in the pass of a loop does not just end, it ends the pass, and nothing else does.  The
end of a pass goes no further than its loop, for between the two there are only ends of frames.

All of this is known long before the drain, by the code that will leave the frame, by a suspension that asks
for the drain, and by the drain itself while an action runs.  `Accounted` says that what they know is right.
-/
namespace ScopeExit

/-- What the code in a frame comes to when it ends. -/
def FrameKind.atEnd (k : FrameKind) : ExitReason :=
  if k = .loopIterationBody then .iterationEnd else .normal

/-- A frame of a kind may be left like this. -/
structure FrameKind.Leaves (k : FrameKind) (e : ExitKind) : Prop where
  pass : k = .loopIterationBody → e ≠ .normal
  ends : e = .iterationEnd → k = .loopIterationBody

theorem FrameKind.leaves_atEnd (k : FrameKind) : k.Leaves k.atEnd.kind := by
  cases k <;> constructor <;> simp [FrameKind.atEnd, ExitReason.kind]

/-- An exit that is more than an end is for frames of every kind. -/
theorem FrameKind.leaves_of_ne (k : FrameKind) {e : ExitKind} (other : e ≠ .normal) (ends : e ≠ .iterationEnd) :
    k.Leaves e := ⟨fun _ => other, fun e => absurd e ends⟩

namespace Script

/-! ### The ledger of a run -/

/-- What a run says of its drains. -/
def World.ledger (w : World) : Array DrainRecord × Nat × Nat × Nat :=
  (w.drains, w.stats.drains, w.stats.actionsExecuted, w.stats.actionFailures)

namespace World

variable (w : World)

@[simp] theorem ledger_bind (scope : Nat) (name : Text) (value : Value) :
    (w.bind scope name value).ledger = w.ledger := rfl

@[simp] theorem ledger_childScope (scope : Nat) : (w.childScope scope).2.ledger = w.ledger := rfl

@[simp] theorem ledger_method (builtin : Builtin) : (w.method builtin).2.ledger = w.ledger := rfl

@[simp] theorem ledger_memberKey (node : Node) : (w.memberKey node).2.ledger = w.ledger := rfl

@[simp] theorem ledger_copyScope (loop : CountingLoop) (scope : Nat) :
    (w.copyScope loop scope).2.ledger = w.ledger := by
  unfold World.copyScope
  split <;> rfl

@[simp] theorem ledger_define (kind name : Text) (target : Nat) (value : Value) :
    (w.define kind name target value).ledger = w.ledger := by
  simp only [World.define]
  split <;> rfl

/-- A change by what a computation gives. -/
theorem ledger_change {α β : Type} {r : Except Failure α} {f : World → α → β × World}
    (h : ∀ x, (f w x).2.ledger = w.ledger) : (w.change r f).2.ledger = w.ledger := by
  cases r with
  | ok x => exact h x
  | error failure => rfl

@[simp] theorem ledger_makeFunction (node : Node) (scope : Nat) :
    (w.makeFunction node scope).2.ledger = w.ledger := by
  unfold World.makeFunction
  split <;> rfl

@[simp] theorem ledger_hoist (scope : Nat) (statements : List Node) :
    (w.hoist scope statements).1.ledger = w.ledger := by
  induction statements generalizing w with
  | nil => rfl
  | cons s rest ih =>
    have made := w.ledger_makeFunction s scope
    unfold World.hoist
    split
    · split
      · rename_i v w' e
        rw [e] at made
        rw [ih, ledger_bind, made]
      · rename_i failure w' e
        rw [e] at made
        exact made
    · exact ih w

@[simp] theorem ledger_getProperty (object key : Value) : (w.getProperty object key).2.ledger = w.ledger := by
  refine w.ledger_change fun m => ?_
  cases m <;> rfl

@[simp] theorem ledger_setProperty (object key value : Value) :
    (w.setProperty object key value).2.ledger = w.ledger := by
  unfold World.setProperty
  split
  · exact w.ledger_change fun _ => rfl
  · exact w.ledger_change fun _ => rfl
  · split <;> rfl

@[simp] theorem ledger_readPlace (place : Place) : (w.readPlace place).2.ledger = w.ledger := by
  cases place with
  | name => rfl
  | property object key => exact w.ledger_getProperty object key

@[simp] theorem ledger_writePlace (place : Place) (value : Value) :
    (w.writePlace place value).2.ledger = w.ledger := by
  cases place with
  | name => exact w.ledger_change fun _ => rfl
  | property => exact w.ledger_setProperty ..

@[simp] theorem ledger_apply (builtin : Builtin) (arguments : List Value) :
    (w.apply builtin arguments).2.ledger = w.ledger := by
  cases builtin with
  | log | tick | sleep | makeError | makeSuppressed => exact w.ledger_change fun _ => rfl
  | toText => cases arguments <;> rfl
  | push | join | resume | named => rfl

@[simp] theorem ledger_register (node : Node) (scope : Nat) : (w.register node scope).2.ledger = w.ledger := by
  unfold World.register
  split
  · rfl
  · dsimp only
    split
    · rfl
    · exact w.ledger_change fun _ => rfl

end World

/-! ### Registries of a world -/

/-- All registries of a world grow older. -/
def World.Ages (w w' : World) : Prop := ∀ a, (w.registry a).Ages (w'.registry a)

section Ages

variable {w w' w'' : World}

theorem World.Ages.refl (w : World) : w.Ages w := fun _ => .refl _

theorem World.Ages.trans (h : w.Ages w') (h' : w'.Ages w'') : w.Ages w'' := fun a => (h a).trans (h' a)

theorem World.ages_of_eq (activations : w'.activations = w.activations) : w.Ages w' := by
  intro a
  rw [World.registry, World.registry, World.activation, World.activation, activations]
  exact .refl _

theorem World.ages_setRegistry (w : World) {a : Nat} {r : Registry Deferred} (ages : (w.registry a).Ages r) :
    w.Ages (w.setRegistry a r) := by
  intro b
  by_cases own : b = a
  · subst own
    by_cases inside : b < w.activations.size
    · rw [w.registry_setRegistry_self inside]
      exact ages
    · rw [World.registry, World.registry, World.activation_setRegistry, if_neg fun h => inside h.2]
      exact .refl _
  · rw [w.registry_setRegistry_of_ne own]
    exact .refl _

theorem World.ages_newActivation (w : World) (name : Text) (isAsync : Bool) :
    w.Ages (w.newActivation name isAsync).2 := by
  intro b
  rw [registry_newActivation]
  split
  · refine ⟨?_, List.forall_mem_nil _, fun _ => ⟨List.nodup_nil, List.forall_mem_nil _⟩⟩
    rename_i new
    have none : w.registry b = default := by
      rw [World.registry, World.activation, new, Array.getD_eq_getD_getElem?,
        Array.getElem?_eq_none (Nat.le_refl _)]
      rfl
    rw [none]
    exact Nat.le_refl _
  · exact .refl _

end Ages

/-! ### Accounts -/

/-- The end of a pass would reach its loop from here: only ends of frames stand in between. -/
def Stack.turns : Stack → Bool
  | .scopeEnd :: stack | .settling :: stack => turns stack
  | .whilePass _ :: _ | .doPass _ :: _ | .forPass .. :: _ | .forOfPass _ :: _ => true
  | _ => false

/-- A completion may reach what is below: the end of a pass finds its loop. -/
def Stack.Receives (stack : Stack) (reason : ExitReason) : Prop :=
  reason.kind = .iterationEnd → stack.turns = true

/-- The frame that a handle names may be left with an exit reason, and the reason may go on from there. -/
structure World.Leaves (w : World) (a : Nat) (handle : FrameHandle) (reason : ExitReason) (stack : Stack) :
    Prop where
  known : (w.registry a).Knows handle (·.Leaves reason.kind)
  receives : stack.Receives reason

/-- A drain whose action is running: the counts are right, and so is what is known about the frame. -/
structure World.Runs (w : World) (a : Nat) (d : Drain) (stack : Stack) : Prop where
  balanced : d.Balanced
  running : d.aggregator.failures < d.executed
  frame : d.handle.frame = d.frame.id
  known : (w.registry a).Knows d.handle (· = d.frame.kind)
  leaves : d.frame.kind.Leaves d.aggregator.pending.kind
  receives : stack.Receives d.aggregator.pending

/-- Code in a frame knows what it comes to at its end. -/
structure World.Ends (w : World) (a : Nat) (handle : FrameHandle) (atEnd : ExitReason) (stack : Stack) :
    Prop where
  known : (w.registry a).Knows handle fun k => atEnd = k.atEnd
  receives : stack.Receives atEnd

/-- A request for a drain fits the frame. -/
def Request.Accounts (w : World) (stack : Stack) : Request → Prop
  | .drain a handle reason => w.Leaves a handle reason stack
  | _ => True

/-- What a frame on a stack knows is right. -/
def Frame.Accounts (w : World) (stack : Stack) : Frame → Prop
  | .scopeBody a handle atEnd => w.Ends a handle atEnd stack
  | .draining a d => w.Runs a d stack
  | .taskStart request => request.Accounts w stack
  | .finallyBody reason | .forOfClose reason => reason.kind ≠ .iterationEnd
  | _ => True

/-- What code on a stack does next fits the frames. -/
def Control.Accounts (w : World) (stack : Stack) : Control → Prop
  | .complete reason => stack.Receives reason
  | .suspend request => request.Accounts w stack
  | _ => True

/-- What the frames of a stack know is right. -/
def Stack.Accounted (w : World) : Stack → Prop
  | [] => True
  | f :: stack => f.Accounts w stack ∧ Accounted w stack

/-- What waits to go on is right about its frames, the frames have identities of their own, and code runs in
activations only that there are. -/
structure World.Accounted (w : World) : Prop where
  dated : ∀ a, (w.registry a).Dated
  homes : ∀ i, w.scopes.activation i < w.activations.size
  generators : ∀ g code, w.generator g = .suspended code → code.Accounted w
  parked : ∀ t code, (w.loop.promise t).parked? = some code → code.Accounted w

/-- Everything is right about the frames of the engine. -/
structure Running.Accounted (s : Running) : Prop where
  world : s.world.Accounted
  stack : s.stack.Accounted s.world
  control : s.control.Accounts s.world s.stack

section Accounts

variable {w w' : World} {stack rest : Stack} {reason : ExitReason} {f : Frame} {c : Control}

theorem receives_of_ne (other : reason.kind ≠ .iterationEnd) : stack.Receives reason :=
  fun ends => absurd ends other

theorem receives_normal : stack.Receives .normal := fun e => ExitKind.noConfusion e

section Mono

variable (ages : w.Ages w')

include ages

theorem Request.Accounts.mono {request : Request} (h : request.Accounts w stack) :
    request.Accounts w' stack := by
  cases request with
  | drain a => exact ⟨h.known.mono (ages a), h.receives⟩
  | _ => trivial

theorem Frame.Accounts.mono (h : f.Accounts w stack) : f.Accounts w' stack := by
  cases f with
  | scopeBody a => exact ⟨h.known.mono (ages a), h.receives⟩
  | draining a => exact ⟨h.balanced, h.running, h.frame, h.known.mono (ages a), h.leaves, h.receives⟩
  | taskStart => exact Request.Accounts.mono ages h
  | _ => exact h

theorem Control.Accounts.mono (h : c.Accounts w stack) : c.Accounts w' stack := by
  cases c with
  | suspend => exact Request.Accounts.mono ages h
  | _ => exact h

theorem Stack.Accounted.mono (h : stack.Accounted w) : stack.Accounted w' := by
  induction stack with
  | nil => trivial
  | cons f stack ih => exact ⟨Frame.Accounts.mono ages h.1, ih h.2⟩

/-- Only what waits may be new. -/
theorem World.Accounted.mono (h : w.Accounted)
    (homes : ∀ i, w'.scopes.activation i < w'.activations.size)
    (generators : ∀ g code, w'.generator g = .suspended code → code.Accounted w)
    (parked : ∀ t code, (w'.loop.promise t).parked? = some code → code.Accounted w) : w'.Accounted where
  dated a := (ages a).dated (h.dated a)
  homes := homes
  generators g code e := (generators g code e).mono ages
  parked t code e := (parked t code e).mono ages

end Mono

/-- The loop may park code that is right about its frames. -/
theorem World.Accounted.relooped (h : w.Accounted) (scopes : w'.scopes = w.scopes)
    (activations : w'.activations = w.activations) (generators : w'.generators = w.generators)
    (parked : ∀ t code, (w'.loop.promise t).parked? = some code →
      (w.loop.promise t).parked? = some code ∨ code.Accounted w) : w'.Accounted := by
  refine h.mono (World.ages_of_eq activations) ?_ (fun g code e => ?_) fun t code e => ?_
  · rw [scopes, activations]
    exact h.homes
  · rw [World.generator, generators] at e
    exact h.generators g code e
  · exact (parked t code e).elim (h.parked t code) id

/-- The depth of calls does not matter. -/
theorem World.Accounted.deeper (h : w.Accounted) (depth : Int) :
    World.Accounted { w with depth := depth } := h.relooped rfl rfl rfl fun _ _ => .inl

theorem World.Accounted.setGenerator (h : w.Accounted) (g : Nat) {state : GeneratorState}
    (keeps : ∀ code, state = .suspended code → code.Accounted w) : (w.setGenerator g state).Accounted := by
  refine h.mono (World.ages_of_eq (w := w) rfl) h.homes (fun g' code e => ?_) h.parked
  rcases generator_setGenerator w g state g' with ⟨-, new | done⟩ | ⟨-, old⟩
  · exact keeps code (new.symm.trans e)
  · cases done.symm.trans e
  · exact h.generators g' code (old.symm.trans e)

/-- Above the end of a body it does not matter what is below. -/
theorem turns_above_end (frames : Stack) (a : Nat) (rest : Stack) :
    Stack.turns (frames ++ .activationEnd a :: rest) = Stack.turns (frames ++ [.activationEnd a]) := by
  induction frames with
  | nil => rfl
  | cons f frames ih => cases f <;> first | exact ih | rfl

theorem Stack.Receives.congr (same : stack.turns = rest.turns) (h : stack.Receives reason) :
    rest.Receives reason := fun ends => same.symm.trans (h ends)

theorem Request.Accounts.congr {request : Request} (same : stack.turns = rest.turns)
    (h : request.Accounts w stack) : request.Accounts w rest := by
  cases request with
  | drain => exact ⟨h.known, h.receives.congr same⟩
  | _ => trivial

/-- What a frame knows about the stack is where the end of a pass would go. -/
theorem Frame.Accounts.congr (same : stack.turns = rest.turns) (h : f.Accounts w stack) :
    f.Accounts w rest := by
  cases f with
  | scopeBody => exact ⟨h.known, h.receives.congr same⟩
  | draining => exact { h with receives := h.receives.congr same }
  | taskStart => exact Request.Accounts.congr same h
  | _ => exact h

theorem accounted_above_end (frames : Stack) (a : Nat) (rest : Stack) :
    Stack.Accounted w (frames ++ .activationEnd a :: rest) ↔
      Stack.Accounted w (frames ++ [.activationEnd a]) ∧ rest.Accounted w := by
  induction frames with
  | nil => exact ⟨fun h => ⟨⟨trivial, trivial⟩, h.2⟩, fun h => ⟨trivial, h.2⟩⟩
  | cons f frames ih =>
    have same := turns_above_end frames a rest
    simp only [List.cons_append, Stack.Accounted, ih, ← and_assoc]
    exact and_congr_left fun _ => and_congr_left fun _ => ⟨.congr same, .congr same.symm⟩

theorem Stack.Accounted.suffix (h : stack.Accounted w) (below : rest <:+ stack) : rest.Accounted w := by
  obtain ⟨upper, rfl⟩ := below
  induction upper with
  | nil => exact h
  | cons f upper ih => exact ih h.2

theorem Stack.Receives.ne (h : stack.Receives reason) (straight : stack.turns = false) :
    reason.kind ≠ .iterationEnd := fun ends => Bool.false_ne_true (straight.symm.trans (h ends))

end Accounts

end Script

end ScopeExit
