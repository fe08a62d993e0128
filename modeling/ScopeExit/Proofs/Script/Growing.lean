import ScopeExit.Proofs.Script.Accounting
import ScopeExit.Proofs.Script.Standing
/-!
What one step adds to the world.

Scopes, activations and generators are made and registries grow older, but promises only come to be, for
tasks that sleep, and what the run has seen so far stays as it is.  Most of the changes are slight: they are
no more than a part of a step, in which no call begins or ends and no drain is reported.

Along with that goes a rule for the statements that run in the activation of the module: a rule that
passes from a statement to all that running it leads to holds of every statement that is ever kept for
that activation, on a stack, with a suspended generator, with a parked task, or in the arena.
-/
namespace ScopeExit

/-- A rule for the statements that run in the activation of the module.  It passes on to the statements
that running one of them may lead to. -/
class Node.MainRule where
  admits : Node → Prop
  children : ∀ {n : Node}, admits n → n.kind.isFunction = false → ∀ c ∈ n.children, admits c
  clauses : ∀ {n : Node}, admits n → n.kind = .switch →
    ∀ c ∈ n.children.drop 1, ∀ s ∈ c.children, admits s
  handlers : ∀ {n block handler finalizer : Node}, admits n → n.kind = .try →
    n.children = [block, handler, finalizer] → ∀ s ∈ handler.children, admits s

/-- The rule that says nothing. -/
@[reducible] def Node.MainRule.any : Node.MainRule :=
  ⟨fun _ => True, fun _ _ _ _ => trivial, fun _ _ _ _ _ _ => trivial, fun _ _ _ _ _ => trivial⟩

namespace Script

open World Stack

/-! ### Groups of frames -/

/-- Groups of frames that one step may put on a stack. -/
inductive Pile : Stack → Prop
  | nil : Pile []
  | frame {f : Frame} {upper : Stack} (plain : f.isPlain = true) (rest : Pile upper) : Pile (f :: upper)
  | action {b : Frame} {a : Nat} {d : Drain} {upper : Stack} (hb : b = .syncBoundary ∨ b = .asyncDrive)
      (rest : Pile upper) : Pile (b :: .draining a d :: upper)
  | call {a : Nat} {b : Frame} {upper : Stack} (hb : b = .syncBoundary ∨ b = .asyncStart)
      (rest : Pile upper) : Pile (.activationEnd a :: b :: .callEnd :: upper)
  | step {a g : Nat} {upper : Stack} (rest : Pile upper) :
      Pile (.activationEnd a :: .generatorBoundary g :: upper)

namespace Pile

theorem append {upper lower : Stack} (h : Pile upper) (h' : Pile lower) : Pile (upper ++ lower) := by
  induction h with
  | nil => exact h'
  | frame plain _ ih => exact .frame plain ih
  | action hb _ ih => exact .action hb ih
  | call hb _ ih => exact .call hb ih
  | step _ ih => exact .step ih

theorem frames {upper lower : Stack} (plain : ∀ f ∈ upper, f.isPlain = true) (h : Pile lower) :
    Pile (upper ++ lower) := by
  induction upper with
  | nil => exact h
  | cons f upper ih =>
    exact .frame (plain f (by simp)) (ih fun f hf => plain f (List.mem_cons_of_mem _ hf))

/-- Code may run on top of what was put on code. -/
theorem isOpen {upper stack : Stack} (h : Pile upper) (rest : Open stack) : Open (upper ++ stack) := by
  induction h with
  | nil => exact rest
  | frame plain _ ih => exact .frame plain ih
  | action hb _ ih => exact .action hb ih
  | call hb _ ih => exact .call hb ih
  | step _ ih => exact .step ih

end Pile

/-! ### Statements that are kept -/

section Fits

variable [Node.MainRule]

/-- The rule for the module admits the statements if they run in a scope of its activation. -/
def World.Suits (w : World) (scope : Nat) (nodes : List Node) : Prop :=
  w.scopes.activation scope = 0 → ∀ n ∈ nodes, Node.MainRule.admits n

/-- The statements that a frame keeps suit the scopes that they will run in. -/
def Frame.Fits (w : World) : Frame → Prop
  | .statements rest scope => w.Suits scope rest
  | .ifCondition node scope | .forOfSubject node scope _ => w.Suits scope node.children
  | .whileCondition loop | .whilePass loop | .doPass loop | .doCondition loop =>
    w.Suits loop.scope [loop.body]
  | .forStart loop scope | .forCondition loop scope | .forPass loop scope | .forStep loop scope =>
    w.Suits scope [loop.body]
  | .forOfNext loop | .forOfPass loop => w.Suits loop.scope [loop.body]
  | .switchSubject node scope _ => w.Suits scope ((node.children.drop 1).flatMap Node.children)
  | .switchTest _ clause rest fallback scope =>
    w.Suits scope ((clause :: rest).flatMap Node.children) ∧
      ∀ clauses ∈ fallback, w.Suits scope (clauses.flatMap Node.children)
  | .tryBody handler finalizer scope => w.Suits scope (finalizer :: handler.children)
  | .catchBody finalizer scope => w.Suits scope [finalizer]
  | .parameter _ _ _ _ scope => w.scopes.activation scope ≠ 0
  | _ => True

/-- A statement that is about to run suits its scope, and there is something to do. -/
def Control.Fits (w : World) : Control → Prop
  | .execute node scope => w.Suits scope [node]
  | .parked => False
  | _ => True

/-- The code of a suspended generator ends its body, and none of it is a group of its own. -/
def IsSegment (code : Stack) : Prop :=
  ∃ frames a, code = frames ++ [.activationEnd a] ∧ ∀ f ∈ frames, f.isPlain = true

omit [Node.MainRule] in
theorem IsSegment.turns_append {code : Stack} (h : IsSegment code) (rest : Stack) :
    Stack.turns (code ++ rest) = code.turns := by
  obtain ⟨frames, a, rfl, -⟩ := h
  rw [List.append_assoc]
  exact turns_above_end ..

omit [Node.MainRule] in
theorem IsSegment.accounted_append {w : World} {code rest : Stack} (h : IsSegment code) :
    Stack.Accounted w (code ++ rest) ↔ code.Accounted w ∧ rest.Accounted w := by
  obtain ⟨frames, a, rfl, -⟩ := h
  rw [List.append_assoc]
  exact accounted_above_end ..

/-- A generator keeps code that fits, or has an activation that is not the one of the module. -/
def GeneratorState.Keeps (w : World) : GeneratorState → Prop
  | .fresh _ _ a => a ≠ 0 ∧ a < w.activations.size
  | .suspended code => IsSegment code ∧ ∀ f ∈ code, f.Fits w
  | _ => True

/-- The statements of a world that are not on the stack suit their scopes too, and what is parked may go
on. -/
structure World.Kept (w : World) : Prop where
  /-- The module has an activation. -/
  main : 0 < w.activations.size
  actions : ∀ a, ∀ x ∈ (w.registry a).arena.actions, w.Suits x.body.scope [x.body.body]
  generators : ∀ g, (w.generator g).Keeps w
  parked : ∀ t code, (w.loop.promise t).parked? = some code → Stands code ∧ ∀ f ∈ code, f.Fits w

theorem World.Suits.subset {w : World} {scope : Nat} {nodes nodes' : List Node} (h : w.Suits scope nodes)
    (sub : nodes' ⊆ nodes) : w.Suits scope nodes' := fun main n hn => h main n (sub hn)

theorem World.Suits.one {w : World} {scope : Nat} {nodes : List Node} (h : w.Suits scope nodes) {n : Node}
    (hn : n ∈ nodes) : w.Suits scope [n] := fun main => List.forall_mem_singleton.mpr (h main n hn)

/-- What suits a scope suits any scope of the same activation. -/
theorem World.Suits.same {w w' : World} {scope scope' : Nat} {nodes : List Node} (h : w.Suits scope nodes)
    (same : w'.scopes.activation scope' = w.scopes.activation scope) : w'.Suits scope' nodes :=
  fun main => h (same.symm.trans main)

end Fits

/-! ### Growing worlds -/

/-- No scope comes to belong to the module that did not before. -/
def World.KeepsOwners (w w' : World) : Prop :=
  ∀ i, w'.scopes.activation i = 0 → w.scopes.activation i = 0

section Owners

variable [Node.MainRule] {w w' : World} (owners : w.KeepsOwners w')

include owners

theorem World.Suits.mono {scope : Nat} {nodes : List Node} (h : w.Suits scope nodes) :
    w'.Suits scope nodes := fun main => h (owners scope main)

theorem Frame.Fits.mono {f : Frame} (h : f.Fits w) : f.Fits w' := by
  cases f with
  | statements | ifCondition | whileCondition | whilePass | doPass | doCondition | forStart | forCondition
  | forPass | forStep | forOfSubject | forOfNext | forOfPass | switchSubject | tryBody | catchBody =>
    exact World.Suits.mono owners h
  | switchTest => exact ⟨h.1.mono owners, fun clauses hc => (h.2 clauses hc).mono owners⟩
  | parameter closure name rest arguments scope => exact fun main => h (owners scope main)
  | _ => trivial

theorem Control.Fits.mono {c : Control} (h : c.Fits w) : c.Fits w' := by
  cases c with
  | execute => exact World.Suits.mono owners h
  | parked => exact h
  | _ => trivial

theorem GeneratorState.Keeps.mono {state : GeneratorState}
    (count : w.activations.size ≤ w'.activations.size) (h : state.Keeps w) : state.Keeps w' := by
  cases state with
  | fresh => exact ⟨h.1, Nat.lt_of_lt_of_le h.2 count⟩
  | suspended => exact ⟨h.1, fun f hf => (h.2 f hf).mono owners⟩
  | _ => trivial

end Owners

/-- The promises of a world, and those of a world in which some tasks were made that sleep. -/
inductive Naps (w : World) : World → Prop
  | none {w' : World} (loop : w'.loop = w.loop) (tracked : w'.tracked = w.tracked) : Naps w w'
  | nap {w' w'' : World} (before : Naps w w') (seconds : Float)
      (loop : w''.loop = (w'.loop.spawn [.nap seconds, .taskEnd w'.loop.promises.size]).2)
      (tracked : w''.tracked = w'.tracked.push w'.loop.promises.size) : Naps w w''

theorem Naps.trans {w w' w'' : World} (h : Naps w w') (h' : Naps w' w'') : Naps w w'' := by
  induction h' with
  | none loop tracked =>
    cases h with
    | none loop' tracked' => exact .none (loop.trans loop') (tracked.trans tracked')
    | nap before seconds loop' tracked' =>
      exact .nap before seconds (loop.trans loop') (tracked.trans tracked')
  | nap _ seconds loop tracked ih => exact .nap ih seconds loop tracked

/-- What one step may do to the world, apart from the depth of calls. -/
structure Evolves [Node.MainRule] (w w' : World) : Prop where
  config : w'.config = w.config
  current : w'.current = w.current
  ending : w'.ending? = w.ending?
  observed : w'.observed = w.observed
  owners : w.KeepsOwners w'
  activations : w.activations.size ≤ w'.activations.size
  naps : Naps w w'
  kept : w.Kept → w'.Kept
  ages : w.Ages w'

/-- Only the heap, the scopes, the output and the statistics change. -/
structure Minor (w w' : World) : Prop where
  config : w'.config = w.config
  activations : w'.activations = w.activations
  generators : w'.generators = w.generators
  loop : w'.loop = w.loop
  tracked : w'.tracked = w.tracked
  observed : w'.observed = w.observed
  depth : w'.depth = w.depth
  current : w'.current = w.current
  ending : w'.ending? = w.ending?
  owners : w.KeepsOwners w'

section Evolves

variable [Node.MainRule] {w w' w'' : World}

theorem Evolves.refl (w : World) : Evolves w w :=
  ⟨rfl, rfl, rfl, rfl, fun _ => id, Nat.le_refl _, .none rfl rfl, id, .refl w⟩

theorem Evolves.trans (h : Evolves w w') (h' : Evolves w' w'') : Evolves w w'' where
  config := h'.config.trans h.config
  current := h'.current.trans h.current
  ending := h'.ending.trans h.ending
  observed := h'.observed.trans h.observed
  owners i hi := h.owners i (h'.owners i hi)
  activations := Nat.le_trans h.activations h'.activations
  naps := h.naps.trans h'.naps
  kept hk := h'.kept (h.kept hk)
  ages := h.ages.trans h'.ages

omit [Node.MainRule] in
theorem Minor.refl (w : World) : Minor w w := ⟨rfl, rfl, rfl, rfl, rfl, rfl, rfl, rfl, rfl, fun _ => id⟩

omit [Node.MainRule] in
theorem Minor.trans (h : Minor w w') (h' : Minor w' w'') : Minor w w'' where
  config := h'.config.trans h.config
  activations := h'.activations.trans h.activations
  generators := h'.generators.trans h.generators
  loop := h'.loop.trans h.loop
  tracked := h'.tracked.trans h.tracked
  observed := h'.observed.trans h.observed
  depth := h'.depth.trans h.depth
  current := h'.current.trans h.current
  ending := h'.ending.trans h.ending
  owners i hi := h.owners i (h'.owners i hi)

/-- What is kept stays kept where only owners of scopes come to be known. -/
theorem World.Kept.mono (h : w.Kept) (owners : w.KeepsOwners w')
    (main : w.activations.size ≤ w'.activations.size)
    (actions : ∀ a, ∀ x ∈ (w'.registry a).arena.actions, w.Suits x.body.scope [x.body.body])
    (generators : ∀ g, (w'.generator g).Keeps w)
    (parked : ∀ t code, (w'.loop.promise t).parked? = some code → Stands code ∧ ∀ f ∈ code, f.Fits w) :
    w'.Kept where
  main := Nat.lt_of_lt_of_le h.main main
  actions a x hx := (actions a x hx).mono owners
  generators g := (generators g).mono owners main
  parked t code e := ⟨(parked t code e).1, fun f hf => ((parked t code e).2 f hf).mono owners⟩

theorem Minor.evolves (h : Minor w w') : Evolves w w' where
  config := h.config
  current := h.current
  ending := h.ending
  observed := h.observed
  owners := h.owners
  activations := Nat.le_of_eq (congrArg Array.size h.activations.symm)
  naps := .none h.loop h.tracked
  ages := World.ages_of_eq h.activations
  kept hk := by
    refine hk.mono h.owners (Nat.le_of_eq (congrArg Array.size h.activations.symm)) ?_ ?_ ?_
    · intro a
      rw [World.registry, World.activation, h.activations]
      exact hk.actions a
    · intro g
      rw [World.generator, h.generators]
      exact hk.generators g
    · rw [h.loop]
      exact hk.parked

end Evolves

/-! ### Minor changes -/

section Minor

variable {w : World}

theorem minor_heap (heap : Heap) : Minor w { w with heap := heap } :=
  ⟨rfl, rfl, rfl, rfl, rfl, rfl, rfl, rfl, rfl, fun _ => id⟩

theorem minor_stats (stats : Stats) : Minor w { w with stats := stats } :=
  ⟨rfl, rfl, rfl, rfl, rfl, rfl, rfl, rfl, rfl, fun _ => id⟩

theorem minor_scopes {scopes : Scopes} (owners : ∀ i, scopes.activation i = 0 → w.scopes.activation i = 0) :
    Minor w { w with scopes := scopes } := ⟨rfl, rfl, rfl, rfl, rfl, rfl, rfl, rfl, rfl, owners⟩

/-- A scope that does not exist yet belongs to nothing. -/
theorem activation_of_size_le (s : Scopes) {i : Nat} (h : s.all.size ≤ i) : s.activation i = 0 := by
  simp only [Scopes.activation, Scopes.get, Array.getD_eq_getD_getElem?, Array.getElem?_eq_none h]
  rfl

theorem activation_add (s : Scopes) (scope : Scope) (i : Nat) :
    (s.add scope).2.activation i =
      if i = s.all.size then scope.activation.getD 0 else s.activation i := by
  by_cases h : i = s.all.size
  · rw [if_pos h, h, Scopes.activation, Scopes.get_add]
  · simp [h, Scopes.activation, Scopes.get, Scopes.add, Array.getD_eq_getD_getElem?, Array.getElem?_push]

theorem activation_bind (s : Scopes) (scope : Nat) (name : Text) (value : Value) (i : Nat) :
    (s.bind scope name value).activation i = s.activation i := by
  rw [Scopes.activation, Scopes.bind, get_modify _ _ _ (by intro _; rfl), Scopes.activation]

theorem activation_makeConstant (s : Scopes) (scope : Nat) (name : Text) (i : Nat) :
    (s.makeConstant scope name).activation i = s.activation i := by
  rw [Scopes.activation, Scopes.makeConstant, get_modify _ _ _ (by intro _; rfl), Scopes.activation]

theorem minor_addScope (scope : Scope) : Minor w { w with scopes := (w.scopes.add scope).2 } := by
  refine minor_scopes fun i hi => ?_
  rw [activation_add] at hi
  split at hi
  · rename_i h
    exact activation_of_size_le _ (Nat.le_of_eq h.symm)
  · exact hi

theorem minor_childScope (scope : Nat) : Minor w (w.childScope scope).2 := minor_addScope _

/-- A scope inside another one belongs to the same activation. -/
theorem activation_childScope (scope : Nat) :
    (w.childScope scope).2.scopes.activation (w.childScope scope).1 = w.scopes.activation scope := by
  refine (activation_add _ _ _).trans ?_
  exact if_pos rfl

theorem minor_copyScope (loop : CountingLoop) (scope : Nat) : Minor w (w.copyScope loop scope).2 := by
  unfold World.copyScope
  split
  · exact minor_addScope _
  · exact .refl w

theorem activation_copyScope (loop : CountingLoop) (scope : Nat) :
    (w.copyScope loop scope).2.scopes.activation (w.copyScope loop scope).1 =
      w.scopes.activation scope := by
  unfold World.copyScope
  split
  · exact (activation_add _ _ _).trans (if_pos rfl)
  · rfl

theorem minor_bind (scope : Nat) (name : Text) (value : Value) : Minor w (w.bind scope name value) :=
  minor_scopes fun _ hi => (activation_bind ..).symm.trans hi

theorem minor_define (kind name : Text) (target : Nat) (value : Value) :
    Minor w (w.define kind name target value) := by
  simp only [World.define]
  split
  · exact (minor_bind target name value).trans
      (minor_scopes fun _ hi => (activation_makeConstant ..).symm.trans hi)
  · exact minor_bind target name value

/-- A change by what a computation gives. -/
theorem minor_change {α β : Type} {r : Except Failure α} {f : World → α → β × World}
    (h : ∀ x, Minor w (f w x).2) : Minor w (w.change r f).2 := by
  cases r with
  | ok x => exact h x
  | error failure => exact .refl w

theorem minor_makeFunction (node : Node) (scope : Nat) : Minor w (w.makeFunction node scope).2 := by
  unfold World.makeFunction
  split
  · exact .refl w
  · exact minor_heap _

theorem minor_hoist (scope : Nat) (statements : List Node) : Minor w (w.hoist scope statements).1 := by
  induction statements generalizing w with
  | nil => exact .refl w
  | cons s rest ih =>
    have hmade := minor_makeFunction (w := w) s scope
    unfold World.hoist
    split
    · split
      · rename_i v w' e
        rw [e] at hmade
        exact (hmade.trans (minor_bind ..)).trans ih
      · rename_i failure w' e
        rw [e] at hmade
        exact hmade
    · exact ih

theorem minor_method (builtin : Builtin) : Minor w (w.method builtin).2 := minor_heap _

theorem minor_memberKey (node : Node) : Minor w (w.memberKey node).2 := minor_heap _

theorem minor_getProperty (object key : Value) : Minor w (w.getProperty object key).2 := by
  refine minor_change fun m => ?_
  cases m with
  | value => exact .refl w
  | method => exact minor_method _

end Minor

/-! ### Other changes -/

section Changes

variable [Node.MainRule] {w : World}

/-- A registry that takes no action but one that suits its scope. -/
theorem evolves_setRegistry (a : Nat) {r : Registry Deferred} (ages : (w.registry a).Ages r)
    (actions : w.Kept → ∀ x ∈ r.arena.actions, w.Suits x.body.scope [x.body.body]) :
    Evolves w (w.setRegistry a r) where
  config := rfl
  current := rfl
  ending := rfl
  observed := rfl
  owners _ := id
  activations := by simp [World.setRegistry]
  naps := .none rfl rfl
  ages := w.ages_setRegistry ages
  kept h := by
    refine h.mono (fun _ => id) (by simp [World.setRegistry]) ?_ h.generators h.parked
    intro b
    by_cases hb : b = a
    · by_cases hlt : a < w.activations.size
      · rw [hb, w.registry_setRegistry_self hlt]
        exact actions h
      · rw [World.registry, World.activation_setRegistry, if_neg fun hba => hlt (hb ▸ hba.2)]
        exact h.actions b
    · rw [w.registry_setRegistry_of_ne hb]
      exact h.actions b

theorem evolves_setGenerator (g : Nat) {state : GeneratorState} (keeps : w.Kept → state.Keeps w) :
    Evolves w (w.setGenerator g state) where
  config := rfl
  current := rfl
  ending := rfl
  observed := rfl
  owners _ := id
  activations := Nat.le_refl _
  naps := .none rfl rfl
  ages := World.ages_of_eq rfl
  kept h := by
    refine h.mono (fun _ => id) (Nat.le_refl _) h.actions (fun g' => ?_) h.parked
    rcases generator_setGenerator w g state g' with ⟨-, hstate | hdone⟩ | ⟨-, hsame⟩
    · rw [hstate]
      exact keeps h
    · rw [hdone]
      trivial
    · rw [hsame]
      exact h.generators g'

theorem evolves_newActivation (name : Text) (isAsync : Bool) :
    Evolves w (w.newActivation name isAsync).2 where
  config := rfl
  current := rfl
  ending := rfl
  observed := rfl
  owners _ := id
  activations := by simp [World.newActivation]
  naps := .none rfl rfl
  ages := w.ages_newActivation name isAsync
  kept h := by
    refine h.mono (fun _ => id) (by simp [World.newActivation]) (fun b => ?_) h.generators h.parked
    rw [registry_newActivation]
    split
    · exact List.forall_mem_nil _
    · exact h.actions b

/-- A new generator for a call that is not the one of the module. -/
theorem evolves_pushGenerator (closure : Nat) (arguments : List Value) {a : Nat}
    (own : w.Kept → a ≠ 0 ∧ a < w.activations.size) (heap : Heap) :
    Evolves w { w with heap := heap, generators := w.generators.push (.fresh closure arguments a) } where
  config := rfl
  current := rfl
  ending := rfl
  observed := rfl
  owners _ := id
  activations := Nat.le_refl _
  naps := .none rfl rfl
  ages := World.ages_of_eq rfl
  kept h := by
    refine h.mono (fun _ => id) (Nat.le_refl _) h.actions (fun g => ?_) h.parked
    have hstate : ({ w with heap := heap, generators := w.generators.push (.fresh closure arguments a) } :
        World).generator g = if g = w.generators.size then .fresh closure arguments a else w.generator g := by
      simp only [World.generator, Array.getD_eq_getD_getElem?, Array.getElem?_push]
      split <;> rfl
    rw [hstate]
    split
    · exact own h
    · exact h.generators g

/-- A task that sleeps. -/
theorem evolves_nap (seconds : Float) : Evolves w (w.nap seconds).2 where
  config := rfl
  current := rfl
  ending := rfl
  observed := rfl
  owners _ := id
  activations := Nat.le_refl _
  naps := .nap (.none rfl rfl) seconds rfl rfl
  ages := World.ages_of_eq rfl
  kept h := by
    refine h.mono (fun _ => id) (Nat.le_refl _) h.actions h.generators fun t code e => ?_
    rcases Loop.promise_add w.loop { parked? := some [.nap seconds, .taskEnd w.loop.promises.size] } t
      with hold | ⟨-, hnew⟩
    · exact h.parked t code (hold ▸ e)
    · obtain rfl := Option.some.inj ((congrArg Promise.parked? hnew).symm.trans e)
      exact ⟨.nap, by simp [Frame.Fits]⟩

end Changes

/-! ### Slight changes -/

/-- A change of the world that is no more than a part of one step: no call begins or ends, nothing is said of
drains, and what is known about the frames stays right. -/
structure Slight [Node.MainRule] (w w' : World) : Prop extends Evolves w w' where
  depth : w'.depth = w.depth
  ledger : w'.ledger = w.ledger
  accounted : w.Accounted → w'.Accounted

section Slight

variable [Node.MainRule] {w w' w'' : World}

theorem Slight.refl (w : World) : Slight w w := ⟨.refl w, rfl, rfl, id⟩

theorem Slight.trans (h : Slight w w') (h' : Slight w' w'') : Slight w w'' :=
  ⟨h.toEvolves.trans h'.toEvolves, h'.depth.trans h.depth, h'.ledger.trans h.ledger,
    fun acc => h'.accounted (h.accounted acc)⟩

/-- A minor change is slight if it makes no scope for an activation that is new. -/
theorem Minor.slight (h : Minor w w') (ledger : w'.ledger = w.ledger)
    (homes : ∀ n, (∀ i, w.scopes.activation i < n) → ∀ i, w'.scopes.activation i < n) : Slight w w' where
  toEvolves := h.evolves
  depth := h.depth
  ledger := ledger
  accounted acc := by
    refine acc.mono h.evolves.ages ?_ (fun g code e => ?_) fun t code e => ?_
    · rw [h.activations]
      exact homes _ acc.homes
    · rw [World.generator, h.generators] at e
      exact acc.generators g code e
    · rw [h.loop] at e
      exact acc.parked t code e

/-- The scopes stay as they are. -/
theorem Minor.slight_same (h : Minor w w') (ledger : w'.ledger = w.ledger) (scopes : w'.scopes = w.scopes) :
    Slight w w' := h.slight ledger fun _ homes => by rwa [scopes]

theorem slight_heap (heap : Heap) : Slight w { w with heap := heap } := (minor_heap heap).slight_same rfl rfl

/-- Statements, activations and frames are counted. -/
theorem slight_stats {stats : Stats} (ledger : ({ w with stats := stats } : World).ledger = w.ledger) :
    Slight w { w with stats := stats } := (minor_stats stats).slight_same ledger rfl

theorem slight_childScope (scope : Nat) : Slight w (w.childScope scope).2 := by
  refine (minor_childScope scope).slight rfl fun n homes i => ?_
  refine Nat.lt_of_le_of_lt (Nat.le_of_eq (activation_add ..)) ?_
  split
  · exact homes scope
  · exact homes i

theorem slight_copyScope (loop : CountingLoop) (scope : Nat) : Slight w (w.copyScope loop scope).2 := by
  unfold World.copyScope
  split
  · refine (minor_addScope _).slight rfl fun n homes i => ?_
    refine Nat.lt_of_le_of_lt (Nat.le_of_eq (activation_add ..)) ?_
    split
    · exact homes scope
    · exact homes i
  · exact .refl w

/-- A scope for the activation of a call. -/
theorem slight_callScope {scope : Scope} {a : Nat} (own : scope.activation = some a)
    (inside : a < w.activations.size) :
    Slight w { w with scopes := (w.scopes.add scope).2 } where
  toEvolves := (minor_addScope scope).evolves
  depth := rfl
  ledger := rfl
  accounted acc := by
    refine acc.mono (World.ages_of_eq (w := w) rfl) (fun i => ?_) acc.generators acc.parked
    refine Nat.lt_of_le_of_lt (Nat.le_of_eq (activation_add ..)) ?_
    split
    · rw [own]
      exact inside
    · exact acc.homes i

theorem slight_bind (scope : Nat) (name : Text) (value : Value) : Slight w (w.bind scope name value) :=
  (minor_bind scope name value).slight rfl fun _ homes i =>
    Nat.lt_of_le_of_lt (Nat.le_of_eq (activation_bind ..)) (homes i)

theorem slight_define (kind name : Text) (target : Nat) (value : Value) :
    Slight w (w.define kind name target value) := by
  refine (minor_define kind name target value).slight (w.ledger_define ..) fun n homes i => ?_
  have bound := Nat.lt_of_le_of_lt (Nat.le_of_eq (activation_bind w.scopes target name value i)) (homes i)
  simp only [World.define]
  split
  · exact Nat.lt_of_le_of_lt (Nat.le_of_eq (activation_makeConstant ..)) bound
  · exact bound

/-- A change by what a computation gives. -/
theorem slight_change {α β : Type} {r : Except Failure α} {f : World → α → β × World}
    (h : ∀ x, Slight w (f w x).2) : Slight w (w.change r f).2 := by
  cases r with
  | ok x => exact h x
  | error failure => exact .refl w

theorem slight_makeFunction (node : Node) (scope : Nat) : Slight w (w.makeFunction node scope).2 := by
  unfold World.makeFunction
  split
  · exact .refl w
  · exact slight_heap _

theorem slight_hoist (scope : Nat) (statements : List Node) : Slight w (w.hoist scope statements).1 := by
  induction statements generalizing w with
  | nil => exact .refl w
  | cons s rest ih =>
    have made := slight_makeFunction (w := w) s scope
    unfold World.hoist
    split
    · split
      · rename_i v w' e
        rw [e] at made
        exact (made.trans (slight_bind ..)).trans ih
      · rename_i failure w' e
        rw [e] at made
        exact made
    · exact ih

theorem slight_method (builtin : Builtin) : Slight w (w.method builtin).2 := slight_heap _

theorem slight_memberKey (node : Node) : Slight w (w.memberKey node).2 := slight_heap _

theorem slight_getProperty (object key : Value) : Slight w (w.getProperty object key).2 := by
  refine slight_change fun m => ?_
  cases m with
  | value => exact .refl w
  | method => exact slight_method _

theorem slight_setProperty (object key value : Value) : Slight w (w.setProperty object key value).2 := by
  unfold World.setProperty
  split
  · exact slight_change fun _ => slight_heap _
  · exact slight_change fun _ => slight_heap _
  · split <;> exact .refl w

theorem slight_readPlace (place : Place) : Slight w (w.readPlace place).2 := by
  cases place with
  | name => exact .refl w
  | property => exact slight_getProperty _ _

theorem slight_writePlace (place : Place) (value : Value) : Slight w (w.writePlace place value).2 := by
  cases place with
  | name => exact slight_change fun _ => slight_bind _ _ _
  | property => exact slight_setProperty _ _ _

/-- A registry that grows older, and takes no action but one that suits its scope. -/
theorem slight_setRegistry (a : Nat) {r : Registry Deferred} (ages : (w.registry a).Ages r)
    (actions : w.Kept → ∀ x ∈ r.arena.actions, w.Suits x.body.scope [x.body.body]) :
    Slight w (w.setRegistry a r) where
  toEvolves := evolves_setRegistry a ages actions
  depth := rfl
  ledger := rfl
  accounted acc := by
    have count : (w.setRegistry a r).activations.size = w.activations.size := by simp [World.setRegistry]
    refine acc.mono (w.ages_setRegistry ages) ?_ acc.generators acc.parked
    rw [count]
    exact acc.homes

/-- A generator that keeps no code. -/
theorem slight_setGenerator (g : Nat) {state : GeneratorState} (silent : state = .running ∨ state = .done) :
    Slight w (w.setGenerator g state) where
  toEvolves := evolves_setGenerator g fun _ => by rcases silent with rfl | rfl <;> trivial
  depth := rfl
  ledger := rfl
  accounted acc := acc.setGenerator g fun code e => by rcases silent with rfl | rfl <;> cases e

theorem slight_newActivation (name : Text) (isAsync : Bool) : Slight w (w.newActivation name isAsync).2 where
  toEvolves := evolves_newActivation name isAsync
  depth := rfl
  ledger := rfl
  accounted acc := by
    have count : (w.newActivation name isAsync).2.activations.size = w.activations.size + 1 := by
      simp [World.newActivation]
    refine acc.mono (w.ages_newActivation name isAsync) (fun i => ?_) acc.generators acc.parked
    rw [count]
    exact Nat.lt_succ_of_lt (acc.homes i)

/-- A new generator for a call that is not the one of the module. -/
theorem slight_pushGenerator (closure : Nat) (arguments : List Value) {a : Nat}
    (own : w.Kept → a ≠ 0 ∧ a < w.activations.size) (heap : Heap) :
    Slight w { w with heap := heap, generators := w.generators.push (.fresh closure arguments a) } where
  toEvolves := evolves_pushGenerator closure arguments own heap
  depth := rfl
  ledger := rfl
  accounted acc := by
    refine acc.mono (World.ages_of_eq (w := w) rfl) acc.homes (fun g code e => ?_) acc.parked
    simp only [World.generator, Array.getD_eq_getD_getElem?, Array.getElem?_push] at e
    split at e
    · cases e
    · refine acc.generators g code ?_
      rwa [World.generator, Array.getD_eq_getD_getElem?]

theorem slight_nap (seconds : Float) : Slight w (w.nap seconds).2 where
  toEvolves := evolves_nap seconds
  depth := rfl
  ledger := rfl
  accounted acc := by
    refine acc.mono (World.ages_of_eq (w := w) rfl) acc.homes acc.generators fun t code e => ?_
    rcases Loop.parked_add e with old | new
    · exact acc.parked t code old
    · obtain rfl := Option.some.inj new
      exact ⟨trivial, trivial, trivial⟩

theorem slight_apply (builtin : Builtin) (arguments : List Value) :
    Slight w (w.apply builtin arguments).2 := by
  cases builtin with
  | log =>
    refine slight_change fun texts => Minor.slight_same ?_ rfl rfl
    exact ⟨rfl, rfl, rfl, rfl, rfl, rfl, rfl, rfl, rfl, fun _ => id⟩
  | tick | sleep => exact slight_change fun _ => slight_nap _
  | toText =>
    cases arguments <;> exact .refl w
  | makeError | makeSuppressed => exact slight_change fun _ => slight_heap _
  | push => exact slight_heap _
  | join | resume | named => exact .refl w

end Slight

end Script

end ScopeExit
