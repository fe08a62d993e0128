import ScopeExit.Proofs.Tree.Escapes
import ScopeExit.Proofs.Tree.Shape
import Mathlib.Data.List.Basic
/-!
Which programs the static check accepts.

`WellPlaced` says where functions, suspensions, loops and deferred actions may stand, for each node of a
program by itself and in terms of the nodes around it.  The check decides it: what it passes down is the
context of the nearest function, what it looks for in a deferred body is found if and only if it is there,
and what it returns are the deferred actions in the order of the source.

A check may also fail for another reason, namely because a node lacks a child that its kind asks for.
`Decides` rules this out along with the rest: a check that decides a condition either accepts with the
given value or reports a placement.
-/
namespace ScopeExit.Node

/-! ### The condition -/

/-- A node stands in a program.  The path has the nodes around it, the innermost one first; what is in a
parameter of a function is in the function. -/
inductive Stands (program : Node) : List Node → Node → Prop
  | program : Stands program [] program
  | part {path : List Node} {n c : Node} (above : Stands program path n)
      (mem : c ∈ n.params ∨ c ∈ n.children) : Stands program (n :: path) c

/-- What the nearest function on a path allows, given what is allowed outside of functions. -/
def contextOn (outside : Context) (path : List Node) : Context :=
  ((path.find? (·.kind.isFunction)).map context).getD outside

/-- A node is reached from a body without entering a statement that opens a frame. -/
inductive Unframed (body : Node) : Node → Prop
  | body : Unframed body body
  | child {n c : Node} (above : Unframed body n) (frameless : opensFrame n.kind = false)
      (mem : c ∈ n.children) : Unframed body c

/-- The statement that a loop repeats. -/
def repeats? (n : Node) : Option Node :=
  match n.kind with
  | .whileLoop | .forOfLoop => n.children[1]?
  | .doWhileLoop => n.children[0]?
  | .forLoop => n.children[3]?
  | _ => none

/-- A node may stand where the nearest function allows the given. -/
structure MayStand (context : Context) (n : Node) : Prop where
  sort : n.kind.isFunction = true → ¬ (n.isAsync = true ∧ n.isGenerator = true)
  await : n.kind = .await → context.isAsync = true
  yield : n.kind = .yield → context.isGenerator = true
  braced : ∀ body ∈ n.repeats?, body.kind ≠ .defer
  awaited : n.kind = .defer → n.isAsync = true → context.isAsync = true
  framed : n.kind = .defer → ∀ body ∈ n.children, ∀ m, body.Unframed m → m.kind ≠ .defer
  stays : n.kind = .defer → ∀ body ∈ n.children, ∀ path m t, body.Exposes path m →
    ¬ m.Escapes n.isAsync path t

/-- Every node of a program may stand where it does. -/
def WellPlaced (outside : Context) (program : Node) : Prop :=
  ∀ path n, program.Stands path n → n.MayStand (contextOn outside path)

/-- How many children loops and deferred actions have. -/
def arity? : NodeKind → Option Nat
  | .defer => some 1
  | .whileLoop | .doWhileLoop | .forOfLoop => some 2
  | .forLoop => some 4
  | _ => none

/-- A node has the children that its kind asks for, and parameters only if it is a function. -/
def IsComplete (n : Node) : Prop :=
  (∀ k ∈ arity? n.kind, n.children.length = k) ∧ (n.kind.isFunction = false → n.params = [])

instance (n : Node) : Decidable n.IsComplete :=
  inferInstanceAs (Decidable (_ ∧ _))

/-! ### One level of a program -/

/-- What the parts of a node are allowed. -/
def inner (context : Context) (n : Node) : Context :=
  if n.kind.isFunction = true then n.context else context

theorem contextOn_append {outside : Context} {path : List Node} {n : Node} :
    contextOn outside (path ++ [n]) = contextOn (n.inner outside) path := by
  unfold contextOn inner
  rw [List.find?_append]
  cases path.find? (·.kind.isFunction) with
  | some f => rfl
  | none => by_cases function : n.kind.isFunction = true <;> simp [function]

theorem Stands.under {n c m : Node} {path : List Node} (mem : c ∈ n.params ∨ c ∈ n.children)
    (h : c.Stands path m) : n.Stands (path ++ [n]) m := by
  induction h with
  | program => exact Stands.program.part mem
  | part _ inside ih => exact ih.part inside

/-- A node that stands in a tree is its root or stands in a part of it. -/
theorem Stands.root_or_part {n m : Node} {path : List Node} (h : n.Stands path m) :
    (path = [] ∧ m = n) ∨ ∃ c path', (c ∈ n.params ∨ c ∈ n.children) ∧ c.Stands path' m ∧
      path = path' ++ [n] := by
  induction h with
  | program => exact .inl ⟨rfl, rfl⟩
  | @part path k c _ mem ih =>
    rcases ih with ⟨rfl, rfl⟩ | ⟨d, path', hd, inside, rfl⟩
    · exact .inr ⟨c, [], mem, .program, rfl⟩
    · exact .inr ⟨d, k :: path', hd, inside.part mem, rfl⟩

/-- A program is well placed if its root is and its parts are in what the root allows. -/
theorem wellPlaced_iff {context : Context} {n : Node} : n.WellPlaced context ↔
    n.MayStand context ∧ (∀ c ∈ n.params, c.WellPlaced (n.inner context)) ∧
      ∀ c ∈ n.children, c.WellPlaced (n.inner context) := by
  constructor
  · intro h
    have below : ∀ c, c ∈ n.params ∨ c ∈ n.children → c.WellPlaced (n.inner context) :=
      fun c hc path m hm => contextOn_append ▸ h _ _ (hm.under hc)
    exact ⟨h [] n .program, fun c hc => below c (.inl hc), fun c hc => below c (.inr hc)⟩
  · rintro ⟨own, params, children⟩ path m hm
    rcases hm.root_or_part with ⟨rfl, rfl⟩ | ⟨c, path', hc, inside, rfl⟩
    · exact own
    · rw [contextOn_append]
      exact hc.elim (fun hc => params c hc _ _ inside) fun hc => children c hc _ _ inside

/-- No action is unframed in a node, and none of its parts is looked into if the node opens a frame. -/
theorem firstUnframedDefer?_eq_none {ns : List Node} :
    firstUnframedDefer? ns = none ↔ ∀ c ∈ ns, c.unframedDefer? = none := by
  induction ns with
  | nil => simp [firstUnframedDefer?]
  | cons n ns ih => cases h : n.unframedDefer? <;> simp [firstUnframedDefer?, h, ih]

theorem unframedDefer?_eq_none {n : Node} : n.unframedDefer? = none ↔
    n.kind ≠ .defer ∧ (opensFrame n.kind = false → ∀ c ∈ n.children, c.unframedDefer? = none) := by
  obtain ⟨kind, value, label, params, children, isAsync, isGenerator, l, span⟩ := n
  by_cases defer : kind = .defer
  · simp [unframedDefer?, defer]
  · by_cases frame : opensFrame kind = true
    · simp [unframedDefer?, defer, frame]
    · simp [unframedDefer?, defer, frame, firstUnframedDefer?_eq_none]

theorem Unframed.search {body n : Node} (h : body.Unframed n) (none : body.unframedDefer? = none) :
    n.unframedDefer? = .none := by
  induction h with
  | body => exact none
  | child _ frameless mem ih => exact (unframedDefer?_eq_none.mp ih).2 frameless _ mem

/-- A search below a node finds no action if none is there. -/
theorem Unframed.unframedDefer?_eq_none {body n : Node} (h : body.Unframed n)
    (none : ∀ m, body.Unframed m → m.kind ≠ .defer) : n.unframedDefer? = .none := by
  rw [Node.unframedDefer?_eq_none]
  refine ⟨none n h, fun frameless c mem => ?_⟩
  have hsize := sizeOf_lt_of_part (.inr mem)
  exact (h.child frameless mem).unframedDefer?_eq_none none
termination_by sizeOf n

/-- The search finds an action if and only if there is one. -/
theorem unframedDefer?_eq_none_iff_forall {body : Node} :
    body.unframedDefer? = none ↔ ∀ m, body.Unframed m → m.kind ≠ .defer :=
  ⟨fun h _ hm => (unframedDefer?_eq_none.mp (hm.search h)).1,
    fun h => Unframed.body.unframedDefer?_eq_none h⟩

/-- The scan finds no transfer if and only if none leaves the body. -/
theorem escapingTransfers_eq_nil {body : Node} {isAsync : Bool} : body.escapingTransfers isAsync = [] ↔
    ∀ path m t, body.Exposes path m → ¬ m.Escapes isAsync path t := by
  rw [List.eq_nil_iff_forall_not_mem]
  constructor
  · exact fun h path m t exposed escapes => h t (mem_escapingTransfers.mpr ⟨path, m, exposed, escapes⟩)
  · intro h t ht
    obtain ⟨path, m, exposed, escapes⟩ := mem_escapingTransfers.mp ht
    exact h path m t exposed escapes

/-! ### The check -/

/-- A check decides a condition: it accepts with a value if the condition holds, and else it reports a
placement. -/
inductive Decides {α : Type} (P : Prop) (a : α) : Except Failure α → Prop
  | accepts (h : P) : Decides P a (.ok a)
  | rejects (h : ¬ P) (cause : PlacementError) (span : Span) : Decides P a (misplaced cause span)

section Decides

variable {α β : Type} {P Q : Prop} {a : α} {b : β} {r : Except Failure α}

theorem Decides.of_iff (h : Decides P a r) (iff : P ↔ Q) : Decides Q a r := propext iff ▸ h

/-- Checks in a row decide both conditions, in whichever order they come. -/
theorem Decides.bind {f : α → Except Failure β} (h : Decides P a r) (next : Decides Q b (f a)) :
    Decides (P ∧ Q) b (r >>= f) := by
  cases h with
  | accepts hP => exact next.of_iff (by simp [hP])
  | rejects hP cause span => exact .rejects (fun h => hP h.1) cause span

theorem Decides.map (f : α → β) (h : Decides P a r) :
    Decides P (f a) (r >>= fun x => pure (f x)) := by
  cases h with
  | accepts hP => exact .accepts hP
  | rejects hP cause span => exact .rejects hP cause span

/-- A single check. -/
theorem decides_ite [Decidable P] {cause : PlacementError} {span : Span}
    (next : ¬ P → Decides Q a r) : Decides (¬ P ∧ Q) a (if P then misplaced cause span else r) := by
  by_cases hP : P
  · rw [if_pos hP]
    exact .rejects (fun h => h.1 hP) cause span
  · rw [if_neg hP]
    exact (next hP).of_iff (by simp [hP])

theorem Decides.ok_iff (h : Decides P a r) {found : α} : r = .ok found ↔ P ∧ found = a := by
  cases h with
  | accepts hP =>
    simp only [Except.ok.injEq, hP, true_and]
    exact eq_comm
  | rejects hP cause span => simp [misplaced, hP]

theorem Decides.error (h : Decides P a r) (hP : ¬ P) :
    ∃ cause span, r = .error (.placement cause span) := by
  cases h with
  | accepts h => contradiction
  | rejects _ cause span => exact ⟨cause, span, rfl⟩

end Decides

/-- The deferred actions of a program, in the order of the source. -/
def actions (program : Node) : List Node := program.walk.filter (·.kind == .defer)

variable {context : Context} {n : Node}

/-- The check of a deferred action decides whether its context allows it and its body may be one. -/
theorem decides_checkDefer {isAsync : Bool} {span : Span} {body : Node} :
    Decides ((isAsync = true → context.isAsync = true) ∧ (∀ m, body.Unframed m → m.kind ≠ .defer) ∧
      ∀ path m t, body.Exposes path m → ¬ m.Escapes isAsync path t) ()
      (checkDefer context isAsync span [body]) := by
  rw [← unframedDefer?_eq_none_iff_forall, ← escapingTransfers_eq_nil]
  simp only [checkDefer]
  refine .of_iff (P := ¬ (isAsync && !context.isAsync) = true ∧ _) (decides_ite fun _ => ?_)
    (and_congr_left' (by cases isAsync <;> simp))
  cases framed : body.unframedDefer? with
  | some nested => exact .rejects (by simp) _ _
  | none =>
    cases stays : body.escapingTransfers isAsync with
    | nil => exact .accepts ⟨rfl, rfl⟩
    | cons t ts => exact .rejects (by simp) _ _

/-- A loop with all its children repeats one of them. -/
theorem repeated_eq {n : Node} (complete : n.IsComplete) (loop : n.kind.isLoop = true) :
    ∃ body, n.repeats? = some body ∧ repeated n.kind n.children = .ok body := by
  obtain ⟨kind, value, label, params, children, isAsync, isGenerator, l, span⟩ := n
  have arity := complete.1
  cases kind <;> simp [NodeKind.isLoop] at loop <;> simp [arity?] at arity
  · obtain ⟨_, body, rfl⟩ := List.length_eq_two.mp arity
    exact ⟨body, rfl, rfl⟩
  · obtain ⟨body, _, rfl⟩ := List.length_eq_two.mp arity
    exact ⟨body, rfl, rfl⟩
  · rcases children with _ | ⟨_, _ | ⟨_, rest⟩⟩ <;> simp at arity
    obtain ⟨_, body, rfl⟩ := List.length_eq_two.mp arity
    exact ⟨body, rfl, rfl⟩
  · obtain ⟨_, body, rfl⟩ := List.length_eq_two.mp arity
    exact ⟨body, rfl, rfl⟩

theorem repeats?_eq_none (loop : n.kind.isLoop = false) : n.repeats? = none := by
  unfold repeats?
  split <;> simp_all [NodeKind.isLoop]

/-- The check of a node that is no function decides whether the node may stand where it does. -/
theorem decides_checkOwn (complete : n.IsComplete) (function : n.kind.isFunction = false) :
    Decides (n.MayStand context) () (checkOwn context n.kind n.isAsync n.span n.children) := by
  unfold checkOwn
  split
  · rename_i defer
    obtain ⟨body, children⟩ := List.length_eq_one_iff.mp (complete.1 1 (by rw [defer]; rfl))
    have loop : n.kind.isLoop = false := by rw [defer]; rfl
    rw [children]
    refine decides_checkDefer.of_iff ⟨fun h => ?_, fun h => ?_⟩
    · exact ⟨by simp [function], by simp [defer], by simp [defer], by simp [repeats?_eq_none loop],
        fun _ => h.1, by simpa [children] using fun _ => h.2.1, by simpa [children] using fun _ => h.2.2⟩
    · exact ⟨h.awaited defer, h.framed defer body (by simp [children]),
        h.stays defer body (by simp [children])⟩
  · rename_i defer
    split
    · rename_i loop
      obtain ⟨body, repeats, found⟩ := repeated_eq complete loop
      rw [found]
      refine .of_iff (P := ¬ body.kind = .defer ∧ True) (decides_ite fun _ => .accepts trivial)
        ⟨fun h => ?_, fun h => ⟨h.braced body repeats, trivial⟩⟩
      refine ⟨by simp [function], ?_, ?_, ?_, by simp [defer], by simp [defer], by simp [defer]⟩
      · intro kind
        simp [kind, NodeKind.isLoop] at loop
      · intro kind
        simp [kind, NodeKind.isLoop] at loop
      · simpa [repeats] using h.1
    · rename_i loop
      refine .of_iff (P := ¬ (n.kind = .await && !context.isAsync) = true ∧
          ¬ (n.kind = .yield && !context.isGenerator) = true ∧ True)
        (decides_ite fun _ => decides_ite fun _ => .accepts trivial) ⟨fun h => ?_, fun h => ?_⟩
      · exact ⟨by simp [function], by simpa using h.1, by simpa using h.2.1,
          by simp [repeats?_eq_none (by simpa using loop)], by simp [defer], by simp [defer],
          by simp [defer]⟩
      · exact ⟨by simpa using h.await, by simpa using h.yield, trivial⟩

theorem decides_checkedAll : ∀ {ns : List Node},
    (∀ c ∈ ns, Decides (c.WellPlaced context) c.actions (checked context c)) →
      Decides (∀ c ∈ ns, c.WellPlaced context) ((walkAll ns).filter (·.kind == .defer))
        (checkedAll context ns)
  | [], _ => .accepts (by simp)
  | c :: cs, h => by
    have first := h c List.mem_cons_self
    have rest := decides_checkedAll fun d hd => h d (List.mem_cons_of_mem c hd)
    rw [walkAll, List.filter_append]
    exact (first.bind (rest.map (c.actions ++ ·))).of_iff List.forall_mem_cons.symm

theorem actions_eq (n : Node) : n.actions = (if n.kind = .defer then [n] else []) ++
    ((walkAll n.params).filter (·.kind == .defer) ++ (walkAll n.children).filter (·.kind == .defer)) := by
  rw [actions, walk_eq, List.filter_cons, List.filter_append]
  by_cases defer : n.kind = .defer <;> simp [defer]

/-- A function may stand anywhere, if it is not asynchronous and a generator. -/
theorem mayStand_function (function : n.kind.isFunction = true) :
    n.MayStand context ↔ ¬ (n.isAsync && n.isGenerator) = true := by
  have kinds : n.kind ≠ .await ∧ n.kind ≠ .yield ∧ n.kind ≠ .defer ∧ n.kind.isLoop = false := by
    cases hk : n.kind <;> simp [hk, NodeKind.isFunction, NodeKind.isLoop] at function ⊢
  constructor
  · exact fun h both => h.sort function (by simpa using both)
  · intro h
    exact ⟨fun _ => by simpa using h, fun k => absurd k kinds.1, fun k => absurd k kinds.2.1,
      by simp [repeats?_eq_none kinds.2.2.2], fun k => absurd k kinds.2.2.1,
      fun k => absurd k kinds.2.2.1, fun k => absurd k kinds.2.2.1⟩

/-- The check decides whether a program is well placed, and returns its actions. -/
theorem decides_checked {context : Context} {n : Node} (complete : ∀ m ∈ n.walk, m.IsComplete) :
    Decides (n.WellPlaced context) n.actions (checked context n) := by
  have own : n.IsComplete := complete n (by simp [walk_eq])
  have params : Decides (∀ c ∈ n.params, c.WellPlaced (n.inner context)) _ _ := decides_checkedAll fun c hc =>
    have hsize := sizeOf_lt_of_part (.inl hc)
    decides_checked fun m hm => complete m (mem_walk (.inl hc) hm)
  have children : Decides (∀ c ∈ n.children, c.WellPlaced (n.inner context)) _ _ := decides_checkedAll fun c hc =>
    have hsize := sizeOf_lt_of_part (.inr hc)
    decides_checked fun m hm => complete m (mem_walk (.inr hc) hm)
  refine .of_iff ?_ wellPlaced_iff.symm
  rw [actions_eq]
  by_cases function : n.kind.isFunction = true
  · have defer : n.kind ≠ .defer := fun h => by simp [h, NodeKind.isFunction] at function
    rw [if_neg defer, List.nil_append, mayStand_function function]
    rw [inner, if_pos function] at params children ⊢
    obtain ⟨kind, value, label, ps, cs, isAsync, isGenerator, l, span⟩ := n
    simp only [checked, if_pos function]
    exact decides_ite fun _ => params.bind (children.map _)
  · have noParams : n.params = [] := own.2 (by simpa using function)
    rw [inner, if_neg function] at children ⊢
    have here : Decides (n.MayStand context) () _ := decides_checkOwn own (by simpa using function)
    have inside := here.bind (f := fun _ => _) (children.map ((if n.kind = .defer then [n] else []) ++ ·))
    simp only [noParams, List.not_mem_nil, false_implies, implies_true, true_and, walkAll,
      List.filter_nil, List.nil_append]
    obtain ⟨kind, value, label, ps, cs, isAsync, isGenerator, l, span⟩ := n
    simp only [checked, if_neg function]
    by_cases defer : kind = .defer <;> simpa [defer] using inside
termination_by sizeOf n

/-- **Main result.** The check accepts exactly the programs that are well placed and returns their deferred
actions in the order of the source.  It rejects every other program for the place of a node. -/
theorem validate_exact (program : Node) (complete : ∀ n ∈ program.walk, n.IsComplete)
    (allowTopLevelAwait : Bool) :
    (∀ found, program.validate allowTopLevelAwait = .ok found ↔
      program.WellPlaced ⟨allowTopLevelAwait, false⟩ ∧ found = program.walk.filter (·.kind == .defer)) ∧
    (¬ program.WellPlaced ⟨allowTopLevelAwait, false⟩ →
      ∃ cause span, program.validate allowTopLevelAwait = .error (.placement cause span)) :=
  ⟨fun _ => (decides_checked complete).ok_iff, (decides_checked complete).error⟩

/-- A generator with an action in the default of its parameter, and an asynchronous action at the top. -/
def placedSample : Node :=
  let action (isAsync : Bool) : Node :=
    { kind := .defer, isAsync, children := [{ kind := .expressionStatement, children := [
      { kind := if isAsync then .await else .identifier, value := .text "x" }] }] }
  { kind := .program
    children := [
      action true,
      { kind := .function, isGenerator := true
        params := [{ kind := .param, children := [
          { kind := .functionExpression, children := [{ kind := .block, children := [action false] }] }] }]
        children := [{ kind := .block, children := [
          { kind := .whileLoop, children := [
            { kind := .yield },
            { kind := .block, children := [action false] }] }] }] }] }

/-- The check accepts the sample where the top level may wait, and only there. -/
theorem placedSample_exact : (∀ n ∈ placedSample.walk, n.IsComplete) ∧
    placedSample.WellPlaced ⟨true, false⟩ ∧ ¬ placedSample.WellPlaced ⟨false, false⟩ := by
  have complete : ∀ n ∈ placedSample.walk, n.IsComplete := by decide
  refine ⟨complete, (((validate_exact placedSample complete true).1 _).mp rfl).1, fun h => ?_⟩
  have accepted := ((validate_exact placedSample complete false).1 _).mpr ⟨h, rfl⟩
  contradiction

end ScopeExit.Node
