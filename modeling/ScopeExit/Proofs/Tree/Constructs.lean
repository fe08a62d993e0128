import ScopeExit.Script.Statement
/-!
What surrounds the statements of a program.

A jump ends or goes on with a loop, a switch or a labeled statement around it in the same body.  These
constructs are listed from the jump outward, and the first one that the jump is aimed at is its target:
so much can be read off the text of a program.  `Occurs` relates the nodes of a program to the constructs
around them, along the parts that running a node leads to.
-/
namespace ScopeExit

/-- What a jump may end, or go on with. -/
inductive Construct where
  | loop (labels : List Text) (body : Node)
  | switch (labels : List Text)
  | labeled (labels : List (Option Text))

namespace Construct

/-- The construct takes a completion: it ends there or, if it is a loop, goes on. -/
def meets (reason : ExitReason) : Construct → Bool
  | .loop labels _ => (reason.kind == .break || reason.kind == .continue) && reason.targets labels
  | .switch labels => reason.isBreakOf labels
  | .labeled labels => reason.kind == .break && labels.contains reason.label?

end Construct

/-- The constructs around a place in a body, the innermost first. -/
abbrev Path := List Construct

/-- A jump to a construct around it in the same body. -/
def ExitReason.isJump (r : ExitReason) : Bool := r.kind == .break || r.kind == .continue

namespace Node

/-- The completion of a jump to a construct. -/
def leaves? (n : Node) : Option ExitReason :=
  match n.kind with
  | .break => some (.breaking n.label)
  | .continue => some (.continuing n.label)
  | _ => none

theorem isJump_of_leaves {n : Node} {r : ExitReason} (h : n.leaves? = some r) : r.isJump = true := by
  unfold leaves? at h
  split at h
  · rw [← Option.some.inj h]
    rfl
  · rw [← Option.some.inj h]
    rfl
  · contradiction

/-! ### The parts of a node -/

/-- The parts of a loop or a switch behind labels, and what surrounds them. -/
def targetParts (path : Path) (labels : List Text) (n : Node) : List (Path × Node) :=
  match n.kind, n.children with
  | .whileLoop, [condition, body] => [(path, condition), (.loop labels body :: path, body)]
  | .doWhileLoop, [body, condition] => [(.loop labels body :: path, body), (path, condition)]
  | .forLoop, [start, condition, step, body] =>
    [(path, start), (path, condition), (path, step), (.loop labels body :: path, body)]
  | .forOfLoop, subject :: bodies =>
    (path, subject) :: bodies.map fun body => (.loop labels body :: path, body)
  | .switch, subject :: clauses =>
    (path, subject) :: (clauses.flatMap children).map fun c => (.switch labels :: path, c)
  | _, _ => []

/-- What running a node may lead to, and what surrounds it.  The body of a function and that of a
deferred action are bodies of their own.  Of nodes that only hold others together, these are taken. -/
def parts (path : Path) (n : Node) : List (Path × Node) :=
  match n.kind with
  | .function | .functionExpression => (n.params.flatMap children ++ n.children).map ([], ·)
  | .defer => n.children.map ([], ·)
  | .labeled =>
    match Script.unlabeled [] n with
    | .ok (labels, target) =>
      if target.kind.isLoop || target.kind = .switch then
        targetParts (.labeled labels :: path) (labels.filterMap id) target
      else [(.labeled labels :: path, target)]
    | .error _ => []
  | .whileLoop | .doWhileLoop | .forLoop | .forOfLoop | .switch => targetParts path [] n
  | .try =>
    match n.children with
    | [block, handler, finalizer] =>
      (block :: finalizer :: handler.children).map (path, ·)
    | _ => []
  | .declaration | .object => (n.children.flatMap children).map (path, ·)
  | .update | .assign => (n.children ++ (n.children.take 1).flatMap children).map (path, ·)
  | _ => n.children.map (path, ·)

/-- A node occurs in a program with the given constructs around it in its body.  A node that has no parts
and is no jump may be anywhere. -/
inductive Occurs (program : Node) : Path → Node → Prop
  | statement {n : Node} (h : n ∈ program.children) : Occurs program [] n
  | bare {path : Path} {n : Node} (children : n.children = []) (params : n.params = [])
      (stays : n.leaves? = none) : Occurs program path n
  | part {path path' : Path} {n m : Node} (inside : Occurs program path n)
      (h : (path', m) ∈ n.parts path) : Occurs program path' m

/-- A node that occurs somewhere in a program. -/
def Holds (program n : Node) : Prop := ∃ path, program.Occurs path n

/-- Every break and every continue of a program has a target: a construct around it, in the same function
and in the same deferred action, takes it. -/
def JumpsMeet (program : Node) : Prop :=
  ∀ path n reason, program.Occurs path n → n.leaves? = some reason → ∃ c ∈ path, c.meets reason = true

/-! ### The places of a program -/

/-- The nodes that running a program leads to in some steps down the tree, with what surrounds them. -/
def level (program : Node) : Nat → List (Path × Node)
  | 0 => program.children.map ([], ·)
  | k + 1 => (program.level k).flatMap fun x => x.2.parts x.1

section Levels

variable {program n : Node} {path : Path} {k : Nat}

theorem parts_bare (children : n.children = []) (params : n.params = []) : n.parts path = [] := by
  obtain ⟨kind, value, label, ps, cs, isAsync, isGenerator, l, span⟩ := n
  obtain rfl : cs = [] := children
  obtain rfl : ps = [] := params
  cases kind <;> rfl

/-- A node that occurs in a program does so on some level, if it is of any account. -/
theorem Occurs.level (h : program.Occurs path n) :
    (∃ k, (path, n) ∈ program.level k) ∨ n.children = [] ∧ n.params = [] ∧ n.leaves? = none := by
  induction h with
  | statement h => exact .inl ⟨0, List.mem_map_of_mem h⟩
  | bare children params stays => exact .inr ⟨children, params, stays⟩
  | part _ hm ih =>
    rcases ih with ⟨k, hk⟩ | ⟨children, params, -⟩
    · exact .inl ⟨k + 1, List.mem_flatMap.mpr ⟨_, hk, hm⟩⟩
    · rw [parts_bare children params] at hm
      contradiction

theorem level_of_le (ends : program.level k = []) {i : Nat} (le : k ≤ i) : program.level i = [] := by
  induction le with
  | refl => exact ends
  | step _ ih => rw [level, ih, List.flatMap_nil]

/-- Every jump of a program has a target if those on each level do, down to one without nodes. -/
theorem jumpsMeet_of_level (ends : (program.level k).isEmpty = true) (meet : ∀ i < k, ∀ x ∈ program.level i,
    ∀ r ∈ x.2.leaves?, (x.1.any (·.meets r)) = true) : program.JumpsMeet := by
  intro path n r occurs leaves
  obtain ⟨i, hi⟩ | ⟨-, -, stays⟩ := occurs.level
  · rcases Nat.lt_or_ge i k with inside | beyond
    · exact List.any_eq_true.mp (meet i inside _ hi r leaves)
    · rw [level_of_le (List.isEmpty_iff.mp ends) beyond] at hi
      contradiction
  · rw [stays] at leaves
    contradiction

end Levels

/-- Nodes whose parts are something else than their children at the same place. -/
def arranges : NodeKind → Bool
  | .function | .functionExpression | .defer | .labeled | .whileLoop | .doWhileLoop | .forLoop | .forOfLoop
  | .switch | .try | .declaration | .object | .update | .assign => true
  | _ => false

section Parts

variable {program n m : Node} {path : Path} {labels : List Text}

theorem parts_of_not_arranges (kind : arranges n.kind = false) :
    n.parts path = n.children.map (path, ·) := by
  unfold parts
  cases hk : n.kind <;> first | rfl | (rw [hk] at kind; contradiction)

theorem Occurs.child (h : program.Occurs path n) (kind : arranges n.kind = false)
    (hm : m ∈ n.children) : program.Occurs path m :=
  h.part (parts_of_not_arranges kind ▸ List.mem_map_of_mem hm)

theorem Holds.child (h : program.Holds n) (kind : arranges n.kind = false) :
    ∀ m ∈ n.children, program.Holds m := by
  intro m hm
  obtain ⟨path, h⟩ := h
  exact ⟨path, h.child kind hm⟩

theorem parts_target (kind : n.kind.isLoop = true ∨ n.kind = .switch) :
    n.parts path = n.targetParts path [] := by
  unfold parts
  rcases kind with kind | kind
  · cases hk : n.kind <;> simp [hk, NodeKind.isLoop] at kind ⊢
  · rw [kind]

/-- The body of a loop over elements. -/
theorem mem_targetParts_forOf (kind : n.kind = .forOfLoop) {body : Node} (h : n.children[1]? = some body) :
    (.loop labels body :: path, body) ∈ n.targetParts path labels := by
  unfold targetParts
  rw [kind]
  cases hc : n.children with
  | nil => simp [hc] at h
  | cons subject bodies =>
    rw [hc, List.getElem?_cons_succ] at h
    exact List.mem_cons_of_mem _ (List.mem_map.mpr ⟨body, List.mem_of_getElem? h, rfl⟩)

/-- What is run first, the subject of a loop over elements or of a switch. -/
theorem mem_targetParts_subject (kind : n.kind = .forOfLoop ∨ n.kind = .switch) {subject : Node}
    (h : n.children[0]? = some subject) : (path, subject) ∈ n.targetParts path labels := by
  unfold targetParts
  cases hc : n.children with
  | nil => simp [hc] at h
  | cons first rest =>
    simp only [hc, List.getElem?_cons_zero, Option.some.injEq] at h
    rcases kind with kind | kind <;> rw [kind, h] <;> exact List.mem_cons_self ..

/-- The statements of a clause of a switch. -/
theorem mem_targetParts_clause (kind : n.kind = .switch) {clause c : Node}
    (hclause : clause ∈ n.children.drop 1) (hc : c ∈ clause.children) :
    (.switch labels :: path, c) ∈ n.targetParts path labels := by
  unfold targetParts
  rw [kind]
  cases h : n.children with
  | nil => simp [h] at hclause
  | cons subject clauses =>
    rw [h] at hclause
    exact List.mem_cons_of_mem _ (List.mem_map_of_mem (List.mem_flatMap.mpr ⟨clause, hclause, hc⟩))

end Parts

end Node

end ScopeExit
