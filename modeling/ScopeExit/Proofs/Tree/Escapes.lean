import ScopeExit.Tree.Transfers
/-!
Which transfers leave a deferred body.

A node is exposed in a body if the path from the body down to it passes no function and no deferred
action.  Whether the transfer of an exposed node leaves the body depends on the nodes of its path alone:
a jump without a label leaves if no loop, or for a break no loop and no switch, stands on the path, and a
jump with a label if no statement on the path has that label.

The scan knows of a path only what it has gathered on the way down.  `around` is that, as a function of
the path, and the scan of a part agrees with the scan of the whole because both meet the part with the same
surroundings.
-/
namespace ScopeExit.Node

/-- A node is exposed in a body.  The path has the nodes around it, the innermost one first. -/
inductive Exposes (body : Node) : List Node → Node → Prop
  | body : Exposes body [] body
  | child {path : List Node} {n c : Node} (above : Exposes body path n)
      (function : n.kind.isFunction = false) (defer : n.kind ≠ .defer) (mem : c ∈ n.children) :
      Exposes body (n :: path) c

/-- The transfer of an exposed node leaves the body of an action. -/
def Escapes (isAsync : Bool) (path : List Node) (n : Node) : Transfer → Prop
  | .return => n.kind = .return
  | .yield => n.kind = .yield
  | .await => isAsync = false ∧ (n.kind = .await ∨ n.kind = .defer ∧ n.isAsync = true)
  | .break => n.kind = .break ∧ match n.label with
    | none => ∀ a ∈ path, a.kind.isLoop = false ∧ a.kind ≠ .switch
    | some l => ∀ a ∈ path, a.kind = .labeled → a.label ≠ some l
  | .continue => n.kind = .continue ∧ match n.label with
    | none => ∀ a ∈ path, a.kind.isLoop = false
    | some l => ∀ a ∈ path, a.kind = .labeled → a.label ≠ some l

/-! ### What the scan gathers on a path -/

/-- What the scan knows of the nodes around an exposed node. -/
def around (path : List Node) : Surroundings :=
  path.foldr (fun a s => s.enter a.kind a.label) {}

@[simp]
theorem around_nil : around [] = {} := rfl

@[simp]
theorem around_cons (a : Node) (path : List Node) :
    around (a :: path) = (around path).enter a.kind a.label := rfl

theorem mem_labels_enter {s : Surroundings} {kind : NodeKind} {label : Option Text} {l : Text} :
    l ∈ (s.enter kind label).labels ↔ (kind = .labeled ∧ label = some l) ∨ l ∈ s.labels := by
  unfold Surroundings.enter
  split
  · simp [*]
  · split
    · simp [*]
    · split <;> simp [*]

theorem inLoop_enter {s : Surroundings} {kind : NodeKind} {label : Option Text} :
    (s.enter kind label).inLoop = false ↔ kind.isLoop = false ∧ s.inLoop = false := by
  unfold Surroundings.enter
  split
  · simp [*, NodeKind.isLoop]
  · split
    · simp [*]
    · split <;> simp_all

theorem inBreakable_enter {s : Surroundings} {kind : NodeKind} {label : Option Text} :
    (s.enter kind label).inBreakable = false ↔
      (kind.isLoop = false ∧ kind ≠ .switch) ∧ s.inBreakable = false := by
  unfold Surroundings.enter
  split
  · simp [*, NodeKind.isLoop]
  · split
    · simp [*]
    · split <;> simp [*]

theorem mem_labels_around {path : List Node} {l : Text} :
    l ∈ (around path).labels ↔ ∃ a ∈ path, a.kind = .labeled ∧ a.label = some l := by
  induction path with
  | nil => simp
  | cons a path ih => simp [mem_labels_enter, ih]

theorem inLoop_around {path : List Node} :
    (around path).inLoop = false ↔ ∀ a ∈ path, a.kind.isLoop = false := by
  induction path with
  | nil => simp
  | cons a path ih => simp [inLoop_enter, ih]

theorem inBreakable_around {path : List Node} : (around path).inBreakable = false ↔
    ∀ a ∈ path, a.kind.isLoop = false ∧ a.kind ≠ .switch := by
  induction path with
  | nil => simp
  | cons a path ih => simp only [around_cons, inBreakable_enter, ih, List.forall_mem_cons]

/-- A jump leaves the nodes of its path. -/
theorem escapes_around {path : List Node} {hasTarget : Bool} {label : Option Text} :
    (around path).escapes hasTarget label = true ↔ match label with
      | none => hasTarget = false
      | some l => ∀ a ∈ path, a.kind = .labeled → a.label ≠ some l := by
  cases label with
  | none => simp [Surroundings.escapes]
  | some l =>
    simp only [Surroundings.escapes, Bool.not_eq_true', ← Bool.not_eq_true, List.contains_iff_mem,
      mem_labels_around]
    simp

/-- The transfer that the scan finds at a node, if it gets there. -/
def metTransfer (isAsync : Bool) (s : Surroundings) (n : Node) : List Transfer :=
  if n.kind.isFunction then []
  else if n.kind = .defer then if n.isAsync && !isAsync then [.await] else []
  else ownTransfer isAsync s n.kind n.label

/-- At a node of a path the scan finds what leaves the body. -/
theorem mem_metTransfer {isAsync : Bool} {path : List Node} {n : Node} {t : Transfer} :
    t ∈ metTransfer isAsync (around path) n ↔ n.Escapes isAsync path t := by
  have atBreak := @escapes_around path (around path).inBreakable n.label
  have atContinue := @escapes_around path (around path).inLoop n.label
  rw [inBreakable_around] at atBreak
  rw [inLoop_around] at atContinue
  cases hk : n.kind <;> cases t <;>
    simp [metTransfer, ownTransfer, Escapes, NodeKind.isFunction, hk, atBreak, atContinue] <;>
    cases isAsync <;> simp

/-! ### The scan -/

theorem mem_transfersInAll {isAsync : Bool} {s : Surroundings} {ns : List Node} {t : Transfer} :
    t ∈ transfersInAll isAsync s ns ↔ ∃ c ∈ ns, t ∈ transfersIn isAsync s c := by
  induction ns with
  | nil => simp [transfersInAll]
  | cons n ns ih => simp [transfersInAll, ih]

/-- What the scan finds in a subtree is met at its root or found in a part that it looks into. -/
theorem mem_transfersIn {isAsync : Bool} {s : Surroundings} {n : Node} {t : Transfer} :
    t ∈ transfersIn isAsync s n ↔ t ∈ metTransfer isAsync s n ∨
      (n.kind.isFunction = false ∧ n.kind ≠ .defer ∧
        ∃ c ∈ n.children, t ∈ transfersIn isAsync (s.enter n.kind n.label) c) := by
  obtain ⟨kind, value, label, params, children, nodeAsync, isGenerator, l, span⟩ := n
  by_cases function : kind.isFunction = true
  · simp [transfersIn, metTransfer, function]
  by_cases defer : kind = .defer
  · simp [transfersIn, metTransfer, defer, NodeKind.isFunction]
  · simp [transfersIn, metTransfer, function, defer, mem_transfersInAll]

/-- The scan of an exposed node is part of the scan of the body. -/
theorem Exposes.scanned {isAsync : Bool} {body n : Node} {path : List Node} {t : Transfer}
    (h : body.Exposes path n) (ht : t ∈ transfersIn isAsync (around path) n) :
    t ∈ transfersIn isAsync {} body := by
  induction h with
  | body => exact ht
  | child _ function defer mem ih =>
    exact ih (mem_transfersIn.mpr (.inr ⟨function, defer, _, mem, ht⟩))

theorem sizeOf_lt_of_part {n c : Node} (mem : c ∈ n.params ∨ c ∈ n.children) : sizeOf c < sizeOf n := by
  have hsize := mem.imp List.sizeOf_lt_of_mem List.sizeOf_lt_of_mem
  cases n
  simp only [Node.mk.sizeOf_spec] at hsize ⊢
  omega

/-- What the scan finds in an exposed node is met at a node that is exposed. -/
theorem Exposes.met {isAsync : Bool} {body n : Node} {path : List Node} {t : Transfer}
    (h : body.Exposes path n) (ht : t ∈ transfersIn isAsync (around path) n) :
    ∃ path m, body.Exposes path m ∧ t ∈ metTransfer isAsync (around path) m := by
  rcases mem_transfersIn.mp ht with ht | ⟨function, defer, c, mem, ht⟩
  · exact ⟨path, n, h, ht⟩
  · have hsize := sizeOf_lt_of_part (.inr mem)
    exact (h.child function defer mem).met ht
termination_by sizeOf n

theorem mem_escapingTransfers_iff_scanned {body : Node} {isAsync : Bool} {t : Transfer} :
    t ∈ body.escapingTransfers isAsync ↔ t ∈ transfersIn isAsync {} body := by
  have hall : t ∈ Transfer.all := by cases t <;> decide
  simp [escapingTransfers, hall]

/-- The transfers that leave a body are those of the nodes that are exposed in it. -/
theorem mem_escapingTransfers {body : Node} {isAsync : Bool} {t : Transfer} :
    t ∈ body.escapingTransfers isAsync ↔ ∃ path n, body.Exposes path n ∧ n.Escapes isAsync path t := by
  rw [mem_escapingTransfers_iff_scanned]
  constructor
  · intro ht
    obtain ⟨path, n, exposed, met⟩ := Exposes.body.met ht
    exact ⟨path, n, exposed, mem_metTransfer.mp met⟩
  · rintro ⟨path, n, exposed, escapes⟩
    exact exposed.scanned (mem_transfersIn.mpr (.inl (mem_metTransfer.mpr escapes)))

/-- Only an `await` depends on whether the action is asynchronous. -/
theorem escapes_true {path : List Node} {n : Node} {t : Transfer} :
    n.Escapes true path t ↔ n.Escapes false path t ∧ t ≠ .await := by
  cases t <;> simp [Escapes]

/-- The transfers of an asynchronous action are those of a synchronous one, an `await` apart. -/
theorem escapingTransfers_true (body : Node) :
    body.escapingTransfers true = (body.escapingTransfers false).filter (· ≠ .await) := by
  unfold escapingTransfers
  rw [List.filter_filter]
  refine List.filter_congr fun t ht => ?_
  have key : t ∈ transfersIn true {} body ↔ t ∈ transfersIn false {} body ∧ t ≠ .await := by
    simp only [← mem_escapingTransfers_iff_scanned, mem_escapingTransfers, escapes_true]
    grind
  rw [Bool.eq_iff_iff]
  simp [key, and_comm]

/-- **Main result.** The scan of a body finds the transfers of the nodes exposed in it that leave it, each
once, and an asynchronous action differs from a synchronous one in the `await` alone. -/
theorem escapingTransfers_exact (body : Node) :
    (∀ isAsync t, t ∈ body.escapingTransfers isAsync ↔
      ∃ path n, body.Exposes path n ∧ n.Escapes isAsync path t) ∧
    (∀ isAsync, (body.escapingTransfers isAsync).Nodup) ∧
    body.escapingTransfers true = (body.escapingTransfers false).filter (· ≠ .await) :=
  ⟨fun _ _ => mem_escapingTransfers, fun _ => .sublist List.filter_sublist (by decide), escapingTransfers_true body⟩

end ScopeExit.Node
