import ScopeExit.Proofs.Tree.Shape
import ScopeExit.Script.Literal
/-!
What stands outside of functions.

The module runs the statements of a program that are outside of its functions.  A program that the check
accepts without an `await` at the top level has no asynchronous action there, and the check accepts it
with one too, and finds the same actions.
-/
namespace ScopeExit.Node

mutual

/-- A property holds of a tree and of all its parts, as far as they are outside of functions. -/
def everyOutside (p : Node → Prop) : Node → Prop
  | ⟨kind, value, label, params, children, a, g, l, span⟩ =>
    kind.isFunction = true ∨
      (p ⟨kind, value, label, params, children, a, g, l, span⟩ ∧ everyOutsideAll p children)

/-- The same for several trees. -/
def everyOutsideAll (p : Node → Prop) : List Node → Prop
  | [] => True
  | n :: ns => everyOutside p n ∧ everyOutsideAll p ns

end

/-- An action of the node is synchronous. -/
def DefersSync (n : Node) : Prop := n.kind = .defer → n.isAsync = false

/-- The clauses of a switch and the handler of an attempt are no functions. -/
structure PlacesClauses (n : Node) : Prop where
  clauses : n.kind = .switch → ∀ c ∈ n.children.drop 1, c.kind.isFunction = false
  handler : n.kind = .try → ∀ c ∈ n.children[1]?, c.kind.isFunction = false

section Outside

variable {p q : Node → Prop}

theorem everyOutsideAll_iff {ns : List Node} : everyOutsideAll p ns ↔ ∀ n ∈ ns, n.everyOutside p := by
  induction ns with
  | nil => simp [everyOutsideAll]
  | cons n ns ih => simp [everyOutsideAll, ih]

theorem everyOutside_iff {n : Node} (function : n.kind.isFunction = false) :
    n.everyOutside p ↔ p n ∧ ∀ c ∈ n.children, c.everyOutside p := by
  obtain ⟨kind, value, label, params, children, a, g, l, span⟩ := n
  simp only at function
  simp only [everyOutside, function, Bool.false_eq_true, false_or, everyOutsideAll_iff]

mutual

theorem everyOutside_and : ∀ {n : Node}, n.everyOutside p → n.everyOutside q →
    n.everyOutside fun m => p m ∧ q m
  | ⟨_, _, _, _, _, _, _, _, _⟩, .inl function, _ => .inl function
  | ⟨_, _, _, _, _, _, _, _, _⟩, .inr _, .inl function => .inl function
  | ⟨_, _, _, _, _, _, _, _, _⟩, .inr h, .inr h' => .inr ⟨⟨h.1, h'.1⟩, everyOutsideAll_and h.2 h'.2⟩

theorem everyOutsideAll_and : ∀ {ns : List Node}, everyOutsideAll p ns → everyOutsideAll q ns →
    everyOutsideAll (fun m => p m ∧ q m) ns
  | [], _, _ => trivial
  | _ :: _, h, h' => ⟨everyOutside_and h.1 h'.1, everyOutsideAll_and h.2 h'.2⟩

end

end Outside

/-! ### The check -/

section Check

variable {isGenerator : Bool}

/-- Without an asynchronous context a node is checked more strictly. -/
theorem checkOwn_relaxed {kind : NodeKind} {isAsync : Bool} {span : Span} {children : List Node}
    (h : checkOwn ⟨false, isGenerator⟩ kind isAsync span children = .ok ()) :
    checkOwn ⟨true, isGenerator⟩ kind isAsync span children = .ok () := by
  unfold checkOwn at h ⊢
  by_cases defer : kind = .defer
  · rw [if_pos defer] at h ⊢
    cases children with
    | nil => exact h
    | cons body rest =>
      simp only [checkDefer] at h ⊢
      cases isAsync with
      | true => contradiction
      | false => exact h
  · rw [if_neg defer] at h ⊢
    by_cases loop : kind.isLoop = true
    · rw [if_pos loop] at h ⊢
      exact h
    · rw [if_neg loop] at h ⊢
      by_cases await : kind = .await
      · simp [await, misplaced] at h
      · simpa [await] using h

mutual

/-- What is accepted without an asynchronous context is accepted in one, with the same actions. -/
theorem checked_relaxed : ∀ {n : Node} {found : List Node},
    checked ⟨false, isGenerator⟩ n = .ok found → checked ⟨true, isGenerator⟩ n = .ok found
  | ⟨kind, value, label, params, children, isAsync, g, l, span⟩, found, h => by
    by_cases function : kind.isFunction = true
    · simp only [checked, if_pos function] at h ⊢
      exact h
    · simp only [checked, if_neg function, Bind.bind, Except.bind] at h ⊢
      cases hown : checkOwn ⟨false, isGenerator⟩ kind isAsync span children with
      | error failure =>
        rw [hown] at h
        contradiction
      | ok u =>
        cases hinside : checkedAll ⟨false, isGenerator⟩ children with
        | error failure =>
          rw [hown, hinside] at h
          contradiction
        | ok inside =>
          rw [hown, hinside] at h
          rw [checkOwn_relaxed hown, checkedAll_relaxed hinside]
          exact h

theorem checkedAll_relaxed : ∀ {ns found : List Node},
    checkedAll ⟨false, isGenerator⟩ ns = .ok found → checkedAll ⟨true, isGenerator⟩ ns = .ok found
  | [], _, h => h
  | n :: ns, found, h => by
    simp only [checkedAll, Bind.bind, Except.bind] at h ⊢
    cases hfirst : checked ⟨false, isGenerator⟩ n with
    | error failure =>
      rw [hfirst] at h
      contradiction
    | ok first =>
      cases hrest : checkedAll ⟨false, isGenerator⟩ ns with
      | error failure =>
        rw [hfirst, hrest] at h
        contradiction
      | ok rest =>
        rw [hfirst, hrest] at h
        rw [checked_relaxed hfirst, checkedAll_relaxed hrest]
        exact h

end

mutual

/-- Outside of functions and of asynchronous contexts there is no asynchronous action. -/
theorem defersSync_of_checked : ∀ {n : Node} {found : List Node},
    checked ⟨false, isGenerator⟩ n = .ok found → n.everyOutside DefersSync
  | ⟨kind, value, label, params, children, isAsync, g, l, span⟩, found, h => by
    by_cases function : kind.isFunction = true
    · exact .inl function
    · have function' : kind.isFunction = false := by simpa using function
      obtain ⟨own, -⟩ := checked_own (n := ⟨kind, value, label, params, children, isAsync, g, l, span⟩)
        function' h
      simp only [checked, if_neg function, Bind.bind, Except.bind] at h
      refine .inr ⟨fun (defer : kind = .defer) => ?_, ?_⟩
      · cases isAsync with
        | false => rfl
        | true =>
          cases children with
          | nil => simp [checkOwn, defer, checkDefer] at own
          | cons body rest => simp [checkOwn, defer, checkDefer, misplaced] at own
      · cases hinside : checkedAll ⟨false, isGenerator⟩ children with
        | ok inside => exact defersSync_of_checkedAll hinside
        | error failure =>
          rw [hinside] at h
          split at h <;> contradiction

theorem defersSync_of_checkedAll : ∀ {ns found : List Node},
    checkedAll ⟨false, isGenerator⟩ ns = .ok found → everyOutsideAll DefersSync ns
  | [], _, _ => trivial
  | n :: ns, found, h => by
    simp only [checkedAll, Bind.bind, Except.bind] at h
    cases hfirst : checked ⟨false, isGenerator⟩ n with
    | error failure =>
      rw [hfirst] at h
      contradiction
    | ok first =>
      cases hrest : checkedAll ⟨false, isGenerator⟩ ns with
      | error failure =>
        rw [hfirst, hrest] at h
        contradiction
      | ok rest => exact ⟨defersSync_of_checked hfirst, defersSync_of_checkedAll hrest⟩

end

end Check

/-! ### Literals with identities -/

theorem kind_nameLiterals (key : Nat) (n : Node) : (nameLiterals key n).1.kind = n.kind := by
  obtain ⟨kind, value, label, params, children, a, g, l, span⟩ := n
  rfl

theorem kinds_nameAllLiterals (key : Nat) (ns : List Node) :
    (nameAllLiterals key ns).1.map Node.kind = ns.map Node.kind := by
  induction ns generalizing key with
  | nil => rfl
  | cons n ns ih =>
    simp only [nameAllLiterals, List.map_cons, kind_nameLiterals, ih]

/-- Names of literals make no difference to a property of kinds and flags. -/
def OfKinds (p : Node → Prop) : Prop :=
  ∀ {n m : Node}, p n → m.kind = n.kind → m.isAsync = n.isAsync →
    m.children.map Node.kind = n.children.map Node.kind → p m

mutual

theorem everyOutside_nameLiterals {p : Node → Prop} (kinds : OfKinds p) : ∀ {n : Node} (key : Nat),
    n.everyOutside p → (nameLiterals key n).1.everyOutside p
  | ⟨kind, value, label, params, children, a, g, l, span⟩, key, h => by
    simp only [nameLiterals, everyOutside] at h ⊢
    rcases h with function | ⟨own, parts⟩
    · exact .inl function
    · exact .inr ⟨kinds own rfl rfl (kinds_nameAllLiterals _ children),
        everyOutsideAll_nameAllLiterals kinds _ parts⟩

theorem everyOutsideAll_nameAllLiterals {p : Node → Prop} (kinds : OfKinds p) : ∀ {ns : List Node}
    (key : Nat), everyOutsideAll p ns → everyOutsideAll p (nameAllLiterals key ns).1
  | [], _, _ => trivial
  | _ :: _, key, h =>
    ⟨everyOutside_nameLiterals kinds key h.1, everyOutsideAll_nameAllLiterals kinds _ h.2⟩

end

theorem ofKinds_defersSync : OfKinds DefersSync := fun h kind isAsync _ defer =>
  isAsync.trans (h (kind.symm.trans defer))

theorem ofKinds_placesClauses : OfKinds PlacesClauses := by
  intro n m h kind _ kinds
  refine ⟨fun isSwitch c hc => ?_, fun isTry c hc => ?_⟩
  · have hmem : c.kind ∈ (n.children.drop 1).map Node.kind := by
      rw [List.map_drop, ← kinds, ← List.map_drop]
      exact List.mem_map_of_mem hc
    obtain ⟨c', hc', hkind⟩ := List.mem_map.mp hmem
    rw [← hkind]
    exact h.clauses (kind.symm.trans isSwitch) c' hc'
  · have hkinds : (n.children.map Node.kind)[1]? = some c.kind := by
      rw [← kinds, List.getElem?_map, hc]
      rfl
    rw [List.getElem?_map] at hkinds
    obtain ⟨c', hc', hkind⟩ := Option.map_eq_some_iff.mp hkinds
    rw [← hkind]
    exact h.handler (kind.symm.trans isTry) c' hc'

end ScopeExit.Node
