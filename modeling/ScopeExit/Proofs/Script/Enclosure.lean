import ScopeExit.Proofs.Script.Effect
/-!
Scopes inside scopes.

A scope refers to the one around it, which is always older.  So the scopes around a scope are ordered by
age, and nothing is inside two scopes that have the same scope around them.  Scopes are never given up, and
where they stand never changes; only their bindings do, and `Scopes.Keeps` says which of them stay.
-/
namespace ScopeExit.Scopes

variable {s s' s'' : Scopes} {i j k : Nat}

/-! ### What is around a scope -/

/-- Code of the second scope sees the names of the first one: it is that scope, or one inside it. -/
inductive Encloses (s : Scopes) (j : Nat) : Nat → Prop
  | self : Encloses s j j
  | inside {i p : Nat} (parent : (s.get i).parent = some p) (rest : Encloses s j p) : Encloses s j i

theorem Encloses.trans (h : s.Encloses k j) (h' : s.Encloses j i) : s.Encloses k i := by
  induction h' with
  | self => exact h
  | inside parent _ ih => exact .inside parent ih

/-- Of two scopes around a scope one is around the other. -/
theorem Encloses.linear (h : s.Encloses j i) (h' : s.Encloses k i) : s.Encloses j k ∨ s.Encloses k j := by
  induction h with
  | self => exact .inr h'
  | @inside i p parent rest ih =>
    cases h' with
    | self => exact .inl (.inside parent rest)
    | inside parent' rest' =>
      rw [parent] at parent'
      obtain rfl := Option.some.inj parent'
      exact ih rest'

/-- A search outward finds a scope that is around, with the property that was looked for. -/
theorem findFrom_some {found : Scope → Bool} {fuel : Nat} (h : s.findFrom found fuel i = some j) :
    s.Encloses j i ∧ found (s.get j) = true := by
  induction fuel generalizing i with
  | zero => cases h
  | succ fuel ih =>
    unfold findFrom at h
    split at h
    · rename_i here
      obtain rfl := Option.some.inj h
      exact ⟨.self, here⟩
    · split at h
      · rename_i p parent
        obtain ⟨around, holds⟩ := ih h
        exact ⟨.inside parent around, holds⟩
      · cases h

/-- The scope that a name means is around, and binds the name. -/
theorem resolve?_some {name : Text} (h : s.resolve? i name = some j) :
    s.Encloses j i ∧ (s.binding? j name).isSome = true := findFrom_some h

theorem functionScope_encloses (s : Scopes) (i : Nat) : s.Encloses (s.functionScope i) i := by
  unfold functionScope
  cases found : s.findFrom (fun scope => scope.isFunction || scope.parent.isNone) (s.all.size + 1) i with
  | none => exact .self
  | some j => exact (findFrom_some found).1

/-- The scope around a scope is older. -/
def Ordered (s : Scopes) : Prop := ∀ i p, (s.get i).parent = some p → p < i

theorem Encloses.le (ordered : s.Ordered) (h : s.Encloses j i) : j ≤ i := by
  induction h with
  | self => exact Nat.le_refl _
  | @inside i p parent _ ih =>
    have older := ordered i p parent
    omega

/-- A scope is not inside another one beside it. -/
theorem not_encloses_beside (ordered : s.Ordered) (beside : (s.get j).parent = (s.get k).parent)
    (other : j ≠ k) : ¬ s.Encloses j k := by
  intro h
  cases h with
  | self => exact other rfl
  | @inside k p parent rest =>
    have older := ordered j p (beside.trans parent)
    have := rest.le ordered
    omega

/-- Nothing is inside two scopes that stand beside each other. -/
theorem apart_of_beside (ordered : s.Ordered) (beside : (s.get j).parent = (s.get k).parent)
    (other : j ≠ k) (h : s.Encloses j i) : ¬ s.Encloses k i := by
  intro h'
  rcases h.linear h' with jk | kj
  · exact not_encloses_beside ordered beside other jk
  · exact not_encloses_beside ordered beside.symm (Ne.symm other) kj

/-! ### Searches -/

/-- A search that can take as many steps as there are scopes around finds the same, however many it can take. -/
theorem findFrom_congr {found : Scope → Bool} {fuel fuel' : Nat} (ordered : s.Ordered) (enough : i < fuel)
    (enough' : i < fuel') : s.findFrom found fuel i = s.findFrom found fuel' i := by
  induction fuel generalizing i fuel' with
  | zero => omega
  | succ fuel ih =>
    cases fuel' with
    | zero => omega
    | succ fuel' =>
      unfold findFrom
      split
      · rfl
      · split
        · rename_i p parent
          have older := ordered i p parent
          exact ih (by omega) (by omega)
        · rfl

/-- A search ends where nothing is around, if not before. -/
theorem findFrom_isSome {found : Scope → Bool} {fuel : Nat} (ordered : s.Ordered) (enough : i < fuel)
    (outermost : ∀ j, (s.get j).parent = none → found (s.get j) = true) : (s.findFrom found fuel i).isSome = true := by
  induction fuel generalizing i with
  | zero => omega
  | succ fuel ih =>
    unfold findFrom
    split
    · rfl
    · rename_i missing
      split
      · rename_i p parent
        have older := ordered i p parent
        exact ih (by omega)
      · rename_i none
        exact absurd (outermost i none) missing

/-- A name that a scope binds means its own binding there. -/
theorem resolve?_of_bound {name : Text} (bound : (s.binding? i name).isSome = true) : s.resolve? i name = some i := by
  rw [binding?] at bound
  rw [resolve?, findFrom, if_pos bound]

/-- Other names mean what they mean around the scope. -/
theorem resolve?_of_unbound {name : Text} {p : Nat} (ordered : s.Ordered) (born : i < s.all.size)
    (parent : (s.get i).parent = some p) (unbound : s.binding? i name = none) :
    s.resolve? i name = s.resolve? p name := by
  have older := ordered i p parent
  have missing : (lookupKey name (s.get i).bindings).isSome = false := by
    rw [binding?] at unbound
    rw [unbound]
    rfl
  have onward : s.resolve? i name = s.findFrom (fun scope => (lookupKey name scope.bindings).isSome) s.all.size p := by
    rw [resolve?, findFrom, if_neg (by simp [missing]), parent]
  rw [onward]
  exact findFrom_congr ordered (by omega) (by omega)

/-- Inside of a scope that binds a name, the name means that binding or one that is nearer. -/
theorem resolve?_inside {name : Text} (ordered : s.Ordered) (born : i < s.all.size) (around : s.Encloses j i)
    (bound : (s.binding? j name).isSome = true) :
    ∃ k, s.resolve? i name = some k ∧ s.Encloses j k ∧ s.Encloses k i := by
  induction around with
  | self => exact ⟨j, resolve?_of_bound bound, .self, .self⟩
  | @inside i p parent rest ih =>
    by_cases here : (s.binding? i name).isSome = true
    · exact ⟨i, resolve?_of_bound here, .inside parent rest, .self⟩
    · have older := ordered i p parent
      obtain ⟨k, resolves, outer, inner⟩ := ih (by omega)
      have unbound : s.binding? i name = none := by simpa using here
      exact ⟨k, (resolve?_of_unbound ordered born parent unbound).trans resolves, outer, .inside parent inner⟩

/-! ### Growing -/

/-- A scope that does not exist has nothing around it. -/
theorem get_of_size_le (h : s.all.size ≤ i) : s.get i = default := by
  simp [get, Array.getD_eq_getD_getElem?, Array.getElem?_eq_none h]

theorem lt_of_parent {p : Nat} (h : (s.get i).parent = some p) : i < s.all.size := by
  by_contra outside
  rw [get_of_size_le (Nat.le_of_not_lt outside)] at h
  cases h

/-- The scopes that are there stay where they are, and what is constant stays so. -/
structure Grows (s s' : Scopes) : Prop where
  size : s.all.size ≤ s'.all.size
  parent : ∀ i < s.all.size, (s'.get i).parent = (s.get i).parent
  isFunction : ∀ i < s.all.size, (s'.get i).isFunction = (s.get i).isFunction
  constants : ∀ i name, s.isConstant i name = true → s'.isConstant i name = true

namespace Grows

theorem refl (s : Scopes) : s.Grows s := ⟨Nat.le_refl _, fun _ _ => rfl, fun _ _ => rfl, fun _ _ => id⟩

theorem trans (h : s.Grows s') (h' : s'.Grows s'') : s.Grows s'' where
  size := Nat.le_trans h.size h'.size
  parent i hi := (h'.parent i (Nat.lt_of_lt_of_le hi h.size)).trans (h.parent i hi)
  isFunction i hi := (h'.isFunction i (Nat.lt_of_lt_of_le hi h.size)).trans (h.isFunction i hi)
  constants i name constant := h'.constants i name (h.constants i name constant)

theorem encloses (h : s.Grows s') (around : s.Encloses j i) : s'.Encloses j i := by
  induction around with
  | self => exact .self
  | @inside i p parent _ ih => exact .inside ((h.parent i (lt_of_parent parent)).trans parent) ih

end Grows

/-- A binding stays as it is unless the name may change in the scope. -/
def Keeps (may : Nat → Text → Prop) (s s' : Scopes) : Prop :=
  ∀ i name, ¬ may i name → s'.binding? i name = s.binding? i name

section Keeps

variable {may may' : Nat → Text → Prop}

theorem Keeps.refl (s : Scopes) : s.Keeps may s := fun _ _ _ => rfl

theorem Keeps.trans (h : s.Keeps may s') (h' : s'.Keeps may s'') : s.Keeps may s'' :=
  fun i name closed => (h' i name closed).trans (h i name closed)

theorem Keeps.mono (h : s.Keeps may s') (wider : ∀ i name, may i name → may' i name) : s.Keeps may' s' :=
  fun i name closed => h i name fun opened => closed (wider i name opened)

end Keeps

/-- A rule for the names that statements may bind.  Nothing is forbidden to scopes that are still to come,
and whatever is forbidden is so inside of functions. -/
structure Allows (s : Scopes) (may : Nat → Text → Prop) : Prop where
  fresh : ∀ i, s.all.size ≤ i → ∀ name, may i name
  inner : ∀ i name, ¬ may i name → (s.get i).isFunction = false ∧ (s.get i).parent.isSome = true

namespace Allows

variable {may : Nat → Text → Prop}

theorem mono (h : s.Allows may) (grows : s.Grows s') : s'.Allows may where
  fresh i hi := h.fresh i (Nat.le_trans grows.size hi)
  inner i name closed := by
    have old : i < s.all.size := by
      by_contra outside
      exact closed (h.fresh i (Nat.le_of_not_lt outside) name)
    rw [grows.isFunction i old, grows.parent i old]
    exact h.inner i name closed

/-- The scope of a function allows everything. -/
theorem functionScope (h : s.Allows may) (ordered : s.Ordered) (born : i < s.all.size) (name : Text) :
    may (s.functionScope i) name := by
  obtain ⟨j, found⟩ : ∃ j, s.findFrom (fun scope => scope.isFunction || scope.parent.isNone) (s.all.size + 1) i =
      some j := Option.isSome_iff_exists.mp (findFrom_isSome ordered (by omega) fun j none => by simp [none])
  have own := (findFrom_some found).2
  rw [Scopes.functionScope, found, Option.getD_some]
  by_contra closed
  obtain ⟨inner, around⟩ := h.inner j name closed
  cases parent : (s.get j).parent <;> simp [inner, parent] at own around

end Allows

/-! ### The changes of scopes -/

section Changes

variable {may : Nat → Text → Prop} (s)

theorem size_add (scope : Scope) : (s.add scope).2.all.size = s.all.size + 1 := by simp [add]

theorem grows_add (scope : Scope) : s.Grows (s.add scope).2 where
  size := Nat.le_of_lt (Nat.lt_of_lt_of_eq (Nat.lt_succ_self _) (s.size_add scope).symm)
  parent i hi := by rw [Script.Scopes.get_add_of_lt s scope hi]
  isFunction i hi := by rw [Script.Scopes.get_add_of_lt s scope hi]
  constants i name constant := by
    by_cases hi : i < s.all.size
    · rwa [isConstant, Script.Scopes.get_add_of_lt s scope hi]
    · rw [isConstant, get_of_size_le (Nat.le_of_not_lt hi)] at constant
      cases constant

theorem binding?_add (scope : Scope) (name : Text) (old : i < s.all.size) :
    (s.add scope).2.binding? i name = s.binding? i name := by
  rw [binding?, Script.Scopes.get_add_of_lt s scope old, binding?]

theorem keeps_add (scope : Scope) (allows : s.Allows may) : s.Keeps may (s.add scope).2 := by
  intro i name closed
  refine s.binding?_add scope name ?_
  by_contra outside
  exact closed (allows.fresh i (Nat.le_of_not_lt outside) name)

variable {s} in
theorem Ordered.add {scope : Scope} (ordered : s.Ordered)
    (older : ∀ p, scope.parent = some p → p < s.all.size) : (s.add scope).2.Ordered := by
  intro i p parent
  by_cases hi : i < s.all.size
  · rw [Script.Scopes.get_add_of_lt s scope hi] at parent
    exact ordered i p parent
  · obtain rfl : i = s.all.size := by
      have := lt_of_parent parent
      rw [size_add] at this
      omega
    rw [Script.Scopes.get_add] at parent
    exact older p parent

/-- Modifying a scope modifies that scope. -/
theorem get_modified (i j : Nat) (f : Scope → Scope) :
    (⟨s.all.modify i f⟩ : Scopes).get j = if i = j ∧ j < s.all.size then f (s.get j) else s.get j := by
  by_cases hj : j < s.all.size
  · simp only [get, Array.getD_eq_getD_getElem?, Array.getElem?_modify, Array.getElem?_eq_getElem hj, hj, and_true]
    split <;> rfl
  · rw [if_neg fun h => hj h.2, get_of_size_le (Nat.le_of_not_lt hj),
      get_of_size_le (by simpa using Nat.le_of_not_lt hj)]

/-- A change of a scope that does not move it. -/
theorem grows_modified (i : Nat) {f : Scope → Scope}
    (same : ∀ scope, (f scope).parent = scope.parent ∧ (f scope).isFunction = scope.isFunction ∧
      scope.constants ⊆ (f scope).constants) : s.Grows ⟨s.all.modify i f⟩ where
  size := Nat.le_of_eq Array.size_modify.symm
  parent j _ := by
    rw [get_modified]
    split
    · exact (same _).1
    · rfl
  isFunction j _ := by
    rw [get_modified]
    split
    · exact (same _).2.1
    · rfl
  constants j name constant := by
    rw [isConstant, List.contains_iff_mem] at constant ⊢
    rw [get_modified]
    split
    · exact (same _).2.2 constant
    · exact constant

theorem grows_bind (i : Nat) (name : Text) (value : Value) : s.Grows (s.bind i name value) :=
  s.grows_modified i fun _ => ⟨rfl, rfl, List.Subset.refl _⟩

theorem grows_makeConstant (i : Nat) (name : Text) : s.Grows (s.makeConstant i name) :=
  s.grows_modified i fun _ => ⟨rfl, rfl, List.subset_cons_self ..⟩

theorem binding?_bind_self (name : Text) (value : Value) (h : i < s.all.size) :
    (s.bind i name value).binding? i name = some value := by
  rw [binding?, bind, get_modified, if_pos ⟨rfl, h⟩]
  exact lookupKey_insertKey_self name value _

theorem binding?_bind_of_ne (name : Text) (value : Value) {other : Text} (h : j ≠ i ∨ other ≠ name) :
    (s.bind i name value).binding? j other = s.binding? j other := by
  rw [binding?, bind, get_modified]
  split
  · rename_i own
    exact lookupKey_insertKey_of_ne (h.resolve_left fun ne => ne own.1.symm) value _
  · rfl

theorem keeps_bind {name : Text} (value : Value) (allowed : may i name) : s.Keeps may (s.bind i name value) := by
  intro j other closed
  refine s.binding?_bind_of_ne name value ?_
  by_contra same
  rw [not_or, not_not, not_not] at same
  exact closed (same.1 ▸ same.2 ▸ allowed)

theorem binding?_makeConstant (i j : Nat) (name other : Text) :
    (s.makeConstant i name).binding? j other = s.binding? j other := by
  rw [binding?, makeConstant, get_modified]
  split <;> rfl

theorem isConstant_makeConstant (name : Text) (h : i < s.all.size) :
    (s.makeConstant i name).isConstant i name = true := by
  rw [isConstant, makeConstant, get_modified, if_pos ⟨rfl, h⟩, List.contains_iff_mem]
  exact List.mem_cons_self ..

theorem size_bind (i : Nat) (name : Text) (value : Value) : (s.bind i name value).all.size = s.all.size :=
  Array.size_modify

theorem size_makeConstant (i : Nat) (name : Text) : (s.makeConstant i name).all.size = s.all.size :=
  Array.size_modify

variable {s} in
/-- Where scopes stand as they did, they stand in order. -/
theorem Ordered.of_grows (ordered : s.Ordered) (grows : s.Grows s') (size : s'.all.size = s.all.size) :
    s'.Ordered := by
  intro i p parent
  have old : i < s.all.size := size ▸ lt_of_parent parent
  rw [grows.parent i old] at parent
  exact ordered i p parent

end Changes

end ScopeExit.Scopes
