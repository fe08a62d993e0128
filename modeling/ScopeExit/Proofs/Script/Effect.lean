import ScopeExit.Proofs.Script.Hosting
/-!
Effects that concern no activation.

Reading and writing names and properties, making values and functions, and the built-in functions that
make no task change the heap and the scopes only.  `Calm` says this of a change, and that it fails in a
clean way if it fails.
-/
namespace ScopeExit.Script

open World

variable {w : World}

/-! ### Scopes -/

theorem Scopes.get_add_of_lt (s : Scopes) (scope : Scope) {i : Nat} (h : i < s.all.size) :
    (s.add scope).2.get i = s.get i := by
  simp [Scopes.get, Scopes.add, Array.getD_eq_getD_getElem?, Array.getElem?_push, Nat.ne_of_lt h]

theorem Scopes.get_add (s : Scopes) (scope : Scope) : (s.add scope).2.get s.all.size = scope := by
  simp [Scopes.get, Scopes.add, Array.getD_eq_getD_getElem?]

theorem scopeIn_addScope {a : Nat} (scope : Scope) (h : scope.activation = some a) :
    ScopeIn { w with scopes := (w.scopes.add scope).2 } a w.scopes.all.size :=
  ⟨by simp [Scopes.add], by rw [← h]; exact congrArg _ (Scopes.get_add _ _)⟩

/-- A scope inside a scope of an activation belongs to the activation. -/
theorem ScopeIn.child {a scope : Nat} (h : ScopeIn w a scope) :
    ScopeIn (w.childScope scope).2 a (w.childScope scope).1 :=
  scopeIn_addScope { parent := some scope, activation := (w.scopes.get scope).activation } h.2

theorem get_modify (s : Scopes) (i : Nat) (f : Scope → Scope)
    (hf : ∀ x, (f x).activation = x.activation) (j : Nat) :
    ((⟨s.all.modify i f⟩ : Scopes).get j).activation = (s.get j).activation := by
  simp only [Scopes.get, Array.getD_eq_getD_getElem?, Array.getElem?_modify]
  by_cases h : i = j
  · subst h
    cases s.all[i]? <;> simp [hf]
  · simp [h]

theorem ScopeIn.copy {a scope : Nat} (h : ScopeIn w a scope) (loop : CountingLoop) :
    ScopeIn (w.copyScope loop scope).2 a (w.copyScope loop scope).1 := by
  unfold World.copyScope
  split
  · exact scopeIn_addScope { w.scopes.get scope with isFunction := false } h.2
  · exact h

/-! ### What is looked up -/

theorem clean_undefinedName (name : Text) : (undefinedName name).Clean := Failure.clean_single rfl

theorem mild_lookup (scope : Nat) (name : Text) : Mild (w.lookup scope name) := by
  unfold World.lookup
  split
  · exact .error (clean_undefinedName name)
  · exact .ok _

theorem mild_assignable (scope : Nat) (name : Text) : Mild (w.assignable scope name) := by
  unfold World.assignable
  split
  · exact .error (clean_undefinedName name)
  · exact .ite (.error (Failure.clean_typeError _)) (.ok _)

theorem mild_member (h : Heap) (object key : Value) : Mild (member h object key) := by
  cases object with
  | undefined | null =>
    exact (h.mild_text _).bind fun _ => (h.mild_text key).bind fun _ =>
      .error (Failure.clean_typeError _)
  | array ref =>
    refine key.mild_position?.bind fun i => ?_
    cases i with
    | some i => exact .pure _
    | none => exact (h.mild_text key).bind fun _ => .pure _
  | text t =>
    refine key.mild_position?.bind fun i => ?_
    cases i with
    | some i => exact .pure _
    | none => exact (h.mild_text key).bind fun _ => .pure _
  | object ref => exact (h.mild_text key).bind fun _ => .pure _
  | generator ref => exact (h.mild_text key).bind fun _ => .pure _
  | _ => exact .pure _

theorem mild_writtenPosition (size : Nat) (key : Value) : Mild (w.writtenPosition size key) := by
  refine key.mild_position?.bind fun i => ?_
  cases i with
  | some i =>
    exact .ite (.pure _) (.ite (.error (Failure.clean_host _)) (.error (Failure.clean_host _)))
  | none => exact (w.heap.mild_text key).bind fun _ => .error (Failure.clean_typeError _)

/-- The refusal to write a property is a clean failure. -/
theorem clean_refusedProperty (object key : Value) {f : Failure}
    (h : w.refusedProperty object key = .ok f ∨ w.refusedProperty object key = .error f) :
    f.Clean := by
  have hobject := w.heap.mild_text object
  have hkey := w.heap.mild_text key
  simp only [World.refusedProperty, Bind.bind, Except.bind] at h
  cases ho : w.heap.text object with
  | error e =>
    simp only [ho] at h
    rcases h with h | h
    · contradiction
    · rw [← Except.error.inj h]
      exact hobject.clean ho
  | ok s =>
    simp only [ho] at h
    cases hk : w.heap.text key with
    | error e =>
      simp only [hk] at h
      rcases h with h | h
      · contradiction
      · rw [← Except.error.inj h]
        exact hkey.clean hk
    | ok t =>
      simp only [hk] at h
      rcases h with h | h
      · rw [← Except.ok.inj h]
        exact Failure.clean_typeError _
      · contradiction

theorem mild_sleepSeconds (arguments : List Value) : Mild (w.sleepSeconds arguments) :=
  mild_ofNumeric _

theorem mild_errorMessage (argument : Value) : Mild (w.errorMessage argument) :=
  .ite (.pure _) (w.heap.mild_text argument)

/-! ### Data and failures as values -/

theorem load_closures (d : Datum) (h : Heap) (hd : d.isScalar = true) :
    (h.load d).2.closures = h.closures := by
  cases d <;> first | rfl | contradiction

theorem failureValue_closures (f : Failure) (h : Heap) :
    (h.failureValue f).2.closures = h.closures := by
  induction f generalizing h with
  | single x => cases x <;> rfl
  | suppressing message error suppressed ihe ihs =>
    show (((h.failureValue error).2.failureValue suppressed).2.newSuppressed _ _ _).2.closures = _
    exact (ihs _).trans (ihe h)

/-! ### Kinds of quiet changes -/

variable [Node.Strays]

/-- A change that concerns no activation, with a clean failure if there is one. -/
structure Calm {α : Type} (w : World) (c : Change α) : Prop where
  quiet : Quiet w c.2
  mild : Mild c.1

/-- Scopes, functions, activations, generators and tasks stay. -/
theorem Quiet.same {w' : World} (scopes : w'.scopes = w.scopes)
    (closures : w'.heap.closures = w.heap.closures) (activations : w'.activations = w.activations)
    (generators : w'.generators = w.generators) (loop : w'.loop = w.loop)
    (current : w'.current = w.current) (ending : w'.ending? = w.ending?) : Quiet w w' where
  ext :=
    ⟨Nat.le_of_eq (by rw [scopes]), by simp [scopes], Nat.le_of_eq (by rw [closures]),
      by simp [Heap.closure, closures], Nat.le_of_eq (by rw [activations]),
      by simp [World.activation, activations]⟩
  activations := activations
  generators := generators
  loop := loop
  current := current
  ending := ending
  closures h := by
    rw [closures]
    exact h

theorem quiet_heap {heap : Heap} (h : heap.closures = w.heap.closures) :
    Quiet w { w with heap := heap } := .same rfl h rfl rfl rfl rfl rfl

/-- There are more scopes, and those that were there belong to the same activations. -/
theorem quiet_scopes {scopes : Scopes} (size : w.scopes.all.size ≤ scopes.all.size)
    (owners : ∀ i < w.scopes.all.size,
      (scopes.get i).activation = (w.scopes.get i).activation) :
    Quiet w { w with scopes := scopes } :=
  ⟨⟨size, owners, Nat.le_refl _, fun _ _ => rfl, Nat.le_refl _, fun _ _ => rfl⟩, rfl, rfl, rfl, rfl,
    rfl, id⟩

/-- A change by what a computation gives. -/
theorem Calm.change {α γ : Type} {r : Except Failure α} {f : World → α → γ × World} (hr : Mild r)
    (hf : ∀ x, Quiet w (f w x).2) : Calm w (w.change r f) := by
  cases r with
  | ok x => exact ⟨hf x, .ok _⟩
  | error e => exact ⟨.refl w, .error (hr e rfl)⟩

/-- A computation that changes nothing. -/
theorem Calm.pure {α : Type} {r : Except Failure α} (hr : Mild r) : Calm w (r, w) := ⟨.refl w, hr⟩

/-! ### Names -/

/-- A new scope. -/
theorem quiet_addScope (scope : Scope) : Quiet w { w with scopes := (w.scopes.add scope).2 } :=
  quiet_scopes (by simp [Scopes.add]) fun _ hi => by rw [Scopes.get_add_of_lt _ _ hi]

theorem quiet_childScope (scope : Nat) : Quiet w (w.childScope scope).2 := quiet_addScope _

theorem quiet_bind (scope : Nat) (name : Text) (value : Value) : Quiet w (w.bind scope name value) :=
  quiet_scopes (by simp [Scopes.bind]) fun _ _ => get_modify _ _ _ (by intro _; rfl) _

theorem quiet_define (kind name : Text) (target : Nat) (value : Value) :
    Quiet w (w.define kind name target value) := by
  simp only [World.define]
  split
  · exact (quiet_bind target name value).trans
      (quiet_scopes (by simp [Scopes.makeConstant]) fun _ _ => get_modify _ _ _ (by intro _; rfl) _)
  · exact quiet_bind target name value

theorem quiet_copyScope (loop : CountingLoop) (scope : Nat) :
    Quiet w (w.copyScope loop scope).2 := by
  unfold World.copyScope
  split
  · exact quiet_addScope _
  · exact .refl w

theorem calm_assign (scope : Nat) (name : Text) (value : Value) :
    Calm w (w.assign scope name value) :=
  .change (mild_assignable scope name) fun _ => quiet_bind _ _ _

/-! ### Functions -/

/-- A function whose parts stand where they may makes a closure with such parts. -/
theorem quiet_newClosure {c : Closure} (hc : ClosureFits c) :
    Quiet w { w with heap := (w.heap.newClosure c).2 } where
  ext :=
    ⟨Nat.le_refl _, fun _ _ => rfl, by simp [Heap.newClosure], fun i hi => by
      simp [Heap.closure, Heap.newClosure, Array.getD_eq_getD_getElem?, Array.getElem?_push,
        Nat.ne_of_lt hi], Nat.le_refl _, fun _ _ => rfl⟩
  activations := rfl
  generators := rfl
  loop := rfl
  current := rfl
  ending := rfl
  closures h c' hc' := by
    rcases Array.mem_push.mp hc' with hc' | rfl
    · exact h c' hc'
    · exact hc

/-- The parts of a node that makes a function. -/
structure FunctionFits (n : Node) : Prop where
  params : ∀ p ∈ n.params, Node.Shaped Node.Allowed .param (.within n.context p) p
  body : ∀ c ∈ n.children, Node.Shaped Node.Allowed .body (.within n.context c) c
  sort : (n.isAsync && n.isGenerator) = false

theorem calm_makeFunction {n : Node} (h : FunctionFits n) (scope : Nat) :
    Calm w (w.makeFunction n scope) := by
  unfold World.makeFunction
  split
  · exact .pure (.error (Failure.clean_host _))
  · rename_i body _ hchildren
    refine ⟨quiet_newClosure ⟨h.params, h.body body (by simp [hchildren]), h.sort⟩, .ok _⟩

/-- Binding the functions among statements. -/
theorem quiet_hoist (scope : Nat) {statements : List Node}
    (h : ∀ s ∈ statements, s.kind = .function → FunctionFits s) :
    Quiet w (w.hoist scope statements).1 ∧ ∀ f ∈ (w.hoist scope statements).2, f.Clean := by
  induction statements generalizing w with
  | nil => exact ⟨.refl w, by simp [World.hoist]⟩
  | cons s rest ih =>
    have hrest : ∀ s ∈ rest, s.kind = .function → FunctionFits s := fun s hs =>
      h s (List.mem_cons_of_mem _ hs)
    unfold World.hoist
    split
    · rename_i hk
      have hcalm := calm_makeFunction (w := w) (h s (by simp) hk) scope
      split
      · rename_i v w' e
        rw [e] at hcalm
        obtain ⟨hquiet, hclean⟩ := ih (w := w'.bind scope s.name v) hrest
        exact ⟨(hcalm.quiet.trans (quiet_bind _ _ _)).trans hquiet, hclean⟩
      · rename_i failure w' e
        rw [e] at hcalm
        refine ⟨hcalm.quiet, ?_⟩
        intro f hf
        rw [← Option.some.inj hf]
        exact hcalm.mild.clean rfl
    · exact ih hrest

/-! ### Values and properties -/

theorem quiet_load {d : Datum} (hd : d.isScalar = true) :
    Quiet w { w with heap := (w.heap.load d).2 } := quiet_heap (load_closures d _ hd)

theorem quiet_method (builtin : Builtin) : Quiet w (w.method builtin).2 := quiet_heap rfl

theorem calm_getProperty (object key : Value) : Calm w (w.getProperty object key) := by
  refine .change (mild_member _ object key) fun m => ?_
  cases m with
  | value v => exact .refl w
  | method builtin => exact quiet_method builtin

theorem calm_setProperty (object key value : Value) : Calm w (w.setProperty object key value) := by
  cases object with
  | object ref =>
    simp only [World.setProperty]
    refine .change (w.heap.mild_text key) fun _ => ?_
    exact quiet_heap rfl
  | array ref =>
    simp only [World.setProperty]
    refine .change (mild_writtenPosition _ key) fun _ => ?_
    exact quiet_heap rfl
  | _ =>
    simp only [World.setProperty]
    split
    · rename_i f refused
      exact .pure (.error (clean_refusedProperty _ key (.inl refused)))
    · rename_i f refused
      exact .pure (.error (clean_refusedProperty _ key (.inr refused)))

/-! ### Built-in functions that make no task -/

/-- Built-in functions that make a task. -/
def isTimed : Builtin → Bool
  | .tick | .sleep => true
  | _ => false

theorem calm_apply (builtin : Builtin) (h : isTimed builtin = false) (arguments : List Value) :
    Calm w (w.apply builtin arguments) := by
  cases builtin with
  | tick | sleep => contradiction
  | log =>
    simp only [World.apply]
    refine .change (.mapM fun v => w.heap.mild_text v) fun _ => ?_
    exact .same rfl rfl rfl rfl rfl rfl rfl
  | toText =>
    cases arguments with
    | nil => exact .pure (.ok _)
    | cons v rest => exact .pure ((w.heap.mild_text v).map _)
  | makeError className =>
    simp only [World.apply]
    refine .change (mild_errorMessage _) fun _ => ?_
    exact quiet_heap rfl
  | makeSuppressed =>
    simp only [World.apply]
    refine .change (mild_errorMessage _) fun _ => ?_
    exact quiet_heap rfl
  | push ref => exact ⟨quiet_heap rfl, .ok _⟩
  | join ref =>
    refine .pure (Mild.map _ ?_)
    unfold World.joinedElements
    refine .ite ?_ ?_
    · exact Mild.bind (.pure _) fun _ => w.heap.mild_joined _ _
    · exact Mild.bind (w.heap.mild_text _) fun _ => w.heap.mild_joined _ _
  | resume | named => exact .pure (.error (Failure.clean_host _))

end ScopeExit.Script
