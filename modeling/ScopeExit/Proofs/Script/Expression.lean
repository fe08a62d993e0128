import ScopeExit.Proofs.Script.Statement
/-!
Expressions keep the machine good.

Whatever an expression does in one step, it either gives its value, fails in a clean way, or evaluates an
operand above a frame that takes the value of the operand and knows the operands after it.  So for most
expressions there is nothing to see to but that the operands stand where they may.  Calls are left to the
lemmas about calls, and an expression that suspends stands where it may do so.
-/
namespace ScopeExit.Script

open World

theorem mild_keepsCurrent? {op : Text} {current : Value} {keeps : Conversion Bool}
    (h : keepsCurrent? op current = some keeps) : Mild keeps := by
  unfold keepsCurrent? at h
  split at h
  · rw [← Option.some.inj h]
    exact current.mild_truthy.exceptMap _
  · split at h
    · rw [← Option.some.inj h]
      exact current.mild_truthy
    · split at h
      · rw [← Option.some.inj h]
        exact .ok _
      · contradiction

section Expression

variable [Node.Strays] {L : Ledger} {loc : Nat → Host} {w : World} {stack : Stack} {Γ : Region} {scope : Nat}

/-! ### Lists of operands -/

theorem Operands.tail {n : Node} {rest : List Node} (h : Operands w Γ (n :: rest) scope) :
    Operands w Γ rest scope := ⟨fun m hm => h.each m (List.mem_cons_of_mem _ hm), h.scope⟩

/-- The first of some operands is evaluated above a frame that knows the others. -/
theorem reached_operand (r : Ready L loc w stack (.code .value Γ) []) {n : Node} {rest : List Node}
    (h : Operands w Γ (n :: rest) scope) {f : Frame}
    (takes : Operands w Γ rest scope → f.Takes w Γ .value .value) :
    Reached L ⟨w, .evaluate n scope, f :: stack⟩ :=
  .evaluate (r.pushValue (takes h.tail)) (h.each n (by simp)) h.scope

theorem reached_template (r : Ready L loc w stack (.code .value Γ) []) (before : List Text)
    {rest : List Node} (h : Operands w Γ rest scope) :
    Reached L (w.template stack before rest scope) := by
  cases rest with
  | nil => exact .value r rfl _
  | cons n rest => exact reached_operand r h .templatePart

theorem reached_arguments (r : Ready L loc w stack (.code .value Γ) []) (callee : Callee)
    (before : List Value) {rest : List Node} (h : Operands w Γ rest scope) :
    Reached L (w.arguments stack callee before rest scope) := by
  cases rest with
  | nil => exact reached_call r callee _
  | cons n rest => exact reached_operand r h .argument

theorem reached_newArguments (r : Ready L loc w stack (.code .value Γ) []) (constructor : Value)
    (before : List Value) {rest : List Node} (h : Operands w Γ rest scope) :
    Reached L (w.newArguments stack constructor before rest scope) := by
  cases rest with
  | nil => exact reached_construct r constructor _
  | cons n rest => exact reached_operand r h .newArgument

theorem reached_elements (r : Ready L loc w stack (.code .value Γ) []) (before : List Value)
    {rest : List Node} (h : Operands w Γ rest scope) :
    Reached L (w.elements stack before rest scope) := by
  cases rest with
  | nil =>
    have hquiet : Quiet w { w with heap := (w.heap.newArray before.reverse.toArray).2 } :=
      quiet_heap rfl
    exact .value (r.quiet hquiet) rfl _
  | cons n rest => exact reached_operand r h .arrayElement

theorem reached_sequence (r : Ready L loc w stack (.code .value Γ) []) {rest : List Node}
    (h : Operands w Γ rest scope) (value : Value) :
    Reached L (w.sequence stack rest scope value) := by
  cases rest with
  | nil => exact .value r rfl _
  | cons n rest => exact reached_operand r h .sequenceElement

theorem reached_properties (r : Ready L loc w stack (.code .value Γ) []) (ref : Nat)
    {rest : List Node} (h : ∀ p ∈ rest, Γ.Property p) (hs : ScopeIn w Γ.activation scope) :
    Reached L (w.properties stack ref rest scope) := by
  cases rest with
  | nil => exact .value r rfl _
  | cons p rest =>
    have hrest : ∀ q ∈ rest, Γ.Property q := fun q hq => h q (List.mem_cons_of_mem _ hq)
    cases h p (by simp) with
    | property _ _ parts =>
      exact reached_evaluateChild (r.push (.objectProperty hrest hs)) (getElem?_of_forall parts 0) hs

/-! ### Places -/

theorem calm_readPlace (place : Place) : Calm w (w.readPlace place) := by
  cases place with
  | name name scope => exact .pure (mild_lookup scope name)
  | property object key => exact calm_getProperty object key

theorem calm_writePlace (place : Place) (value : Value) : Calm w (w.writePlace place value) := by
  cases place with
  | name name scope => exact calm_assign scope name value
  | property object key => exact calm_setProperty object key value

theorem reached_store (r : Ready L loc w stack (.code .value Γ) []) (place : Place)
    (value result : Value) : Reached L (w.store stack place value result) :=
  .perform (calm_writePlace place value) r fun _ r' => .value r' rfl _

theorem reached_update (r : Ready L loc w stack (.code .value Γ) []) (place : Place) (op : Text)
    (isLeading : Bool) : Reached L (w.update stack place op isLeading) := by
  refine .perform (calm_readPlace place) r fun v r' => ?_
  exact .attempt (Heap.mild_binary _ _ _ _) r' fun after => reached_store r' place after _

theorem reached_assignTo (r : Ready L loc w stack (.code .value Γ) []) (place : Place)
    (op : Option Text) {right : Node} (h : Γ.Expression right)
    (hs : ScopeIn w Γ.activation scope) : Reached L (w.assignTo stack place op right scope) := by
  unfold World.assignTo
  simp only
  split
  · exact .evaluate (r.push .assignValue) h hs
  · have hcalm := calm_readPlace (w := w) place
    refine .perform hcalm r fun current r' => ?_
    have hs' := hs.mono hcalm.quiet.ext
    split
    · rename_i keeps hkeeps
      obtain ⟨op, -, hkeeps⟩ := Option.bind_eq_some_iff.mp hkeeps
      refine .attempt (mild_keepsCurrent? hkeeps) r' fun keeps => ?_
      split
      · exact .value r' rfl _
      · exact .evaluate (r'.push .assignValue) h hs'
    · exact .evaluate (r'.push .assignCombined) h hs'

theorem reached_assignCombined (r : Ready L loc w stack (.code .value Γ) []) (place : Place)
    (op : Option Text) (current operand : Value) :
    Reached L (w.assignCombined stack place op current operand) := by
  unfold World.assignCombined
  split
  · exact .fail r (Failure.clean_host _)
  · exact .attempt (Heap.mild_binary _ _ _ _) r fun v => reached_store r place v v

theorem reached_usePlace (r : Ready L loc w stack (.code .value Γ) []) (place : Place)
    {use : PlaceUse} (h : use.Fits w Γ) : Reached L (w.usePlace stack place use) := by
  cases use with
  | update op isLeading => exact reached_update r place op isLeading
  | assign op right scope => exact reached_assignTo r place op h.1 h.2

/-- The parts of an expression that denotes a place. -/
theorem Region.Expression.target {n : Node} (h : Γ.Expression n)
    (kind : n.kind = .member ∨ n.kind = .index) : TargetFits Γ n := by
  cases h with
  | operation own _ parts => exact ⟨own.scalar, parts⟩
  | leaf _ hk _ => rcases hk with hk | hk <;> rcases kind with kind | kind <;> simp [hk] at kind
  | assignment _ hk _ _ =>
    rcases hk with hk | hk <;> rcases kind with kind | kind <;> simp [hk] at kind
  | object _ hk _ | functionExpression _ hk _ _ => rcases kind with kind | kind <;> simp [hk] at kind

theorem reached_findPlace (r : Ready L loc w stack (.code .value Γ) []) {target : Node}
    (h : Γ.Expression target) (isTarget : Node.isTarget target.kind = true)
    (hs : ScopeIn w Γ.activation scope) {use : PlaceUse} (hu : use.Fits w Γ) :
    Reached L (w.findPlace stack target scope use) := by
  unfold World.findPlace
  split
  · exact reached_usePlace r _ hu
  · rename_i hk
    have hkind : target.kind = .member ∨ target.kind = .index := by
      revert isTarget hk
      cases target.kind <;> simp [Node.isTarget]
    have htarget := h.target hkind
    exact reached_evaluateChild (r.push (.placeObject htarget hs hu))
      (getElem?_of_forall htarget.parts 0) hs

theorem quiet_memberKey {n : Node} (h : n.value.isScalar = true) : Quiet w (w.memberKey n).2 :=
  quiet_load h

theorem reached_findPlaceIn (r : Ready L loc w stack (.code .value Γ) []) (object : Value)
    {target : Node} (h : TargetFits Γ target) (hs : ScopeIn w Γ.activation scope) {use : PlaceUse}
    (hu : use.Fits w Γ) : Reached L (w.findPlaceIn stack object target scope use) := by
  unfold World.findPlaceIn
  split
  · have hquiet := quiet_memberKey (w := w) h.scalar
    exact reached_usePlace (r.quiet hquiet) _ (hu.mono hquiet.ext)
  · exact reached_evaluateChild (r.push (.placeKey hu)) (getElem?_of_forall h.parts 1) hs

/-! ### Callees -/

theorem reached_callMethod (r : Ready L loc w stack (.code .value Γ) []) (object key : Value)
    {rest : List Node} (h : Operands w Γ rest scope) :
    Reached L (w.callMethod stack object key rest scope) := by
  have hcalm := calm_getProperty (w := w) object key
  refine .perform hcalm r fun function r' => ?_
  refine .attempt (Heap.mild_text _ key) r' fun name => ?_
  exact reached_arguments r' _ [] (h.mono hcalm.quiet.ext)

theorem reached_findCallee (r : Ready L loc w stack (.code .value Γ) []) {callee : Node}
    (hc : Γ.Expression callee) {rest : List Node} (h : Operands w Γ rest scope) :
    Reached L (w.findCallee stack callee rest scope) := by
  unfold World.findCallee
  split
  · rename_i kind
    have htarget := hc.target (.inl kind)
    exact reached_evaluateChild (r.push (.calleeObject htarget h)) (getElem?_of_forall htarget.parts 0)
      h.scope
  · rename_i kind
    have htarget := hc.target (.inr kind)
    exact reached_evaluateChild (r.push (.calleeObject htarget h)) (getElem?_of_forall htarget.parts 0)
      h.scope
  · exact .evaluate (r.push (.calleeValue h)) hc h.scope

theorem reached_findMethod (r : Ready L loc w stack (.code .value Γ) []) (object : Value)
    {callee : Node} (hc : TargetFits Γ callee) {rest : List Node} (h : Operands w Γ rest scope) :
    Reached L (w.findMethod stack object callee rest scope) := by
  unfold World.findMethod
  split
  · have hquiet := quiet_memberKey (w := w) hc.scalar
    exact reached_callMethod (r.quiet hquiet) object _ (h.mono hquiet.ext)
  · exact reached_evaluateChild (r.push (.calleeKey h)) (getElem?_of_forall hc.parts 1) h.scope

theorem reached_read (r : Ready L loc w stack (.code .value Γ) []) (object key : Value) :
    Reached L (w.read stack object key) :=
  .perform (calm_getProperty object key) r fun v r' => .value r' rfl v

/-! ### Operators -/

theorem reached_give (r : Ready L loc w stack (.code .value Γ) []) {result : Conversion Value}
    (mild : Mild result) : Reached L (w.give stack result) :=
  .attempt mild r fun v => .value r rfl v

/-- An operand that may be missing. -/
theorem reached_evaluateOperand (r : Ready L loc w stack (.code .value Γ) []) {operand : Option Node}
    (h : Operands w Γ operand.toList scope) {f : Frame} (takes : f.Takes w Γ .value .value) :
    Reached L (w.evaluateOperand stack operand scope f) := by
  cases operand with
  | some n => exact .evaluate (r.pushValue takes) (h.each n (by simp)) h.scope
  | none => exact .fail r (Failure.clean_host _)

theorem reached_logical (r : Ready L loc w stack (.code .value Γ) []) (op : Text) (left : Value)
    {right : Option Node} (h : Operands w Γ right.toList scope) :
    Reached L (w.logical stack op left right scope) := by
  unfold World.logical
  refine .attempt ?_ r fun decided => ?_
  · exact .ite (left.mild_truthy.exceptMap _) (.ite left.mild_truthy (.ite (.ok _) (.ok _)))
  · split
    · exact .value r rfl _
    · cases right with
      | some n => exact .evaluate r (h.each n (by simp)) h.scope
      | none => exact .fail r (Failure.clean_host _)

theorem reached_unary (r : Ready L loc w stack (.code .value Γ) []) {n : Node}
    (h : Operands w Γ n.children scope) : Reached L (w.unary stack n scope) := by
  unfold World.unary
  split
  · exact .fail r (Failure.clean_host _)
  · rename_i operand rest children
    split
    · exact .value r rfl _
    · split
      · exact .fail r (Failure.clean_typeError _)
      · exact .evaluate (r.push .unaryOperand) (h.each operand (by simp [children])) h.scope

/-- What a value decides: it is true or not, or it fails to be either. -/
theorem reached_branch {form : Form} (r : Ready L loc w stack (.code form Γ) []) (v : Value)
    {yes no : World → Running} (hyes : Reached L (yes w)) (hno : Reached L (no w)) :
    Reached L (w.branch stack v yes no) := by
  refine .attempt v.mild_truthy r fun b => ?_
  cases b with
  | true => exact hyes
  | false => exact hno

/-! ### Whole expressions -/

/-- An operand at some position of an expression that has operands only. -/
theorem operands_get? {n : Node} (h : Operands w Γ n.children scope) (i : Nat) :
    Operands w Γ n.children[i]?.toList scope := by
  refine ⟨fun m hm => h.each m ?_, h.scope⟩
  rw [Option.mem_toList] at hm
  exact List.mem_of_getElem? hm

/-- An expression all of whose parts are operands. -/
theorem reached_operation (r : Ready L loc w stack (.code .value Γ) []) {n : Node}
    (own : Node.Allowed Γ.site.operand n) (kind : Node.isOperation n.kind = true)
    (parts : ∀ c ∈ n.children, Γ.Expression c) (hs : ScopeIn w Γ.activation scope) :
    Reached L (w.evaluate stack n scope) := by
  have h : Operands w Γ n.children scope := ⟨parts, hs⟩
  have child := fun {f : Frame} (takes : f.Takes w Γ .value .value) =>
    reached_evaluateChild (r.pushValue takes) (getElem?_of_forall parts 0) hs
  unfold World.evaluate
  generalize hk : n.kind = k at kind
  cases k with
  | template => exact reached_template r [] h
  | binary =>
    simp only
    split
    · rename_i left rest children
      rw [children] at h
      refine .evaluate (r.push (.binaryLeft ⟨fun m hm => h.each m ?_, hs⟩)) (h.each left (by simp)) hs
      rw [Option.mem_toList] at hm
      exact List.mem_cons_of_mem _ (List.mem_of_mem_head? hm)
    · exact .fail r (Failure.clean_host _)
  | logical => exact child (.logicalLeft (operands_get? h 1))
  | unary => exact reached_unary r h
  | call =>
    simp only
    split
    · rename_i callee rest children
      rw [children] at h
      exact reached_findCallee r (h.each callee (by simp)) h.tail
    · exact .fail r (Failure.clean_host _)
  | member =>
    have hquiet := quiet_memberKey (w := w) own.scalar
    exact reached_evaluateChild ((r.quiet hquiet).push .memberObject) (getElem?_of_forall parts 0)
      (hs.mono hquiet.ext)
  | index => exact child (.indexObject (operands_get? h 1))
  | array => exact reached_elements r [] h
  | new =>
    simp only
    split
    · rename_i callee rest children
      rw [children] at h
      exact reached_operand r h .newCallee
    · exact .fail r (Failure.clean_host _)
  | await => exact child (.awaitOperand (own.await hk))
  | yield =>
    simp only
    split
    · rename_i operand hoperand
      exact .evaluate (r.push (.yieldOperand (own.yield hk))) (parts operand (child?_eq_some hoperand).1)
        hs
    · exact .of_good (.yield r (own.yield hk)) fun _ _ => rfl
  | conditional => exact child (.conditionalTest h)
  | sequence => exact reached_sequence r h _
  | _ => simp [Node.isOperation] at kind

/-- An expression starts. -/
theorem reached_evaluate (r : Ready L loc w stack (.code .value Γ) []) {n : Node}
    (h : Γ.Expression n) (hs : ScopeIn w Γ.activation scope) :
    Reached L (w.evaluate stack n scope) := by
  cases h with
  | operation own kind parts => exact reached_operation r own kind parts hs
  | leaf own kind _ =>
    unfold World.evaluate
    rcases kind with kind | kind <;> simp only [kind]
    · exact .attempt (mild_lookup scope _) r fun v => .value r rfl v
    · exact .value (r.quiet (quiet_load own.scalar)) rfl _
  | assignment _ kind parts target =>
    unfold World.evaluate
    rcases kind with kind | kind <;> simp only [kind]
    · split
      · rename_i t rest children
        exact reached_findPlace r (parts t (by simp [children])) (target t (by simp [children])) hs
          trivial
      · exact .fail r (Failure.clean_host _)
    · split
      · rename_i t right children
        exact reached_findPlace r (parts t (by simp [children])) (target t (by simp [children])) hs
          ⟨parts right (by simp [children]), hs⟩
      · exact .fail r (Failure.clean_host _)
  | object _ kind parts =>
    unfold World.evaluate
    simp only [kind]
    have hquiet : Quiet w { w with heap := (w.heap.newObject {}).2 } := quiet_heap rfl
    exact reached_properties (r.quiet hquiet) _ parts (hs.mono hquiet.ext)
  | functionExpression own kind params body =>
    unfold World.evaluate
    simp only [kind]
    have hfits : FunctionFits _ := ⟨params, body, own.sort (by rw [kind]; rfl)⟩
    exact .perform (calm_makeFunction hfits scope) r fun v r' => .value r' rfl v

end Expression

end ScopeExit.Script
