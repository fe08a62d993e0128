import ScopeExit.Proofs.Script.Draining
import ScopeExit.Proofs.Script.Moving
/-!
Calls keep the machine good.

A call puts the code of a new activation on top of the running code, between the mark of its end and a
boundary.  Which boundary it is depends on the sort of the function, and it is the one that the check
has assumed for the code of the function: what may suspend finds a boundary that knows what to do.
-/
namespace ScopeExit.Script

open World

/-! ### Nodes -/

namespace Region

variable {Γ : Region} {n : Node}

/-- What may be missing is an expression if it is not. -/
theorem Part.expression [Node.Strays] (h : Γ.Part n) (hn : n.isEmpty = false) : Γ.Expression n := by
  cases h with
  | noPart _ kind _ =>
    rw [Node.isEmpty, kind] at hn
    contradiction
  | part inside => exact inside

end Region

theorem child?_get {n c : Node} {i : Nat} (h : n.child? i = some c) :
    n.children[i]? = some c ∧ c.isEmpty = false := by
  unfold Node.child? at h
  split at h
  · rename_i d hd
    split at h
    · contradiction
    · rename_i he
      rw [← Option.some.inj h]
      exact ⟨hd, by simpa using he⟩
  · contradiction

theorem child?_eq_some {n c : Node} {i : Nat} (h : n.child? i = some c) :
    c ∈ n.children ∧ c.isEmpty = false :=
  ⟨List.mem_of_getElem? (child?_get h).1, (child?_get h).2⟩

/-- An expression is no block. -/
theorem expression_kind {P : Node.Site → Node → Prop} {s : Node.Site} {n : Node}
    (h : Node.Shaped P .expression s n) : n.kind ≠ .block := by
  intro hk
  cases h with
  | leaf _ kind _ => rcases kind with kind | kind <;> simp [kind] at hk
  | operation _ kind _ => simp [hk, Node.isOperation] at kind
  | assignment _ kind _ _ => rcases kind with kind | kind <;> simp [kind] at hk
  | object _ kind _ | functionExpression _ kind _ _ => simp [kind] at hk

/-- A place for a function without parameters may be empty. -/
theorem closure_known (w : World) {closure : Nat}
    (h : (w.heap.closure closure).params ≠ [] ∨ (w.heap.closure closure).isGenerator = true) :
    closure < w.heap.closures.size := by
  by_cases hlt : closure < w.heap.closures.size
  · exact hlt
  · rw [Heap.closure, Array.getD_eq_getD_getElem?,
      Array.getElem?_eq_none (Nat.le_of_not_lt hlt), Option.getD_none] at h
    simp at h

section Call

variable [Node.Strays] {L : Ledger} {loc : Nat → Host} {w : World} {stack : Stack} {p p' : Port} {Γ : Region}
  {above : List Mark}

/-- One more frame that leads from another port. -/
theorem Ready.through (r : Ready L loc w stack p above) {f : Frame}
    (leads : ∀ marks, Spans w p stack marks .bottom → Spans w p' (f :: stack) marks .bottom) :
    Ready L loc w (f :: stack) p' above := by
  obtain ⟨marks, spans, hosted⟩ := r.path
  exact ⟨r.sys, r.awake, marks, leads marks spans, hosted⟩

/-! ### Function bodies -/

/-- Every place for a function holds one whose parts stand where they may. -/
theorem Sys.closure (sys : Sys L loc w) (closure : Nat) : ClosureFits (w.heap.closure closure) := by
  by_cases h : closure < w.heap.closures.size
  · refine sys.closures _ ?_
    rw [Heap.closure, Array.getD_eq_getD_getElem?, Array.getElem?_eq_getElem h, Option.getD_some]
    exact Array.getElem_mem h
  · have hnone : w.heap.closure closure = { name := "", body := { kind := .literal } } := by
      rw [Heap.closure, Array.getD_eq_getD_getElem?,
        Array.getElem?_eq_none (Nat.le_of_not_lt h), Option.getD_none]
    rw [hnone]
    refine ⟨by simp, .valueBody (.leaf ?_ (.inr rfl) rfl), rfl⟩
    exact ⟨rfl, by simp, by simp, by simp, by simp, by simp, by simp [NodeKind.isFunction],
      by simp [Node.jump?]⟩

/-- The body of a function whose parameters are bound. -/
theorem reached_enterBody (r : Ready L loc w stack (.code .value Γ) [])
    (free : Γ.targets = none) {body : Node} (h : Node.Shaped Node.Allowed .body (.within Γ.context body) body) {scope : Nat}
    (hs : ScopeIn w Γ.activation scope) : Reached L (w.enterBody stack body scope) := by
  unfold World.enterBody
  cases h with
  | blockBody _ kind parts =>
    have hsite : (Node.Site.within Γ.context body).inFrame = Γ.inFrame.site := by
      rw [Node.Site.within, kind, Region.site, show Γ.inFrame.targets = none from free]
      rfl
    rw [hsite] at parts
    rw [if_pos kind]
    exact reached_enterFrame (r.push .functionEnd) hs _ _ parts (Region.completes_normal _)
  | valueBody inside =>
    have hkind := expression_kind inside
    have hsite : (Node.Site.within Γ.context body).AtMost Γ.site.operand :=
      ⟨id, by simp [Node.Site.within, hkind], id, rfl⟩
    rw [if_neg hkind]
    exact .evaluate r (inside.mono hsite) hs

/-- The parameters are bound one by one, and defaults are evaluated in between. -/
theorem reached_bindParameters {closure scope : Nat} {rest : List Node} {arguments : List Value}
    (r : Ready L loc w stack (.code .value Γ) [])
    (region : Γ = .outside Γ.activation (w.heap.closure closure).context)
    (h : Parameters w closure Γ.activation rest scope) :
    Reached L (w.bindParameters stack closure scope rest arguments) := by
  induction rest generalizing w arguments with
  | nil =>
    have hbody := (r.sys.closure closure).body
    have hcontext : Γ.context = (w.heap.closure closure).context := by rw [region]; rfl
    rw [← hcontext] at hbody
    exact reached_enterBody r (by rw [region]; rfl) hbody h.scope
  | cons param rest ih =>
    have hknown := h.known (by simp)
    have hrest : Parameters w closure Γ.activation rest scope :=
      ⟨fun q hq => h.each q (List.mem_cons_of_mem _ hq), fun _ => hknown, h.scope⟩
    have hbind : ∀ value, Reached L ((w.bind scope param.name value).bindParameters stack closure
        scope rest (arguments.drop 1)) := by
      intro value
      have hquiet := quiet_bind (w := w) scope param.name value
      exact ih (r.quiet hquiet) region (hrest.mono hquiet.ext)
    unfold World.bindParameters
    split
    · rename_i byDefault hdefault
      obtain ⟨hmem, hsome⟩ := child?_eq_some hdefault
      by_cases hmissing : (arguments.headD .undefined).isUndefined = true
      · simp only [hmissing, if_true]
        have hparam := h.each param (by simp)
        cases hparam with
        | param _ kind parts =>
          have hpart : Γ.Part byDefault := by
            have hsite : (Node.Site.within (w.heap.closure closure).context param).operand =
                Γ.site.operand := by
              rw [Node.Site.within, kind, region]
              rfl
            rw [Region.Part, ← hsite]
            exact parts byDefault hmem
          exact .evaluate (r.push (.parameter region hknown hrest)) (hpart.expression hsome) h.scope
      · simp only [hmissing]
        exact hbind _
    · exact hbind _

/-- The code of an activation starts. -/
theorem reached_startBody {closure a : Nat}
    (r : Ready L loc w stack (.ended (w.heap.closure closure).context .value) [.ends a])
    (async : (w.heap.closure closure).context.isAsync = true → (w.activation a).isAsync = true)
    (known : (w.heap.closure closure).params ≠ [] → closure < w.heap.closures.size)
    (arguments : List Value) : Reached L (w.startBody stack closure a arguments) := by
  obtain ⟨marks, spans, hosted⟩ := r.path
  have hquiet := quiet_addScope (w := w)
    { parent := some (w.heap.closure closure).scope, activation := some a, isFunction := true }
  have hscope := scopeIn_addScope (w := w)
    { parent := some (w.heap.closure closure).scope, activation := some a, isFunction := true } rfl
  have hready : Ready L loc w (.activationEnd a :: stack)
      (.code .value (.outside a (w.heap.closure closure).context)) [] :=
    ⟨r.sys, r.awake, _, .activationEnd (by simp) async spans, hosted⟩
  exact reached_bindParameters (hready.quiet hquiet) rfl
    ⟨(r.sys.closure closure).params, known, hscope⟩

/-! ### Generators -/

/-- A generator that runs no more code answers at once. -/
theorem reached_finished (r : Ready L loc w stack (.code .step Γ) []) (mode : ResumeMode)
    (value : Value) : Reached L (resume.finished stack mode value w) := by
  unfold resume.finished
  cases mode with
  | next => exact .resumed r _ _
  | «return» => exact .resumed r _ _
  | throw => exact .fail r (w.heap.clean_thrown value)

/-- The resumption of a generator. -/
theorem reached_resume (r : Ready L loc w stack (.code .step Γ) []) (g : Nat) (mode : ResumeMode)
    (value : Value) : Reached L (w.resume stack g mode value) := by
  have hstate := r.sys.generators g
  unfold World.resume
  generalize hg : w.generator g = state at hstate
  cases hstate with
  | running => exact .fail r (Failure.clean_typeError _)
  | done => exact reached_finished r mode value
  | @fresh closure arguments a known sort hosted =>
    by_cases hmode : mode = .next
    · simp only [hmode, if_true]
      have hready : Ready L (move (.generator g) .running loc) (w.setGenerator g .running)
          (.generatorBoundary g :: stack) (.ended ⟨false, true⟩ .value) [.ends a] :=
        (r.woken hosted).through fun _ spans => .generator spans
      rw [← sort] at hready
      refine reached_startBody hready (fun h => ?_) (fun _ => known) arguments
      rw [show (w.setGenerator g .running).heap.closure closure = w.heap.closure closure from rfl,
        sort] at h
      contradiction
    · simp only [hmode, if_false]
      exact reached_finished (r.setGenerator fun _ _ _ => .done) mode value
  | @suspended Γ' code marks sort isOpen segment spans hosted =>
    have hready : Ready L (move (.generator g) .running loc) (w.setGenerator g .running)
        (code ++ .generatorBoundary g :: stack) (.code .value Γ') [] := by
      obtain ⟨marks', spans', hosted'⟩ := (r.woken hosted).path
      refine ⟨(r.woken hosted).sys, r.awake, _, ?_, hosted'⟩
      exact (spans.mono (extends_setGenerator w g .running)).append (.generator spans')
    cases mode with
    | next => exact .value hready rfl value
    | «return» =>
      have permits : Γ'.permits = ⟨false, true⟩ := by simp [Region.permits, sort, isOpen]
      exact .raise hready (.inr ⟨permits, value, rfl⟩)
    | throw =>
      have hmild := w.heap.mild_describe value
      simp only
      generalize w.heap.describe value = text at hmild
      cases text with
      | ok _ => exact .fail hready (Failure.clean_single rfl)
      | error f => exact .fail (r.setGenerator fun _ _ _ => .done) (hmild.clean rfl)

/-! ### Built-in functions -/

/-- Built-in functions that make a task. -/
theorem reached_timed (r : Ready L loc w stack (.code .value Γ) []) {seconds : Conversion Float}
    (mild : Mild seconds) :
    Reached L (perform stack (w.change seconds nap) fun w v => ⟨w, .value v, stack⟩) := by
  cases seconds with
  | error f => exact .fail r (mild.clean rfl)
  | ok s =>
    obtain ⟨loc', r'⟩ := r.napped s
    exact .value r' rfl _

theorem reached_callNative (r : Ready L loc w stack (.code .value Γ) []) (n : Native)
    (arguments : List Value) : Reached L (w.callNative stack n arguments) := by
  have calm : isTimed n.builtin = false → Reached L (perform stack (w.apply n.builtin arguments)
      fun w v => ⟨w, .value v, stack⟩) := fun h =>
    .perform (calm_apply n.builtin h arguments) r fun v r' => .value r' rfl v
  obtain ⟨id, builtin⟩ := n
  cases builtin with
  | resume g mode => exact reached_resume (r.push .iterationResult) g mode _
  | tick => exact reached_timed r (.ok _)
  | sleep => exact reached_timed r (mild_sleepSeconds arguments)
  | _ => exact calm rfl

/-! ### Calls -/

/-- A script function is called. -/
theorem reached_callClosure (r : Ready L loc w stack (.code .value Γ) []) (closure : Nat)
    (arguments : List Value) : Reached L (w.callClosure stack closure arguments) := by
  unfold World.callClosure
  split
  · exact .fail r (Failure.clean_single rfl)
  · obtain ⟨c, hc⟩ : ∃ c, c = w.heap.closure closure := ⟨_, rfl⟩
    have hsort := (r.sys.closure closure).sort
    rw [← hc] at hsort ⊢
    cases hgenerator : c.isGenerator with
    | true =>
      have hasync : c.isAsync = false := by simpa [hgenerator] using hsort
      have hknown : closure < w.heap.closures.size :=
        closure_known w (.inr (by rw [← hc]; exact hgenerator))
      have hready := r.newGenerator hknown (by rw [← hc, Closure.context, hasync, hgenerator])
        arguments c.name c.isAsync c.name
      simp only [hgenerator, if_true]
      exact .value hready rfl _
    | false =>
      simp only [hgenerator, Bool.false_eq_true, if_false]
      have hquiet : Quiet (w.newActivation c.name c.isAsync).2
          { (w.newActivation c.name c.isAsync).2 with
            depth := (w.newActivation c.name c.isAsync).2.depth + 1 } :=
        .same rfl rfl rfl rfl rfl rfl rfl
      have hready := ((r.new c.name c.isAsync).through fun _ spans => Spans.callEnd spans).quiet hquiet
      have hcontext : (w.heap.closure closure).context = ⟨c.isAsync, false⟩ := by
        rw [← hc, Closure.context, hgenerator]
      have hboundary : ∀ isAsync : Bool, Ready L (place w.activations.size .running loc)
          { (w.newActivation c.name c.isAsync).2 with
            depth := (w.newActivation c.name c.isAsync).2.depth + 1 }
          ((if isAsync then Frame.asyncStart else .syncBoundary) :: .callEnd :: stack)
          (.ended ⟨isAsync, false⟩ .value) [.ends w.activations.size] := by
        intro isAsync
        cases isAsync with
        | true => exact hready.through fun _ spans => .asyncCall spans
        | false => exact hready.through fun _ spans => .syncCall spans
      have hstart := hboundary c.isAsync
      rw [← hcontext] at hstart
      refine reached_startBody hstart (fun h => ?_)
        (fun h => closure_known w (.inl h)) arguments
      have hasync : c.isAsync = true := by
        rw [hc]
        exact h
      exact (isAsync_newActivation w c.name c.isAsync).trans hasync

/-- A value is called. -/
theorem reached_call (r : Ready L loc w stack (.code .value Γ) []) (callee : Callee)
    (arguments : List Value) : Reached L (w.call stack callee arguments) := by
  unfold World.call
  split
  · exact reached_callNative r _ arguments
  · exact reached_callClosure r _ arguments
  · refine .attempt (.ite (w.heap.mild_text _) (.pure _)) r fun name => ?_
    exact .fail r (Failure.clean_typeError _)

/-- A value is constructed. -/
theorem reached_construct (r : Ready L loc w stack (.code .value Γ) []) (constructor : Value)
    (arguments : List Value) : Reached L (w.construct stack constructor arguments) := by
  have refused : Reached L (w.attempt stack (w.heap.text constructor) fun w name =>
      ⟨w, .raise (.typeError (name ++ " is not a constructor")), stack⟩) :=
    .attempt (w.heap.mild_text _) r fun name => .fail r (Failure.clean_typeError _)
  unfold World.construct
  split
  · split
    · exact reached_callNative r _ arguments
    · exact refused
  · exact refused

end Call

end ScopeExit.Script
