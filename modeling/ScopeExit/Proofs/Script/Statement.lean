import ScopeExit.Proofs.Script.Call
/-!
Statements keep the machine good.

The first step of a statement follows the grammar: a part that is run stands where the check has seen
it, and the frame that is left behind takes the outcome of that part.  The body of a deferred action is
executed like any other statement, except that it cannot be a deferred action itself.  Loops, switches
and labels take the jumps that are aimed at them, so that what comes out of them may arrive at the place
where they stand.
-/
namespace ScopeExit.Script

open World

/-! ### Jumps -/

section Jumps

variable {reason reason' : ExitReason}

theorem cleanReason_afterPass {labels : List Text} (clean : CleanReason reason)
    (e : afterPass reason labels = some reason') : CleanReason reason' := by
  have same : some reason = some reason' → CleanReason reason' := fun e => Option.some.inj e ▸ clean
  unfold afterPass at e
  split at e
  · contradiction
  · contradiction
  · split at e
    · contradiction
    · exact same e
  · split at e
    · rw [← Option.some.inj e]
      exact cleanReason_of_error?_eq_none rfl
    · exact same e
  · exact same e

theorem cleanReason_afterSwitch (clean : CleanReason reason) (labels : List Text) :
    CleanReason (afterSwitch reason labels) := by
  unfold afterSwitch
  split
  · exact cleanReason_of_error?_eq_none rfl
  · exact clean

theorem cleanReason_afterLabeled (clean : CleanReason reason) (labels : List (Option Text)) :
    CleanReason (afterLabeled reason labels) := by
  unfold afterLabeled
  split
  · exact cleanReason_of_error?_eq_none rfl
  · exact clean

variable [Node.Strays] {Γ : Region} {t : Node.Targets} {labels : List Text}

/-- A jump that a loop lets pass is met further out. -/
theorem admits_afterPass (h : (t.looped labels).Admits reason)
    (e : afterPass reason labels = some reason') : t.Admits reason' := by
  cases reason with
  | normal | iterationEnd => contradiction
  | returning => exact h.elim
  | throwing => exact Option.some.inj e ▸ trivial
  | breaking label =>
    change (if (ExitReason.breaking label).targets labels = true then some .normal
      else some (.breaking label)) = some reason' at e
    split at e <;> rw [← Option.some.inj e]
    · trivial
    · rename_i hl
      cases label with
      | none => exact absurd rfl hl
      | some l => exact h
  | continuing label =>
    change (if (ExitReason.continuing label).targets labels = true then none
      else some (.continuing label)) = some reason' at e
    split at e
    · contradiction
    · rename_i hl
      rw [← Option.some.inj e]
      cases label with
      | none => exact absurd rfl hl
      | some l =>
        refine h.imp_left fun h => ?_
        rcases List.mem_append.mp h with h | h
        · exact absurd (List.contains_iff_mem.mpr h) hl
        · exact h

/-- A jump that a switch lets pass is met further out. -/
theorem admits_afterSwitch (h : t.switched.Admits reason) (labels : List Text) :
    t.Admits (afterSwitch reason labels) := by
  unfold afterSwitch
  split
  · trivial
  · rename_i hbreak
    cases reason with
    | breaking label =>
      cases label with
      | none => exact absurd rfl hbreak
      | some l => exact h
    | continuing label => cases label <;> exact h
    | _ => exact h

/-- A jump that labels let pass is met further out. -/
theorem admits_afterLabeled {labels : List (Option Text)}
    (h : (t.behind (labels.filterMap id)).Admits reason) : t.Admits (afterLabeled reason labels) := by
  unfold afterLabeled
  split
  · trivial
  · rename_i hbreak
    cases reason with
    | breaking label =>
      cases label with
      | none => exact h
      | some l =>
        rcases List.mem_append.mp h with h | h
        · simp [ExitReason.kind, ExitReason.label?] at hbreak h
          exact absurd h hbreak
        · exact h
    | continuing label => cases label <;> exact h
    | _ => exact h

/-- What loops, switches and labels let pass may complete further out. -/
theorem Region.Completes.pass {around : Node.Targets → Node.Targets}
    (h : ({ Γ with targets := Γ.targets.map around } : Region).Completes reason)
    (clean : CleanReason reason')
    (admits : ∀ t : Node.Targets, (around t).Admits reason → t.Admits reason') :
    Γ.Completes reason' :=
  ⟨clean, fun t ht => admits t (h.admits (around t) (Option.map_eq_some_iff.mpr ⟨t, ht, rfl⟩))⟩

theorem Region.Completes.afterPass (h : (Γ.looped labels).Completes reason)
    (e : afterPass reason labels = some reason') : Γ.Completes reason' :=
  h.pass (cleanReason_afterPass h.clean e) fun _ ht => admits_afterPass ht e

theorem Region.Completes.afterSwitch (h : Γ.switched.Completes reason) (labels : List Text) :
    Γ.Completes (afterSwitch reason labels) :=
  h.pass (cleanReason_afterSwitch h.clean labels) fun _ ht => admits_afterSwitch ht labels

theorem Region.Completes.afterLabeled {labels : List (Option Text)}
    (h : (Γ.behind (labels.filterMap id)).Completes reason) :
    Γ.Completes (afterLabeled reason labels) :=
  h.pass (cleanReason_afterLabeled h.clean labels) fun _ => admits_afterLabeled

end Jumps

/-! ### Parts -/

/-- The first of some parts. -/
theorem getElem?_zero_of_cons {node first : Node} {rest : List Node}
    (children : node.children = first :: rest) {P : Node → Prop} (h : P first) :
    ∀ c, node.children[0]? = some c → P c := by
  intro c hc
  rw [children, List.getElem?_cons_zero] at hc
  rw [← Option.some.inj hc]
  exact h

theorem getElem?_of_forall {node : Node} {P : Node → Prop} (h : ∀ c ∈ node.children, P c) (i : Nat) :
    ∀ c, node.children[i]? = some c → P c := fun c hc => h c (List.mem_of_getElem? hc)

/-- One more statement is counted. -/
def counting (w : World) : World :=
  { w with stats := { w.stats with statements := w.stats.statements + 1 } }

/-- Only a deferred action is registered. -/
theorem registers?_eq_none {w : World} {stack : Stack} {n : Node} {scope : Nat} (plain : n.kind ≠ .defer) (a id : Nat) :
    Running.registers? ⟨w, .execute n scope, stack⟩ a id = none := by
  simp [Running.registers?, plain]

section Statement

variable [Node.Strays] {L : Ledger} {loc : Nat → Host} {w : World} {stack : Stack} {p : Port}
  {Γ : Region}

theorem reached_evaluateChild {node : Node} {i : Nat} {scope : Nat}
    (r : Ready L loc w stack (.code .value Γ) [])
    (h : ∀ c, node.children[i]? = some c → Γ.Expression c) (hs : ScopeIn w Γ.activation scope) :
    Reached L (w.evaluateChild stack node i scope) := by
  unfold World.evaluateChild
  split
  · rename_i c hc
    exact .evaluate r (h c hc) hs
  · exact .fail r (Failure.clean_host _)

theorem reached_executeChild {node : Node} {i : Nat} {scope : Nat}
    (r : Ready L loc w stack (.code .completion Γ) [])
    (h : ∀ c, node.children[i]? = some c → Γ.Statement c) (hs : ScopeIn w Γ.activation scope) :
    Reached L (w.executeChild stack node i scope) := by
  unfold World.executeChild
  split
  · rename_i c hc
    exact .execute r (h c hc) hs
  · exact .fail r (Failure.clean_host _)

/-! ### Declarations -/

theorem reached_declare {kind : Text} {scope target : Nat} {rest : List Node}
    (r : Ready L loc w stack (.code .completion Γ) []) (h : ∀ d ∈ rest, Γ.Declarator d)
    (hs : ScopeIn w Γ.activation scope) : Reached L (declare stack kind scope target w rest) := by
  induction rest generalizing w with
  | nil => exact .complete r rfl (Region.completes_normal _)
  | cons d rest ih =>
    have hrest : ∀ d ∈ rest, Γ.Declarator d := fun e he => h e (List.mem_cons_of_mem _ he)
    unfold World.declare
    split
    · rename_i first hfirst
      obtain ⟨hmem, hsome⟩ := child?_eq_some hfirst
      cases h d (by simp) with
      | declarator _ _ parts =>
        have hfirst : Γ.Part first := parts first hmem
        exact .evaluate (r.push (.declare hrest hs)) (hfirst.expression hsome) hs
    · split
      · exact ih r hrest hs
      · have hquiet := quiet_define (w := w) kind d.name target .undefined
        exact ih (r.quiet hquiet) hrest (hs.mono hquiet.ext)

/-! ### Loops -/

/-- The statements of a block. -/
theorem block_statements {body : Node} (h : Γ.inFrame.Statement body) :
    ∀ c ∈ (if body.kind = .block then body.children else [body]), Γ.inFrame.Statement c := by
  by_cases hk : body.kind = .block
  · rw [if_pos hk]
    cases h with
    | block _ _ parts => exact parts
    | jump _ kind _ => rcases kind with kind | kind | kind <;> simp [hk] at kind
    | simple _ kind _ => rcases kind with kind | kind | kind <;> simp [hk] at kind
    | _ => simp_all
  · rw [if_neg hk]
    simpa using h

/-- One pass of a loop. -/
theorem reached_runPass {labels : List Text}
    (r : Ready L loc w stack (.code .completion (Γ.looped labels)) []) {body : Node}
    (h : (Γ.looped labels).inFrame.Statement body) {scope : Nat} (hs : ScopeIn w Γ.activation scope) :
    Reached L (w.runPass stack body scope) :=
  reached_enterFrame (r.quiet (quiet_childScope scope)) hs.child _ _ (block_statements h)
    (Γ.completes_iterationEnd labels)

theorem reached_afterPassThen (r : Ready L loc w stack (.code .completion Γ) [])
    {reason : ExitReason} {labels : List Text} (completes : (Γ.looped labels).Completes reason)
    {again : World → Running} (h : Reached L (again w)) : Reached L (w.afterPassThen stack reason labels again) := by
  unfold World.afterPassThen
  split
  · exact h
  · rename_i reason' e
    exact .complete r rfl (completes.afterPass e)

theorem reached_testWhile (r : Ready L loc w stack (.code .completion Γ) []) {loop : PlainLoop}
    (h : loop.Fits w Γ) : Reached L (w.testWhile stack loop) :=
  .evaluate (r.push (.whileCondition h)) h.condition h.scope

theorem reached_testFor (r : Ready L loc w stack (.code .completion Γ) []) {loop : CountingLoop}
    (h : loop.Fits Γ) {scope : Nat} (hs : ScopeIn w Γ.activation scope) :
    Reached L (w.testFor stack loop scope) := by
  unfold World.testFor
  split
  · exact reached_runPass (r.push (.forPass h hs)) h.body hs
  · rename_i hc
    exact .evaluate (r.push (.forCondition h hs)) (h.condition.expression (by simpa using hc)) hs

theorem reached_startFor (r : Ready L loc w stack (.code .completion Γ) []) {loop : CountingLoop}
    (h : loop.Fits Γ) {scope : Nat} (hs : ScopeIn w Γ.activation scope) :
    Reached L (w.startFor stack loop scope) :=
  reached_testFor (r.quiet (quiet_copyScope loop scope)) h (hs.copy loop)

theorem reached_stepFor (r : Ready L loc w stack (.code .completion Γ) []) {loop : CountingLoop}
    (h : loop.Fits Γ) {scope : Nat} (hs : ScopeIn w Γ.activation scope) :
    Reached L (w.stepFor stack loop scope) := by
  have r' := r.quiet (quiet_copyScope loop scope)
  have hs' := hs.copy loop
  unfold World.stepFor
  simp only
  split
  · exact reached_testFor r' h hs'
  · rename_i hc
    exact .evaluate (r'.push (.forStep h hs')) (h.step.expression (by simpa using hc)) hs'

/-! ### Loops over elements -/

theorem reached_runElement (r : Ready L loc w stack (.code .completion Γ) []) {loop : ElementLoop}
    (h : loop.Fits w Γ) (value : Value) : Reached L (w.runElement stack loop value) := by
  have hquiet := (quiet_childScope (w := w) loop.scope).trans
    (quiet_bind (w.childScope loop.scope).1 loop.name value)
  have hscope := h.scope.child.mono (quiet_bind (w.childScope loop.scope).1 loop.name value).ext
  exact reached_runPass ((r.quiet hquiet).push (.forOfPass (h.mono hquiet.ext))) h.body hscope

theorem reached_runFound (r : Ready L loc w stack (.code .completion Γ) []) {loop : ElementLoop}
    (h : loop.Fits w Γ) (value? : Option Value) : Reached L (w.runFound stack loop value?) := by
  cases value? with
  | some value =>
    have hnext : ElementLoop.Fits w Γ { loop with position := loop.position + 1 } :=
      ⟨h.body, h.scope⟩
    exact reached_runElement r hnext value
  | none => exact .complete r rfl (Region.completes_normal _)

theorem reached_nextElement (r : Ready L loc w stack (.code .completion Γ) []) {loop : ElementLoop}
    (h : loop.Fits w Γ) : Reached L (w.nextElement stack loop) := by
  unfold World.nextElement
  split
  · exact reached_runFound r h _
  · exact reached_runFound r h _
  · exact reached_resume (r.push (.forOfNext h)) _ _ _
  · exact .attempt (w.heap.mild_text _) r fun name => .fail r (Failure.clean_typeError _)

theorem reached_startForOf (r : Ready L loc w stack (.code .completion Γ) [])
    {node iterable body : Node} (children : node.children = [iterable, body])
    {labels : List Text} (h : (Γ.looped labels).inFrame.Statement body) {scope : Nat}
    (hs : ScopeIn w Γ.activation scope) (subject : Value) :
    Reached L (w.startForOf stack node scope labels subject) := by
  unfold World.startForOf
  simp only [children, List.getElem?_cons_succ, List.getElem?_cons_zero]
  exact reached_nextElement r ⟨h, hs⟩

theorem reached_leaveForOf (r : Ready L loc w stack (.code .completion Γ) []) (loop : ElementLoop)
    {reason : ExitReason} (completes : Γ.Completes reason) :
    Reached L (w.leaveForOf stack loop reason) := by
  unfold World.leaveForOf
  split
  · exact reached_resume (r.push (.forOfClose completes)) _ _ _
  · exact .complete r rfl completes

theorem reached_abandonForOf (r : Ready L loc w stack (.code .completion Γ) []) (loop : ElementLoop)
    {failure : Failure} (passes : (Port.code .completion Γ).Passes failure) :
    Reached L (w.abandonForOf stack loop failure) := by
  unfold World.abandonForOf
  split
  · split
    · rename_i he
      exact reached_resume (r.push (.forOfAbort (passes.clean he))) _ _ _
    · exact .raise r passes
  · exact .raise r passes

/-! ### Switches -/

theorem clause_statements {clause : Node} (h : Γ.Clause clause) :
    ∀ s ∈ clauseStatements clause, Γ.Statement s := by
  unfold clauseStatements
  cases h with
  | case _ kind children _ parts =>
    rw [if_pos kind, children]
    exact parts
  | default _ kind parts =>
    rw [if_neg (by simp [kind])]
    exact parts

theorem clauses_statements {clauses : List Node} (h : ∀ c ∈ clauses, Γ.Clause c) :
    ∀ s ∈ clausesStatements clauses, Γ.Statement s := by
  intro s hs
  obtain ⟨c, hc, hs⟩ := List.mem_flatMap.mp hs
  exact clause_statements (h c hc) s hs

theorem reached_testClauses (r : Ready L loc w stack (.code .completion Γ) []) (subject : Value)
    {scope : Nat} (hs : ScopeIn w Γ.activation scope) {fallback : Option (List Node)}
    {clauses : List Node} (hf : ∀ cs ∈ fallback, ∀ c ∈ cs, Γ.Clause c)
    (h : ∀ c ∈ clauses, Γ.Clause c) :
    Reached L (w.testClauses stack subject scope fallback clauses) := by
  induction clauses generalizing fallback with
  | nil =>
    have hstatements : ∀ s ∈ clausesStatements (fallback.getD []), Γ.Statement s := by
      refine clauses_statements ?_
      cases fallback with
      | none => simp
      | some cs => exact hf cs rfl
    exact .complete (r.push (.statements ⟨hstatements, hs⟩)) rfl (Region.completes_normal _)
  | cons clause rest ih =>
    unfold World.testClauses
    split
    · refine ih ?_ fun c hc => h c (List.mem_cons_of_mem _ hc)
      intro cs hcs
      rw [← Option.some.inj hcs]
      exact h
    · rename_i hk
      refine reached_evaluateChild (r.push (.switchTest h hf hs)) ?_ hs
      cases h clause (by simp) with
      | case _ _ children label _ => exact getElem?_zero_of_cons children label
      | default _ kind _ => exact absurd kind hk

theorem reached_runSwitch (r : Ready L loc w stack (.code .completion Γ) []) {node subject : Node}
    {clauses : List Node} (children : node.children = subject :: clauses)
    (h : ∀ c ∈ clauses, Γ.switched.inFrame.Clause c) {scope : Nat}
    (hs : ScopeIn w Γ.activation scope) (labels : List Text) (value : Value) :
    Reached L (w.runSwitch stack node scope labels value) := by
  have hclauses : node.children.drop 1 = clauses := by rw [children]; rfl
  unfold World.runSwitch
  rw [hclauses]
  refine reached_openFrame ((r.quiet (quiet_childScope scope)).push .switchEnd) hs.child _ _
    (clauses_statements h) (Region.completes_normal _) fun w' stack' hs' r' => ?_
  exact reached_testClauses r' value hs' (by simp) h

/-! ### Attempts -/

theorem reached_finish (r : Ready L loc w stack (.code .completion Γ) []) {finalizer : Node}
    (h : Γ.Statement finalizer) {scope : Nat} (hs : ScopeIn w Γ.activation scope)
    {reason : ExitReason} (completes : Γ.Completes reason) :
    Reached L (w.finish stack finalizer scope reason) := by
  unfold World.finish
  split
  · exact reached_complete r completes
  · exact .execute (r.push (.finallyBody completes)) h hs

theorem reached_handle (r : Ready L loc w stack (.code .completion Γ) []) {handler finalizer : Node}
    (hh : Γ.Handler handler) (hf : Γ.Statement finalizer) {scope : Nat}
    (hs : ScopeIn w Γ.activation scope) {failure : Failure} (clean : failure.Clean) :
    Reached L (w.handle stack handler finalizer scope failure) := by
  unfold World.handle
  split
  · exact reached_finish r hf hs (Γ.completes_throwing clean)
  · rename_i hsome
    cases hh with
    | noHandler _ kind _ => simp [Node.isEmpty, kind] at hsome
    | handler _ _ children inside =>
      have hchild := quiet_childScope (w := w) scope
      have hvalue : Quiet (w.childScope scope).2
          { (w.childScope scope).2 with
            heap := ((w.childScope scope).2.heap.failureValue failure).2 } :=
        quiet_heap (failureValue_closures failure _)
      simp only
      split
      · exact reached_executeChild ((r.quiet hchild).push (.catchBody hf (hs.mono hchild.ext)))
          (getElem?_zero_of_cons children inside) hs.child
      · have hquiet := hvalue.trans (quiet_bind (w.childScope scope).1 handler.name
          ((w.childScope scope).2.heap.failureValue failure).1)
        have r' := (r.quiet hchild).quiet hquiet
        exact reached_executeChild
          (r'.push (.catchBody hf ((hs.mono hchild.ext).mono hquiet.ext)))
          (getElem?_zero_of_cons children inside) (hs.child.mono hquiet.ext)

/-! ### Loops and switches behind labels -/

/-- The start of a `for` loop is executed outside the frames of its passes. -/
theorem start_statement {first : Node}
    (h : Node.Shaped Node.Allowed .statement Γ.site.operand first)
    (start : Node.isStart first.kind = true) : Γ.Statement first := by
  have hallowed : Node.Allowed Γ.site first := by
    have own := h.own
    have hdefer : first.kind ≠ .defer := by
      intro hk
      rw [hk] at start
      contradiction
    have hjump : first.jump? = none := by
      unfold Node.jump?
      split <;> simp_all [Node.isStart]
    exact ⟨own.scalar, own.await, own.yield, fun hk => absurd hk hdefer, fun hk => absurd hk hdefer,
      fun hk => absurd hk hdefer, own.sort, by simp [hjump]⟩
  cases h with
  | jump _ kind leaf => exact .jump hallowed kind leaf
  | simple _ kind parts => exact .simple hallowed kind parts
  | declaration _ kind parts => exact .declaration hallowed kind parts
  | _ => simp_all [Node.isStart]

/-- The body of a loop with labels in front of it. -/
theorem looped_statement {n body : Node} {labels : List Text} (loop : n.kind.isLoop = true)
    (h : Node.Shaped Node.Allowed .statement
      ((Γ.site.named labels n.kind.isLoop).enter n).inFrame body) :
    (Γ.looped labels).inFrame.Statement body := by
  have hsite : (Γ.site.named labels n.kind.isLoop).enter n = (Γ.looped labels).site := by
    rw [loop]
    cases ht : Γ.targets <;>
      simp [Node.Site.named, Node.Site.enter, Region.site, Region.looped, Region.permits, ht,
        Node.Targets.enter_naming _ _ loop]
  rw [hsite] at h
  exact .inFrame h

/-- The clauses of a switch. -/
theorem switched_clause {n clause : Node} {labels : List Text} (kind : n.kind = .switch)
    (h : Node.Shaped Node.Allowed .clause
      ((Γ.site.named labels n.kind.isLoop).enter n).inFrame clause) :
    Γ.switched.inFrame.Clause clause := by
  have hsite : (Γ.site.named labels n.kind.isLoop).enter n = Γ.switched.site := by
    rw [kind]
    cases ht : Γ.targets <;>
      simp [Node.Site.named, Node.Site.enter, Region.site, Region.switched, Region.permits, ht,
        NodeKind.isLoop, Node.Targets.enter_switch _ kind]
  rw [hsite] at h
  exact h.mono Γ.switched.site_inFrame

/-- A loop or a switch starts. -/
theorem reached_executeTarget (r : Ready L loc w stack (.code .completion Γ) []) {n : Node}
    {labels : List Text}
    (h : Node.Shaped Node.Allowed .statement (Γ.site.named labels n.kind.isLoop) n) {scope : Nat}
    (hs : ScopeIn w Γ.activation scope) : Reached L (w.executeTarget stack n scope labels) := by
  have malformed : Reached L ⟨w, .raise (.host .value), stack⟩ := .fail r (Failure.clean_host _)
  have hoperand : (Γ.site.named labels n.kind.isLoop).operand = Γ.site.operand := by
    unfold Node.Site.named
    split <;> rfl
  unfold World.executeTarget
  cases h with
  | whileLoop _ kind children test pass =>
    rw [hoperand] at test
    have hbody := looped_statement (by rw [kind]; rfl) pass
    simp only [kind, children]
    exact reached_testWhile r ⟨test, hbody, hs⟩
  | @doWhileLoop _ _ condition body _ kind children test pass =>
    rw [hoperand] at test
    have hbody := looped_statement (by rw [kind]; rfl) pass
    simp only [kind, children]
    have hloop : PlainLoop.Fits w Γ { condition, body, scope, labels } := ⟨test, hbody, hs⟩
    exact reached_runPass (r.push (.doPass hloop)) hbody hs
  | @forLoop _ _ first condition step body _ kind children start isStart test advance pass =>
    rw [hoperand] at start test advance
    have hbody := looped_statement (by rw [kind]; rfl) pass
    simp only [kind, children]
    have hquiet := quiet_childScope (w := w) scope
    generalize hloop : ({ condition, step, body, labels, perPass := _ } : CountingLoop) = loop
    have hloop : loop.Fits Γ := by
      rw [← hloop]
      exact ⟨test, advance, hbody⟩
    split
    · exact reached_startFor (r.quiet hquiet) hloop hs.child
    · exact .execute ((r.quiet hquiet).push (.forStart hloop hs.child)) (start_statement start isStart)
        hs.child
  | forOfLoop _ kind children subject pass =>
    rw [hoperand] at subject
    have hbody := looped_statement (by rw [kind]; rfl) pass
    simp only [kind]
    exact reached_evaluateChild (r.push (.forOfSubject children hbody hs))
      (getElem?_zero_of_cons children subject) hs
  | switch _ kind children test parts =>
    rw [hoperand] at test
    have hclauses := fun c hc => switched_clause kind (parts c hc)
    simp only [kind]
    exact reached_evaluateChild (r.push (.switchSubject children hclauses hs))
      (getElem?_zero_of_cons children test) hs
  | jump _ kind _ => rcases kind with kind | kind | kind <;> simpa only [kind] using malformed
  | simple _ kind _ => rcases kind with kind | kind | kind <;> simpa only [kind] using malformed
  | block _ kind _ | declaration _ kind _ | conditional _ kind _ _ _ | attempt _ kind _ _ _ _ | labeled _ kind _ _
  | defer _ kind _ _ | function _ kind _ _ => simpa only [kind] using malformed

/-- What stands behind labels is a statement. -/
theorem unlabeled_fits {s : Node.Site} {n : Node} (labels : List (Option Text))
    (h : Node.Shaped Node.Allowed .statement
      ((s.behind (labels.filterMap id)).named (labels.filterMap id) n.isLoopBehind) n) :
    ∃ labels' target, unlabeled labels n = .ok (labels', target) ∧
      Node.Shaped Node.Allowed .statement
        ((s.behind (labels'.filterMap id)).named (labels'.filterMap id) target.kind.isLoop) target := by
  by_cases kind : n.kind = .labeled
  · cases h with
    | @labeled _ _ target own _ children inside =>
      rw [s.enter_labeled _ kind, Node.isLoopBehind_labeled kind children] at inside
      have hlabels : n.label.toList ++ labels.filterMap id = (n.label :: labels).filterMap id := by
        cases n.label <;> rfl
      rw [hlabels] at inside
      have hsize : sizeOf target < sizeOf n := by
        obtain ⟨k, value, label, params, cs, a, g, l, span⟩ := n
        simp only at children
        subst children
        simp
        omega
      obtain ⟨labels', target', htarget, hshaped⟩ := unlabeled_fits (n.label :: labels) inside
      refine ⟨labels', target', ?_, hshaped⟩
      obtain ⟨k, value, label, params, cs, a, g, l, span⟩ := n
      simp only at kind children
      subst kind children
      exact htarget
    | jump _ hk _ => rcases hk with hk | hk | hk <;> simp [hk] at kind
    | simple _ hk _ => rcases hk with hk | hk | hk <;> simp [hk] at kind
    | _ => simp_all
  · rw [Node.isLoopBehind_of_ne kind] at h
    refine ⟨labels, n, ?_, h⟩
    obtain ⟨k, value, label, params, cs, a, g, l, span⟩ := n
    exact if_neg kind
termination_by sizeOf n

theorem reached_executeLabeled (r : Ready L loc w stack (.code .completion Γ) []) {n : Node}
    (h : Γ.Statement n) {scope : Nat} (hs : ScopeIn w Γ.activation scope) :
    Reached L (w.executeLabeled stack n scope) := by
  have h' : Node.Shaped Node.Allowed .statement ((Γ.site.behind []).named [] n.isLoopBehind) n := by
    rw [Node.Site.named_nil, Node.Site.behind_nil]
    exact h
  obtain ⟨labels, target, htarget, hshaped⟩ := unlabeled_fits [] h'
  have r' : Ready L loc w (.labeled labels :: stack)
      (.code .completion (Γ.behind (labels.filterMap id))) [] := r.push .labeled
  unfold World.executeLabeled
  rw [htarget]
  show Reached L (if target.kind.isLoop || target.kind = .switch then _ else _)
  split
  · exact reached_executeTarget r' hshaped hs
  · rename_i htarget
    have hloop : target.kind.isLoop = false := by
      simp only [Bool.or_eq_true, not_or, Bool.not_eq_true] at htarget
      exact htarget.1
    rw [hloop] at hshaped
    exact .execute r' hshaped hs

/-! ### Whole statements -/

/-- A statement that is made of parts starts. -/
theorem reached_executeCompound (r : Ready L loc w stack (.code .completion Γ) []) {n : Node}
    (h : Γ.Statement n) {scope : Nat} (hs : ScopeIn w Γ.activation scope)
    (compound : isCompound n.kind = true) : Reached L (w.executeCompound stack n scope) := by
  have target : Reached L (w.executeTarget stack n scope []) := by
    refine reached_executeTarget r ?_ hs
    rw [Node.Site.named_nil]
    exact h
  unfold World.executeCompound
  cases h with
  | simple own kind parts =>
    rcases kind with kind | kind | kind <;> simp only [kind]
    · exact reached_evaluateChild (r.push .expressionStatement) (getElem?_of_forall parts 0) hs
    · have completes : Γ.Completes (.returning .undefined) :=
        Γ.completes_jump own (by rw [Node.jump?, kind])
      split
      · rename_i value hvalue
        exact .evaluate (r.push (.returnValue completes.free)) (parts value (child?_eq_some hvalue).1) hs
      · exact .complete r rfl completes
    · exact reached_evaluateChild (r.push .throwValue) (getElem?_of_forall parts 0) hs
  | declaration _ kind parts =>
    simp only [kind]
    exact reached_declare r parts hs
  | block _ kind parts =>
    simp only [kind]
    exact reached_enterFrame (r.quiet (quiet_childScope scope)) hs.child _ _
      (fun c hc => .inFrame (parts c hc)) Γ.completes_normal
  | conditional _ kind children test parts =>
    simp only [kind]
    exact reached_evaluateChild (r.push (.ifCondition children ⟨parts, hs⟩))
      (getElem?_zero_of_cons children test) hs
  | attempt _ kind children inside rescue last =>
    simp only [kind, children]
    exact .execute (r.push (.tryBody rescue last hs)) inside hs
  | labeled own kind children inside =>
    simp only [kind]
    exact reached_executeLabeled r (.labeled own kind children inside) hs
  | whileLoop _ kind | doWhileLoop _ kind | forLoop _ kind | forOfLoop _ kind | switch _ kind =>
    simpa only [kind] using target
  | jump _ kind _ => rcases kind with kind | kind | kind <;> simp [kind, isCompound] at compound
  | defer _ kind | function _ kind => simp [kind, isCompound] at compound

theorem quiet_counting (w : World) : Quiet w (counting w) := .same rfl rfl rfl rfl rfl rfl rfl

/-- A statement completes at once or starts with its parts, above a frame that takes requests to return.
What is executed is no deferred action. -/
theorem reached_started (r : Ready L loc w stack p []) (form : p.form? = some .completion)
    (completes : ∀ reason, Γ.Completes reason → p.Completes reason) (opened : ∀ w, Ready L loc w stack p [] →
      Ready L loc w (.statementEnd :: stack) (.code .completion Γ) [])
    {n : Node} (h : Γ.Statement n) {scope : Nat} (hs : ScopeIn w Γ.activation scope)
    (plain : n.kind ≠ .defer) : Reached L (w.execute stack n scope) := by
  have r' := r.quiet (quiet_counting w)
  have compound : isCompound n.kind = true →
      Reached L ((counting w).executeCompound (.statementEnd :: stack) n scope) :=
    reached_executeCompound (opened _ r') h (hs.mono (quiet_counting w).ext)
  unfold World.execute
  cases h with
  | jump own kind _ =>
    rcases kind with kind | kind | kind <;> simp only [kind]
    · exact .complete r' form (completes _ (Γ.completes_jump own (by rw [Node.jump?, kind])))
    · exact .complete r' form (completes _ (Γ.completes_jump own (by rw [Node.jump?, kind])))
    · exact .complete r' form (completes _ Γ.completes_normal)
  | function _ kind =>
    simp only [kind]
    exact .complete r' form (completes _ Γ.completes_normal)
  | defer _ kind => exact absurd kind plain
  | simple _ kind _ =>
    rcases kind with kind | kind | kind <;> simp only [kind] at compound ⊢ <;> exact compound rfl
  | declaration _ kind | block _ kind | conditional _ kind | whileLoop _ kind | doWhileLoop _ kind
  | forLoop _ kind | forOfLoop _ kind | switch _ kind | attempt _ kind | labeled _ kind =>
    simp only [kind] at compound ⊢
    exact compound rfl

/-- A statement in the code of an activation. -/
theorem reached_execute (r : Ready L loc w stack (.code .completion Γ) []) {n : Node}
    (h : Γ.Statement n) {scope : Nat} (hs : ScopeIn w Γ.activation scope) :
    Reached (L.after ⟨w, .execute n scope, stack⟩) (w.execute stack n scope) := by
  by_cases hdefer : n.kind = .defer
  · cases h with
    | @defer _ _ body own kind children inside =>
      obtain ⟨_, _, -, hregister, -⟩ := r.registered hs own kind children inside
      obtain ⟨id, registry, hinnermost, hregister', hready⟩ :=
        (r.quiet (quiet_counting w)).registered (hs.mono (quiet_counting w).ext) own kind children inside
      -- the ledger is told what the frame has been given
      have hregisters : ∀ a i, Running.registers? ⟨w, .execute n scope, stack⟩ a i =
          if a = Γ.activation ∧ i = id then some ⟨body, scope⟩ else none := by
        intro a i
        have hid : (w.registry Γ.activation).innermost?.map FrameHandle.frame = some (id : Int) :=
          hinnermost
        simp only [Running.registers?, kind, hs.activation_eq, hregister, children, true_and]
        by_cases ha : a = Γ.activation
        · subst ha
          simp only [hid, Option.some.injEq, true_and, Int.natCast_inj, eq_comm]
        · simp [ha, Ne.symm ha]
      have hafter : L.after ⟨w, .execute n scope, stack⟩ =
          L.register Γ.activation id ⟨body, scope⟩ := by
        have hends : Running.ends? ⟨w, .execute n scope, stack⟩ = none := rfl
        simp only [Ledger.after, Ledger.register, hregisters, hends, Option.toList_none,
          List.append_nil, Ledger.mk.injEq, and_true]
        funext a i
        split
        · simp
        · simp
      have hexecute : w.execute stack n scope =
          ⟨(counting w).setRegistry Γ.activation registry, .complete .normal, stack⟩ := by
        unfold World.execute
        simp only [kind]
        change perform stack ((counting w).register n scope) _ = _
        rw [hregister']
        rfl
      rw [hafter, hexecute]
      exact .complete hready rfl Γ.completes_normal
    | jump _ kind _ => rcases kind with kind | kind | kind <;> simp [kind] at hdefer
    | simple _ kind _ => rcases kind with kind | kind | kind <;> simp [kind] at hdefer
    | _ => simp_all
  · rw [Ledger.after_eq L (registers?_eq_none hdefer) rfl]
    exact reached_started r rfl (fun _ => id) (fun w r => r.push .statementEnd) h hs hdefer

/-- The body of a deferred action. -/
theorem reached_executeAction {a : Nat} {isAsync : Bool} (r : Ready L loc w stack (.action a isAsync) [])
    {n : Node} (h : (Region.action a isAsync).Statement n) {scope : Nat} (hs : ScopeIn w a scope) :
    Reached (L.after ⟨w, .execute n scope, stack⟩) (w.execute stack n scope) := by
  have hdefer : n.kind ≠ .defer := by
    intro kind
    have hopen : (Region.action a isAsync).isOpen = true := h.own.framed kind
    contradiction
  rw [Ledger.after_eq L (registers?_eq_none hdefer) rfl]
  exact reached_started r rfl (fun _ => id) (fun w r => r.through fun _ spans => .actionEnd spans) h hs hdefer

end Statement

end ScopeExit.Script
