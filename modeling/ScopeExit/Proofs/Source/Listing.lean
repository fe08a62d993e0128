import ScopeExit.Proofs.Source.Lowering
import ScopeExit.Proofs.Tree.Listing
/-!
Listings of programs.

A listing keeps the shape of its tree if the tree is unbroken.  Lowering takes texts from the source in four ways: it
decodes literals, it copies operators and the keywords of declarations, it copies names, and it copies labels.  The
first three end up as values, which a listing quotes, except that the names of parameters and the labels are shown as
they are.  So all that is needed of the grammar is that names and labels hold no line feed; what literals and keys of
properties hold does not matter.

**Main result.** `ofTextBy_listing`: the listing of a program has one line for each node, in the order of the tree and
with its level and its kind, and the outline of the program can be read from it.
-/
namespace ScopeExit

open Node

/-! ### Concrete trees -/

namespace SourceNode

/-- Names and labels hold no line feed. -/
def NamesUnbroken (source : Source) (root : SourceNode) : Prop :=
  ∀ n ∈ root.nodes, n.type = "identifier" ∨ n.field = some "label" →
    ∀ t ∈ source.text? n.start n.stop, t.Unbroken

instance (source : Source) (root : SourceNode) : Decidable (root.NamesUnbroken source) :=
  inferInstanceAs (Decidable (∀ _ ∈ _, _))

section

variable {source : Source} {n c : SourceNode}

theorem NamesUnbroken.child (h : n.NamesUnbroken source) (mem : c ∈ n.children) : c.NamesUnbroken source :=
  fun m hm => h m (nodes_eq n ▸ List.mem_cons_of_mem n (mem_nodesOfAll.mpr ⟨c, mem, hm⟩))

theorem NamesUnbroken.part (h : n.NamesUnbroken source) {field : String} (part : n.part? field = some c) :
    c.NamesUnbroken source :=
  h.child (List.mem_of_find?_eq_some part)

theorem NamesUnbroken.named (h : n.NamesUnbroken source) (mem : c ∈ n.named) : c.NamesUnbroken source :=
  h.child (List.mem_of_mem_filter mem)

end

end SourceNode

namespace Lowering

/-- The lowering of the nodes of one text, of which the rules make use, gives unbroken trees. -/
structure Flat (lo : Lowering) : Prop where
  statement : ∀ {n : SourceNode}, n.NamesUnbroken lo.source → Gives Unbroken (lo.statement n)
  expression : ∀ {n : SourceNode}, n.NamesUnbroken lo.source → Gives Unbroken (lo.expression n)

section Rules

variable {lo : Lowering} {n c : SourceNode}

/-- A node without label and parameters. -/
theorem unbroken_of {m : Node} (value : m.value.isScalar = true) (label : m.label = none) (params : m.params = [])
    (children : ∀ c ∈ m.children, c.Unbroken) : m.Unbroken :=
  .mk value (by rw [label]; exact nofun) (by rw [params]; exact nofun) children

theorem unbroken_plain {kind : NodeKind} {children : List Node} (hc : ∀ c ∈ children, c.Unbroken) :
    (lo.plain kind n children).Unbroken :=
  unbroken_of rfl rfl rfl hc

theorem unbroken_emptyNode : Node.emptyNode.Unbroken := unbroken_of rfl rfl rfl nofun

theorem unbroken_literal {value : Datum} (scalar : value.isScalar = true) : (lo.literal n value).Unbroken :=
  unbroken_of scalar rfl rfl nofun

theorem unbroken_identifier : Gives Unbroken (lo.identifier n) :=
  (gives_any _).bind fun _ _ => .pure (unbroken_of rfl rfl rfl nofun)

theorem gives_text {P : Text → Prop} (h : ∀ t ∈ lo.source.text? n.start n.stop, P t) : Gives P (lo.text n) := by
  unfold Lowering.text Lowering.textOf
  cases found : lo.source.text? n.start n.stop with
  | none => exact gives_error _
  | some t => exact .pure (h t found)

section

variable (hn : n.NamesUnbroken lo.source)
include hn

/-- A name or a label, as far as a listing shows it without quotes. -/
theorem unbroken_name (name : n.type = "identifier" ∨ n.field = some "label") : Gives Text.Unbroken (lo.text n) :=
  gives_text (hn n (n.nodes_eq ▸ List.mem_cons_self) name)

theorem names_part (field : String) :
    Gives (fun c => c.field = some field ∧ c.NamesUnbroken lo.source) (part n field) := by
  unfold Lowering.part
  cases part : n.part? field with
  | none => exact gives_error _
  | some c => exact .pure ⟨by simpa using List.find?_some part, hn.part part⟩

theorem names_element {o : Option SourceNode} (among : ∀ d ∈ o, d ∈ n.children) :
    Gives (fun d => d.NamesUnbroken lo.source) (element o) := by
  cases o with
  | none => exact gives_error _
  | some d => exact .pure (hn.child (among d rfl))

theorem names_sought {p : SourceNode → Bool} :
    Gives (fun d => d.NamesUnbroken lo.source) (sought (n.children.find? p)) := by
  cases found : n.children.find? p with
  | none => exact gives_error _
  | some d => exact .pure (hn.child (List.mem_of_find?_eq_some found))

end

variable (h : lo.Flat)
include h

variable (hn : n.NamesUnbroken lo.source)
include hn

theorem Flat.expressionPart (field : String) : Gives Unbroken (lo.expressionPart (n.part? field)) := by
  unfold Lowering.expressionPart
  cases part : n.part? field with
  | none => exact gives_error _
  | some c => exact h.expression (hn.part part)

theorem Flat.statementPart (field : String) : Gives Unbroken (lo.statementPart (n.part? field)) := by
  unfold Lowering.statementPart
  cases part : n.part? field with
  | none => exact gives_error _
  | some c => exact h.statement (hn.part part)

theorem Flat.optionalFirst : Gives (fun es => ∀ e ∈ es, e.Unbroken) (lo.optionalFirst n) := by
  unfold Lowering.optionalFirst
  split
  · exact .pure nofun
  · rename_i e rest named
    have he := hn.named (named ▸ List.mem_cons_self)
    exact (h.expression he).bind fun e he => .pure (List.forall_mem_singleton.mpr he)

theorem Flat.statementsOf {cs : List SourceNode} (among : ∀ c ∈ cs, c ∈ n.children) :
    Gives (fun ss => ∀ s ∈ ss, s.Unbroken) (do
      let lowered ← cs.mapM lo.statement
      pure (lowered.filter fun s => !s.isEmpty)) :=
  (Gives.mapM fun c hc => h.statement (hn.child (among c hc))).bind fun _ hss =>
    .pure fun s hs => hss s (List.mem_of_mem_filter hs)

/-! ### Statements -/

theorem Flat.statements : Gives (fun ss => ∀ s ∈ ss, s.Unbroken) (lo.statements n) :=
  h.statementsOf hn fun _ => List.mem_of_mem_filter

theorem Flat.block : Gives Unbroken (lo.block n) :=
  (h.statements hn).bind fun _ hss => .pure (unbroken_plain hss)

theorem Flat.expressionStatement : Gives Unbroken (lo.expressionStatement n) := by
  unfold Lowering.expressionStatement
  split
  · exact .pure unbroken_emptyNode
  · rename_i e rest named
    have he := hn.named (named ▸ List.mem_cons_self)
    exact (h.expression he).bind fun e he => .pure (unbroken_plain (List.forall_mem_singleton.mpr he))

theorem Flat.returnStatement : Gives Unbroken (lo.returnStatement n) :=
  (h.optionalFirst hn).bind fun _ hes => .pure (unbroken_plain hes)

theorem Flat.throwStatement : Gives Unbroken (lo.throwStatement n) := by
  unfold Lowering.throwStatement
  split
  · exact gives_error _
  · exact (h.optionalFirst hn).bind fun _ hes => .pure (unbroken_plain hes)

omit h in
/-- The label of a jump is shown without quotes. -/
theorem unbroken_jump {kind : NodeKind} : Gives Unbroken (lo.jump kind n) := by
  have label : Gives (fun label : Option Text => ∀ l ∈ label, l.Unbroken) (lo.jumpLabel n) := by
    unfold Lowering.jumpLabel
    cases part : n.part? "label" with
    | none => exact .pure nofun
    | some l =>
      have field : l.field = some "label" := by simpa using List.find?_some part
      refine (unbroken_name (hn.part part) (.inr field)).bind fun t ht => .pure ?_
      intro u hu
      cases hu
      exact ht
  exact label.bind fun label hl => .pure (.mk rfl hl nofun nofun)

theorem Flat.alternative : Gives Unbroken (lo.alternative n) := by
  unfold Lowering.alternative
  split
  · rename_i s rest named
    split
    · exact h.statement (hn.named (named ▸ List.mem_cons_self))
    · exact h.statement hn
  · exact h.statement hn

theorem Flat.ifStatement : Gives Unbroken (lo.ifStatement n) := by
  refine (h.expressionPart hn _).bind fun condition hc => ?_
  refine (h.statementPart hn _).bind fun consequence hs => ?_
  have finish {otherwise : List Node} (ho : ∀ s ∈ otherwise, s.Unbroken) : Gives Unbroken
      (.ok (lo.plain .conditionalStatement n (condition :: consequence :: otherwise))) :=
    .pure (unbroken_plain (List.forall_mem_cons.mpr ⟨hc, List.forall_mem_cons.mpr ⟨hs, ho⟩⟩))
  cases part : n.part? "alternative" with
  | none => exact finish nofun
  | some a => exact (h.alternative (hn.part part)).bind fun s hs => finish (List.forall_mem_singleton.mpr hs)

theorem Flat.whileStatement : Gives Unbroken (lo.whileStatement n) := by
  refine (h.expressionPart hn _).bind fun condition hc => ?_
  refine (h.statementPart hn _).bind fun body hb => ?_
  exact .pure (unbroken_plain (by simp [hc, hb]))

theorem Flat.doStatement : Gives Unbroken (lo.doStatement n) := by
  refine (h.statementPart hn _).bind fun body hb => ?_
  refine (h.expressionPart hn _).bind fun condition hc => ?_
  exact .pure (unbroken_plain (by simp [hb, hc]))

theorem Flat.loopCondition (field : String) : Gives Unbroken (lo.loopCondition (n.part? field)) := by
  unfold Lowering.loopCondition
  split
  · exact .pure unbroken_emptyNode
  · rename_i c found
    have hc := hn.part found
    split
    · exact .pure unbroken_emptyNode
    · split
      · split
        · rename_i e rest named
          exact h.expression (hc.named (named ▸ List.mem_cons_self))
        · exact .pure unbroken_emptyNode
      · exact h.expression hc

theorem Flat.loopStart (field : String) : Gives Unbroken (lo.loopStart (n.part? field)) := by
  unfold Lowering.loopStart
  split
  · exact .pure unbroken_emptyNode
  · rename_i c found
    have hc := hn.part found
    split
    · exact .pure unbroken_emptyNode
    · split
      · exact h.statement hc
      · exact (h.expression hc).bind fun e he => .pure (unbroken_plain (List.forall_mem_singleton.mpr he))

theorem Flat.forStatement : Gives Unbroken (lo.forStatement n) := by
  refine (h.loopStart hn _).bind fun start hs => ?_
  refine (h.loopCondition hn _).bind fun condition hc => ?_
  have finish {step : Node} (hu : step.Unbroken) : Gives Unbroken (do
      let body ← lo.statementPart (n.part? "body")
      pure (lo.plain .forLoop n [start, condition, step, body])) :=
    (h.statementPart hn _).bind fun body hb => .pure (unbroken_plain (by simp [hs, hc, hu, hb]))
  cases found : (n.part? "increment").or (n.part? "update") with
  | none => exact finish unbroken_emptyNode
  | some u =>
    have hu : u.NamesUnbroken lo.source := by
      rcases Option.or_eq_some_iff.mp found with part | ⟨-, part⟩ <;> exact hn.part part
    exact (h.expression hu).bind fun step hu => finish hu

/-- The label of a statement is shown without quotes. -/
theorem Flat.labeledStatement : Gives Unbroken (lo.labeledStatement n) := by
  refine (names_part hn _).bind fun l hl => (unbroken_name hl.2 (.inr hl.1)).bind fun label unbroken => ?_
  refine (h.statementPart hn _).bind fun body hb => ?_
  split
  · exact .pure (unbroken_of rfl rfl rfl (List.forall_mem_singleton.mpr hb))
  · refine .pure (.mk rfl (fun l hl => ?_) nofun (List.forall_mem_singleton.mpr hb))
    cases hl
    exact unbroken

theorem Flat.declarator : Gives Unbroken (lo.declarator n) := by
  refine (gives_any _).bind fun name _ => ?_
  split
  · exact gives_error _
  · refine (gives_any _).bind fun name _ => ?_
    cases part : n.part? "value" with
    | none => exact .pure (unbroken_of rfl rfl rfl nofun)
    | some v =>
      exact (h.expression (hn.part part)).bind fun e he =>
        .pure (unbroken_of rfl rfl rfl (List.forall_mem_singleton.mpr he))

theorem Flat.declaration : Gives Unbroken (lo.declaration n) := by
  refine (gives_any _).bind fun first _ => ?_
  refine (Gives.mapM fun c hc => h.declarator (hn.child (List.mem_of_mem_filter hc))).bind fun declarators hd => ?_
  exact .pure (unbroken_of rfl rfl rfl hd)

theorem Flat.forOfStatement : Gives Unbroken (lo.forOfStatement n) := by
  have finish (isOf : Bool) : Gives Unbroken (if !isOf then lo.unsupported n "for...in loop"
      else if n.hasToken "await" then lo.unsupported n "for await...of loop"
      else do
        let left ← part n "left"
        let name ← lo.loopVariable left.height left
        let iterable ← lo.expressionPart (n.part? "right")
        let body ← lo.statementPart (n.part? "body")
        pure { kind := .forOfLoop, value := .text name, children := [iterable, body],
               span := lo.span n }) := by
    split
    · exact gives_error _
    · split
      · exact gives_error _
      · refine (gives_any _).bind fun left _ => (gives_any _).bind fun name _ => ?_
        refine (h.expressionPart hn _).bind fun iterable hi => ?_
        refine (h.statementPart hn _).bind fun body hb => ?_
        exact .pure (unbroken_of rfl rfl rfl (by simp [hi, hb]))
  unfold Lowering.forOfStatement
  cases part : n.part? "operator" with
  | none => exact finish false
  | some o => exact (gives_any _).bind fun t _ => finish (t == "of")

theorem Flat.switchClause : Gives Unbroken (lo.switchClause n) := by
  have among : ∀ c ∈ (n.parts "body").filter fun s => !s.isComment, c ∈ n.children :=
    fun _ hc => List.mem_of_mem_filter (List.mem_of_mem_filter hc)
  refine (h.statementsOf hn among).bind fun body hb => ?_
  split
  · exact .pure (unbroken_plain hb)
  · exact (h.expressionPart hn _).bind fun test ht =>
      .pure (unbroken_plain (List.forall_mem_cons.mpr ⟨ht, hb⟩))

theorem Flat.switchStatement : Gives Unbroken (lo.switchStatement n) := by
  refine (names_part hn _).bind fun body hb => ?_
  refine (Gives.mapM fun c hc => h.switchClause (hb.2.named hc)).bind fun clauses hcs => ?_
  exact (h.expressionPart hn _).bind fun discriminant hd =>
    .pure (unbroken_plain (List.forall_mem_cons.mpr ⟨hd, hcs⟩))

/-- The block that is a part of a node. -/
theorem Flat.blockOf {β : Type} {Q : β → Prop} {next : Node → Lowered β}
    (hnext : ∀ b, b.Unbroken → Gives Q (next b)) : Gives Q (do next (← lo.block (← part n "body"))) :=
  (names_part hn _).bind fun _ hb => (h.block hb.2).bind hnext

theorem Flat.catchClause : Gives Unbroken (lo.catchClause n) := by
  have finish {value : Datum} (scalar : value.isScalar = true) : Gives Unbroken (do
        let body ← lo.block (← part n "body")
        pure { kind := .catch, value, children := [body], span := lo.span n }) :=
    h.blockOf hn fun body hb => .pure (unbroken_of scalar rfl rfl (List.forall_mem_singleton.mpr hb))
  unfold Lowering.catchClause
  cases part : n.part? "parameter" with
  | none => exact finish rfl
  | some p =>
    dsimp only
    split
    · exact gives_error _
    · exact (gives_any _).bind fun name _ => finish rfl

theorem Flat.tryStatement : Gives Unbroken (lo.tryStatement n) := by
  have finish {handler finalizer : Node} (hh : handler.Unbroken) (hf : finalizer.Unbroken) :
      Gives Unbroken (do
        let body ← lo.block (← part n "body")
        pure (lo.plain .try n [body, handler, finalizer])) :=
    h.blockOf hn fun body hb => .pure (unbroken_plain (by simp [hb, hh, hf]))
  have withFinalizer {handler : Node} {f : SourceNode} (hh : handler.Unbroken)
      (found : n.part? "finalizer" = some f) : Gives Unbroken (do
        let finalizer ← lo.block (← part f "body")
        let body ← lo.block (← part n "body")
        pure (lo.plain .try n [body, handler, finalizer])) :=
    h.blockOf (hn.part found) fun f hf => finish hh hf
  unfold Lowering.tryStatement
  cases handler : n.part? "handler" with
  | none =>
    cases finalizer : n.part? "finalizer" with
    | none => exact finish unbroken_emptyNode unbroken_emptyNode
    | some f => exact withFinalizer unbroken_emptyNode finalizer
  | some c =>
    refine (h.catchClause (hn.part handler)).bind fun c hc => ?_
    cases finalizer : n.part? "finalizer" with
    | none => exact finish hc unbroken_emptyNode
    | some f => exact withFinalizer hc finalizer

/-! ### Expressions -/

theorem Flat.parenthesized : Gives Unbroken (lo.parenthesized n) := by
  unfold Lowering.parenthesized
  split
  · exact gives_error _
  · rename_i e rest named
    exact h.expression (hn.named (named ▸ List.mem_cons_self))

theorem Flat.binary : Gives Unbroken (lo.binary n) := by
  have finish (op : Text) : Gives Unbroken (do
      let left ← lo.expressionPart (n.part? "left")
      let right ← lo.expressionPart (n.part? "right")
      pure { kind := if isLogical op then .logical else .binary, value := .text op,
             children := [left, right], span := lo.span n }) := by
    refine (h.expressionPart hn _).bind fun left hl => ?_
    refine (h.expressionPart hn _).bind fun right hr => ?_
    exact .pure (unbroken_of rfl rfl rfl (by simp [hl, hr]))
  unfold Lowering.binary
  cases part : n.part? "operator" with
  | some o => exact (gives_any _).bind fun op _ => finish op
  | none => exact (gives_any _).bind fun o _ => (gives_any _).bind fun op _ => finish op

theorem Flat.unary : Gives Unbroken (lo.unary n) := by
  have finish {o a : SourceNode} (ha : a.NamesUnbroken lo.source) : Gives Unbroken (do
      let op ← lo.text o
      pure { kind := .unary, value := .text op, children := [← lo.expression a], span := lo.span n }) := by
    refine (gives_any _).bind fun op _ => (h.expression ha).bind fun e he => ?_
    exact .pure (unbroken_of rfl rfl rfl (List.forall_mem_singleton.mpr he))
  have last := names_element hn fun _ => List.mem_of_getLast?
  cases operator : n.part? "operator" with
  | none =>
    simp only [Lowering.unary, operator, pure_bind]
    exact (gives_any _).bind fun o _ => last.bind fun a ha => finish ha
  | some o =>
    cases operand : n.part? "argument" with
    | none =>
      simp only [Lowering.unary, operator, operand, pure_bind]
      exact (gives_any _).bind fun o _ => last.bind fun a ha => finish ha
    | some a =>
      simp only [Lowering.unary, operator, operand, pure_bind]
      exact finish (hn.part operand)

theorem Flat.target : Gives Unbroken (lo.target n) := by
  refine (h.expression hn).bind fun t ht => ?_
  split
  · exact .pure ht
  · exact .pure ht
  · exact .pure ht
  · exact gives_error _

theorem Flat.update : Gives Unbroken (lo.update n) := by
  have finish {operand : SourceNode} (op : Text) (ha : operand.NamesUnbroken lo.source) : Gives Unbroken (do
      let first ← element n.children.head?
      pure { kind := .update, value := .text op, isLeading := isUpdateToken first,
             children := [← lo.target operand], span := lo.span n }) := by
    refine (gives_any _).bind fun first _ => (h.target ha).bind fun t ht => ?_
    exact .pure (unbroken_of rfl rfl rfl (List.forall_mem_singleton.mpr ht))
  unfold Lowering.update
  cases operand : n.part? "argument" with
  | some a =>
    refine (Gives.pure (P := fun a => a.NamesUnbroken lo.source) (hn.part operand)).bind fun a ha => ?_
    cases operator : n.part? "operator" with
    | some o => exact (gives_any _).bind fun op _ => finish op ha
    | none => exact (gives_any _).bind fun o _ => finish _ ha
  | none =>
    refine (names_sought hn).bind fun a ha => ?_
    cases operator : n.part? "operator" with
    | some o => exact (gives_any _).bind fun op _ => finish op ha
    | none => exact (gives_any _).bind fun o _ => finish _ ha

theorem Flat.assignment : Gives Unbroken (lo.assignment n) := by
  have finish (op : Text) : Gives Unbroken (do
      let left ← lo.target (← part n "left")
      let right ← lo.expressionPart (n.part? "right")
      pure { kind := .assign, value := .text op, children := [left, right], span := lo.span n }) := by
    refine (names_part hn _).bind fun left hl => (h.target hl.2).bind fun left hl => ?_
    refine (h.expressionPart hn _).bind fun right hr => ?_
    exact .pure (unbroken_of rfl rfl rfl (by simp [hl, hr]))
  unfold Lowering.assignment
  cases part : n.part? "operator" with
  | some o => exact (gives_any _).bind fun op _ => finish op
  | none => exact finish "="

theorem Flat.row {kind : NodeKind} : Gives Unbroken (lo.row kind n) :=
  (Gives.mapM fun _ hc => h.expression (hn.named hc)).bind fun _ hes => .pure (unbroken_plain hes)

theorem Flat.arguments (field : String) :
    Gives (fun es => ∀ e ∈ es, e.Unbroken) (lo.arguments (n.part? field)) := by
  unfold Lowering.arguments
  split
  · exact .pure nofun
  · rename_i c part
    split
    · exact gives_error _
    · exact Gives.mapM fun e he => h.expression ((hn.part part).named he)

theorem Flat.call {kind : NodeKind} (field : String) : Gives Unbroken (lo.call kind field n) := by
  refine (h.expressionPart hn _).bind fun callee hc => ?_
  refine (h.arguments hn _).bind fun arguments ha => ?_
  exact .pure (unbroken_plain (List.forall_mem_cons.mpr ⟨hc, ha⟩))

theorem Flat.member : Gives Unbroken (lo.member n) := by
  refine (gives_any _).bind fun p _ => (gives_any _).bind fun name _ => ?_
  refine (h.expressionPart hn _).bind fun object ho => ?_
  exact .pure (unbroken_of rfl rfl rfl (List.forall_mem_singleton.mpr ho))

theorem Flat.subscript : Gives Unbroken (lo.subscript n) := by
  refine (h.expressionPart hn _).bind fun object ho => ?_
  refine (h.expressionPart hn _).bind fun key hk => ?_
  exact .pure (unbroken_plain (by simp [ho, hk]))

theorem Flat.ternary : Gives Unbroken (lo.ternary n) := by
  refine (h.expressionPart hn _).bind fun condition hc => ?_
  refine (h.expressionPart hn _).bind fun consequence hs => ?_
  refine (h.expressionPart hn _).bind fun alternative ha => ?_
  exact .pure (unbroken_plain (by simp [hc, hs, ha]))

theorem Flat.typed {o : Option SourceNode} (among : ∀ e ∈ o, e ∈ n.named) : Gives Unbroken (lo.typed o) :=
  (names_element hn fun e he => List.mem_of_mem_filter (among e he)).bind fun _ he => h.expression he

theorem Flat.awaitExpression : Gives Unbroken (lo.awaitExpression n) := by
  refine (names_element hn fun e he => List.mem_of_mem_filter (List.mem_of_head? he)).bind fun _ he => ?_
  exact (h.expression he).bind fun _ he => .pure (unbroken_plain (List.forall_mem_singleton.mpr he))

theorem Flat.yieldExpression : Gives Unbroken (lo.yieldExpression n) := by
  unfold Lowering.yieldExpression
  split
  · exact gives_error _
  · exact (h.optionalFirst hn).bind fun es hes => .pure (unbroken_plain hes)

omit h hn in
theorem unbroken_chunk {near : SourceNode} (start stop : Nat) :
    Gives (fun es => ∀ e ∈ es, e.Unbroken) (lo.chunk start stop near) := by
  unfold Lowering.chunk
  split
  · exact (gives_any _).bind fun t _ => .pure (List.forall_mem_singleton.mpr (unbroken_literal (by rfl)))
  · exact .pure nofun

/-- The pieces of a template from any place on, by the nodes that are left. -/
theorem Flat.templatePieces (cs : List SourceNode) (among : ∀ c ∈ cs, c ∈ n.children) (place : Nat) :
    Gives (fun es => ∀ e ∈ es, e.Unbroken) (lo.templatePieces n place cs) := by
  induction cs generalizing place with
  | nil => exact unbroken_chunk place (n.stop - 1)
  | cons c rest ih =>
    have hc := hn.child (among c List.mem_cons_self)
    have later := ih fun d hd => among d (List.mem_cons_of_mem c hd)
    unfold Lowering.templatePieces
    split
    · refine (unbroken_chunk place c.start).bind fun before hb => ?_
      refine (gives_any _).bind fun t _ => (gives_any _).bind fun value _ => ?_
      refine (later c.stop).bind fun after ha => .pure ?_
      exact List.forall_mem_append.mpr ⟨hb, List.forall_mem_cons.mpr ⟨unbroken_literal (by rfl), ha⟩⟩
    · split
      · refine (unbroken_chunk place c.start).bind fun before hb => ?_
        refine (names_element hc fun e he => List.mem_of_mem_filter (List.mem_of_head? he)).bind fun e he => ?_
        refine (h.expression he).bind fun value hv => ?_
        refine (later c.stop).bind fun after ha => .pure ?_
        exact List.forall_mem_append.mpr ⟨hb, List.forall_mem_cons.mpr ⟨hv, ha⟩⟩
      · exact later place

theorem Flat.template : Gives Unbroken (lo.template n) :=
  (h.templatePieces hn n.children (fun _ hc => hc) _).bind fun _ hes => .pure (unbroken_plain hes)

/-! ### Functions and objects -/

omit h hn in
/-- The parameters of a function are named, and their names are shown without quotes. -/
def IsNamed (p : Node) : Prop := p.Unbroken ∧ ∃ t : Text, p.value = .text t ∧ t.Unbroken

omit h hn in
theorem isNamed_of {name : Text} {children : List Node} (unbroken : name.Unbroken)
    (hc : ∀ c ∈ children, c.Unbroken) :
    IsNamed { kind := .param, value := .text name, children, span := lo.span n } :=
  ⟨unbroken_of rfl rfl rfl hc, name, rfl, unbroken⟩

theorem Flat.plainParameter : Gives IsNamed (lo.plainParameter n) := by
  unfold Lowering.plainParameter
  split
  · rename_i name
    exact (unbroken_name hn (.inl (by simpa using name))).bind fun name hname => .pure (isNamed_of hname nofun)
  · split
    · refine (names_part hn _).bind fun left hl => ?_
      split
      · exact gives_error _
      · rename_i name
        refine (unbroken_name hl.2 (.inl (by simpa using name))).bind fun name hname => ?_
        refine (h.expressionPart hn _).bind fun default hd => ?_
        exact .pure (isNamed_of hname (List.forall_mem_singleton.mpr hd))
    · exact gives_error _

theorem Flat.typedParameter : Gives IsNamed (lo.typedParameter n) := by
  unfold Lowering.typedParameter
  dsimp only
  split
  · rename_i m found
    have below : m.NamesUnbroken lo.source := by
      cases part : n.part? "pattern" with
      | some p =>
        rw [part] at found
        cases found
        exact hn.part part
      | none =>
        rw [part] at found
        exact hn.child (List.mem_of_find?_eq_some found)
    split
    · exact gives_error _
    · rename_i name
      refine (unbroken_name below (.inl (by simpa using name))).bind fun name hname => ?_
      cases part : n.part? "value" with
      | none => exact .pure (isNamed_of hname nofun)
      | some d =>
        exact (h.expression (hn.part part)).bind fun e he =>
          .pure (isNamed_of hname (List.forall_mem_singleton.mpr he))
  · exact gives_error _

theorem Flat.parameter : Gives IsNamed (lo.parameter n) := by
  unfold Lowering.parameter
  split
  · exact h.typedParameter hn
  · exact h.plainParameter hn

theorem Flat.parameters : Gives (fun ps => ∀ p ∈ ps, IsNamed p) (lo.parameters n) := by
  unfold Lowering.parameters
  split
  · rename_i p part
    exact (h.parameter (hn.part part)).bind fun p hp => .pure (List.forall_mem_singleton.mpr hp)
  · rename_i ps part
    exact Gives.mapM fun p hp => h.parameter ((hn.part part).named hp)
  · exact .pure nofun

theorem Flat.function {kind : NodeKind} : Gives Unbroken (lo.function kind n) := by
  have finish (name : Text) {body : Node} (hb : body.Unbroken) : Gives Unbroken (do
      let params ← lo.parameters n
      pure { kind, value := .text name, params, children := [body], isAsync := n.hasToken "async",
             isGenerator := n.hasToken "*", span := lo.span n }) :=
    (h.parameters hn).bind fun params hp =>
      .pure (.mk rfl nofun (fun p mem => (hp p mem).2) (List.forall_mem_singleton.mpr hb))
  have named (name : Text) : Gives Unbroken (do
      let bodyNode ← part n "body"
      let body ← if bodyNode.type == "statement_block" then lo.block bodyNode
        else lo.expression bodyNode
      let params ← lo.parameters n
      pure { kind, value := .text name, params, children := [body], isAsync := n.hasToken "async",
             isGenerator := n.hasToken "*", span := lo.span n }) := by
    refine (names_part hn _).bind fun b hb => ?_
    split
    · exact (h.block hb.2).bind fun body hb => finish name hb
    · exact (h.expression hb.2).bind fun body hb => finish name hb
  unfold Lowering.function
  cases part : n.part? "name" with
  | none => exact named anonymousName
  | some m => exact (gives_any _).bind fun name _ => named name

theorem Flat.memberValue : Gives (fun r => r.2.Unbroken) (lo.memberValue n) := by
  unfold Lowering.memberValue
  split
  · exact (h.expressionPart hn _).bind fun value hv => .pure hv
  · split
    · exact unbroken_identifier.bind fun value hv => .pure hv
    · split
      · exact (h.function hn).bind fun value hv => .pure hv
      · exact gives_error _

theorem Flat.objectMember : Gives Unbroken (lo.objectMember n) := by
  refine (h.memberValue hn).bind fun ⟨key, value⟩ hv => ?_
  refine (gives_any _).bind fun key _ => (gives_any _).bind fun key _ => ?_
  exact .pure (unbroken_of rfl rfl rfl (List.forall_mem_singleton.mpr hv))

theorem Flat.object : Gives Unbroken (lo.object n) :=
  (Gives.mapM fun _ hc => h.objectMember (hn.named hc)).bind fun _ hps => .pure (unbroken_plain hps)

/-! ### The rules -/

theorem Flat.statementRule : Gives Unbroken (lo.statementRule n) := by
  unfold Lowering.statementRule
  split
  · exact h.expressionStatement hn
  · exact h.declaration hn
  · exact h.declaration hn
  · exact h.returnStatement hn
  · exact h.ifStatement hn
  · exact h.whileStatement hn
  · exact h.doStatement hn
  · exact h.forStatement hn
  · exact h.forOfStatement hn
  · exact h.function hn
  · exact h.function hn
  · exact h.throwStatement hn
  · exact h.block hn
  · exact unbroken_jump hn
  · exact unbroken_jump hn
  · exact h.tryStatement hn
  · exact h.switchStatement hn
  · exact h.labeledStatement hn
  · exact .pure unbroken_emptyNode

theorem Flat.lowerStatement : Gives Unbroken (lo.lowerStatement n) := by
  unfold Lowering.lowerStatement
  split
  · exact .pure unbroken_emptyNode
  · split
    · exact h.statementRule hn
    · exact (h.expression hn).bind fun e he => .pure (unbroken_plain (List.forall_mem_singleton.mpr he))

theorem Flat.lowerExpression : Gives Unbroken (lo.lowerExpression n) := by
  unfold Lowering.lowerExpression
  split
  · exact unbroken_identifier
  · exact unbroken_identifier
  · exact (gives_any _).bind fun x _ => .pure (unbroken_literal (by rfl))
  · exact (gives_any _).bind fun t _ => .pure (unbroken_literal (by rfl))
  · exact h.template hn
  · exact .pure (unbroken_literal (by rfl))
  · exact .pure (unbroken_literal (by rfl))
  · exact .pure (unbroken_literal (by rfl))
  · exact h.binary hn
  · exact h.unary hn
  · exact h.update hn
  · exact h.call hn _
  · exact h.call hn _
  · exact h.member hn
  · exact h.subscript hn
  · exact h.parenthesized hn
  · exact h.row hn
  · exact h.object hn
  · exact h.assignment hn
  · exact h.assignment hn
  · exact h.function hn
  · exact h.function hn
  · exact h.function hn
  · exact h.function hn
  · exact h.ternary hn
  · exact h.awaitExpression hn
  · exact h.yieldExpression hn
  · exact h.row hn
  · split
    · split
      · exact h.typed hn fun _ => List.mem_of_head?
      · exact h.typed hn fun _ => List.mem_of_head?
      · exact h.typed hn fun _ => List.mem_of_head?
      · exact h.typed hn fun _ => List.mem_of_getLast?
      · exact gives_error _
    · exact gives_error _

end Rules

theorem flat_lowering (source : Source) (language : Language) (fuel : Nat) :
    (lowering source language fuel).Flat := by
  -- the parts of a node are lowered with one step less, as in `sound_lowering`
  induction fuel with
  | zero => exact ⟨fun _ => gives_error _, fun _ => gives_error _⟩
  | succ fuel ih => exact ⟨ih.lowerStatement, ih.lowerExpression⟩

end Lowering

namespace Node

theorem lower_unbroken {root : SourceNode} {source : Source} {language : Language}
    (names : root.NamesUnbroken source) : Gives Unbroken (root.lower source language) :=
  ((Lowering.flat_lowering source language _).statements names).bind fun _ hss =>
    .pure (Lowering.unbroken_plain hss)

/-- **A listing has one line for each node of the program, and it shows their outline.** -/
theorem ofTextBy_listing {read : Language → String → Option SourceNode}
    (names : ∀ language text root, read language text = some root → root.NamesUnbroken (Source.ofString text))
    {language : Language} {text : String} {program : Node} {listing : Text}
    (lowered : ofTextBy read language text = .ok program) (shown : program.dump = .ok listing) :
    List.Forall₂ Shows (levels 0 program) listing.splitLines ∧
      Outline.ofListing? listing = some program.outline := by
  unfold ofTextBy at lowered
  cases found : read language text with
  | none => simp [found] at lowered
  | some root =>
    rw [found] at lowered
    have unbroken := lower_unbroken (names language text root found) program lowered
    exact ⟨lines_dump unbroken shown, ofListing?_dump unbroken shown⟩

/-- A labeled call whose argument holds a line feed. -/
def brokenText : String := "a: log(\"b\\nc\");"

/-- The concrete tree of the call. -/
def brokenTree : SourceNode :=
  { type := "program", start := 0, stop := 15, children := [
    { type := "labeled_statement", start := 0, stop := 15, children := [
      { type := "statement_identifier", field := some "label", start := 0, stop := 1 },
      { type := ":", isNamed := false, start := 1, stop := 2 },
      { type := "expression_statement", field := some "body", start := 3, stop := 15, children := [
        { type := "call_expression", start := 3, stop := 14, children := [
          { type := "identifier", field := some "function", start := 3, stop := 6 },
          { type := "arguments", field := some "arguments", start := 6, stop := 14, children := [
            { type := "(", isNamed := false, start := 6, stop := 7 },
            { type := "string", start := 7, stop := 13, children := [
              { type := "\"", isNamed := false, start := 7, stop := 8 },
              { type := "string_fragment", start := 8, stop := 9 },
              { type := "escape_sequence", start := 9, stop := 11 },
              { type := "string_fragment", start := 11, stop := 12 },
              { type := "\"", isNamed := false, start := 12, stop := 13 }] },
            { type := ")", isNamed := false, start := 13, stop := 14 }] }] },
        { type := ";", isNamed := false, start := 14, stop := 15 }] }] }] }

/-- A reader that knows the call and takes every other text for malformed. -/
def readBroken (_ : Language) (text : String) : Option SourceNode :=
  if text = brokenText then some brokenTree else none

theorem names_readBroken (language : Language) (text : String) (root : SourceNode)
    (h : readBroken language text = some root) : root.NamesUnbroken (Source.ofString text) := by
  unfold readBroken at h
  split at h
  · rename_i same
    cases h
    rw [same]
    decide +kernel
  · contradiction

/-- The call is listed on six lines. -/
theorem ofTextBy_listing_broken :
    ∃ program listing, ofTextBy readBroken .javascript brokenText = .ok program ∧ program.dump = .ok listing ∧
      listing.splitLines.length = 6 ∧ List.Forall₂ Shows (levels 0 program) listing.splitLines ∧
      Outline.ofListing? listing = some program.outline := by
  have ok : (ofTextBy readBroken .javascript brokenText).isOk = true := by decide +kernel
  obtain ⟨program, lowered⟩ := exists_of_isOk ok
  have six : ((ofTextBy readBroken .javascript brokenText).toOption.bind fun program =>
      program.dump.toOption.map fun listing => listing.splitLines.length) = some 6 := by decide +kernel
  rw [lowered] at six
  cases shown : program.dump with
  | error e => rw [Except.toOption, Option.bind_some, shown] at six; contradiction
  | ok listing =>
    rw [Except.toOption, Option.bind_some, shown] at six
    obtain ⟨lines, outline⟩ := ofTextBy_listing names_readBroken lowered shown
    exact ⟨program, listing, lowered, shown, Option.some.inj six, lines, outline⟩

end Node

end ScopeExit
