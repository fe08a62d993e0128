import ScopeExit.Proofs.Source.Lowering
import ScopeExit.Proofs.Source.Position
/-!
Where the nodes of a program are in its text.

A node of a program gets the span of a concrete node, but not always of the one that its rule is for: parentheses and
type wrappers hand on the node inside of them, a piece of a template takes the span of what follows it, and a default
value or the body of a clause comes from a concrete node further below.  What they have in common is that the concrete
node is part of the one that is lowered.  `Placed` says so of a whole tree with respect to the stretch of bytes of that
node, and it does not mind a wider stretch, so the rules only have to use nodes below their own.

The concrete trees are assumed to be nested: a node does not end before it starts, and its children are within it.

**Main result.** `ofTextBy_located`: every span of a program that is known is a stretch of its text, encloses the spans
of all nodes below, and for a name holds that name.
-/
namespace ScopeExit

/-! ### Concrete trees -/

namespace SourceNode

/-- The children of every node are within it. -/
def Nested (root : SourceNode) : Prop :=
  ∀ n ∈ root.nodes, n.start ≤ n.stop ∧ ∀ c ∈ n.children, n.start ≤ c.start ∧ c.stop ≤ n.stop

instance (root : SourceNode) : Decidable root.Nested := inferInstanceAs (Decidable (∀ _ ∈ _, _))

/-- A nested tree within the stretch of bytes of a node. -/
structure Below (c n : SourceNode) : Prop where
  nested : c.Nested
  first : n.start ≤ c.start
  last : c.stop ≤ n.stop

section

variable {n c d : SourceNode}

theorem Nested.order (h : n.Nested) : n.start ≤ n.stop := (h n (nodes_eq n ▸ List.mem_cons_self)).1

theorem Nested.self (h : n.Nested) : n.Below n := ⟨h, le_rfl, le_rfl⟩

theorem Nested.child (h : n.Nested) (mem : c ∈ n.children) : c.Below n where
  nested m hm := h m (nodes_eq n ▸ List.mem_cons_of_mem n (mem_nodesOfAll.mpr ⟨c, mem, hm⟩))
  first := ((h n (nodes_eq n ▸ List.mem_cons_self)).2 c mem).1
  last := ((h n (nodes_eq n ▸ List.mem_cons_self)).2 c mem).2

theorem Below.trans (h : d.Below c) (k : c.Below n) : d.Below n :=
  ⟨h.nested, k.first.trans h.first, h.last.trans k.last⟩

theorem Below.child (h : c.Below n) (mem : d ∈ c.children) : d.Below n := (h.nested.child mem).trans h

theorem Below.part (h : c.Below n) {field : String} (part : c.part? field = some d) : d.Below n :=
  h.child (List.mem_of_find?_eq_some part)

theorem Below.named (h : c.Below n) (mem : d ∈ c.named) : d.Below n := h.child (List.mem_of_mem_filter mem)

/-- All nodes of a nested tree are within it. -/
theorem Nested.below (h : n.Nested) (mem : d ∈ n.nodes) : d.Below n := by
  suffices all : ∀ bound n, n.height ≤ bound → n.Nested → d ∈ n.nodes → d.Below n from all _ n le_rfl h mem
  intro bound
  induction bound with
  | zero => exact fun n low => absurd n.height_pos (Nat.not_lt.mpr low)
  | succ bound ih =>
    intro n low h mem
    rw [nodes_eq, List.mem_cons, mem_nodesOfAll] at mem
    rcases mem with rfl | ⟨c, among, mem⟩
    · exact h.self
    · have below := h.child among
      exact (ih c (height_le_of_mem among low) below.nested mem).trans below

end

end SourceNode

/-! ### Program trees -/

/-- A tree within a stretch of bytes: a node that only fills a place, or a node with a stretch of its own that all
nodes below it are within.  A name is what its stretch holds. -/
inductive Node.Placed (source : Source) : Nat → Nat → Node → Prop
  | empty {low high : Nat} : Placed source low high .emptyNode
  | located {low high start stop : Nat} {n : Node} (first : low ≤ start) (order : start ≤ stop) (last : stop ≤ high)
      (span : n.span = source.span start stop)
      (name : n.kind = .identifier → ∃ t, source.text? start stop = some t ∧ n.value = .text t)
      (params : ∀ p ∈ n.params, Placed source start stop p)
      (children : ∀ c ∈ n.children, Placed source start stop c) : Placed source low high n

namespace Node

variable {source : Source} {low high low' high' : Nat} {n d : Node}

theorem Placed.widen (h : Placed source low high n) (first : low' ≤ low) (last : high ≤ high') :
    Placed source low' high' n := by
  cases h with
  | empty => exact .empty
  | located first' order last' span name params children =>
    exact .located (first.trans first') order (last'.trans last) span name params children

/-- All nodes of a tree are where the tree is. -/
theorem Placed.walk (h : Placed source low high n) : ∀ d ∈ n.walk, Placed source low high d := by
  induction h with
  | empty =>
    intro d hd
    rw [List.mem_singleton.mp hd]
    exact .empty
  | @located low high start stop n first order last span name params children ihParams ihChildren =>
    intro d hd
    rw [walk_eq, List.mem_cons, List.mem_append, mem_walkAll, mem_walkAll] at hd
    rcases hd with rfl | ⟨p, mem, hd⟩ | ⟨c, mem, hd⟩
    · exact .located first order last span name params children
    · exact (ihParams p mem d hd).widen first last
    · exact (ihChildren c mem d hd).widen first last

end Node

namespace Lowering

open Node

/-- A program tree within the stretch of bytes of a concrete node. -/
def Within (lo : Lowering) (n : SourceNode) (m : Node) : Prop := Placed lo.source n.start n.stop m

/-- The lowering of the nodes of one text, of which the rules make use, gives trees that are within those nodes. -/
structure Local (lo : Lowering) : Prop where
  statement : ∀ {n : SourceNode}, n.Nested → Gives (lo.Within n) (lo.statement n)
  expression : ∀ {n : SourceNode}, n.Nested → Gives (lo.Within n) (lo.expression n)

section Rules

variable {lo : Lowering} {n c : SourceNode}

theorem Within.widen {m : Node} (h : lo.Within c m) (below : c.Below n) : lo.Within n m :=
  Placed.widen h below.first below.last

theorem gives_widen {x : Lowered Node} (h : Gives (lo.Within c) x) (below : c.Below n) : Gives (lo.Within n) x :=
  h.imp fun _ hm => hm.widen below

theorem within_empty : lo.Within n .emptyNode := .empty

/-- A node that is no name, with the span of the concrete node that it is made from. -/
theorem within_of {m : Node} (hn : n.Nested) (span : m.span = lo.span n) (other : m.kind ≠ .identifier)
    (params : ∀ p ∈ m.params, lo.Within n p) (children : ∀ c ∈ m.children, lo.Within n c) : lo.Within n m :=
  .located le_rfl hn.order le_rfl span (fun name => absurd name other) params children

theorem within_plain {kind : NodeKind} {children : List Node} (hn : n.Nested) (other : kind ≠ .identifier)
    (hc : ∀ c ∈ children, lo.Within n c) : lo.Within n (lo.plain kind n children) :=
  within_of hn rfl other nofun hc

theorem within_literal {value : Datum} (hn : n.Nested) : lo.Within n (lo.literal n value) :=
  within_of hn rfl nofun nofun nofun

/-- The value of a name is the text of its stretch. -/
theorem within_identifier (hn : n.Nested) : Gives (lo.Within n) (lo.identifier n) := by
  unfold Lowering.identifier Lowering.text Lowering.textOf
  cases found : lo.source.text? n.start n.stop with
  | none => exact gives_error _
  | some t => exact .pure (.located le_rfl hn.order le_rfl rfl (fun _ => ⟨t, found, rfl⟩) nofun nofun)

theorem below_part (hn : n.Nested) (field : String) : Gives (fun c => c.Below n) (part n field) := by
  unfold Lowering.part
  cases part : n.part? field with
  | none => exact gives_error _
  | some c => exact .pure (hn.self.part part)

theorem below_element {o : Option SourceNode} (among : ∀ d ∈ o, d ∈ c.children) (below : c.Below n) :
    Gives (fun d => d.Below n) (element o) := by
  cases o with
  | none => exact gives_error _
  | some d => exact .pure (below.child (among d rfl))

theorem below_named {o : Option SourceNode} (among : ∀ d ∈ o, d ∈ c.named) (below : c.Below n) :
    Gives (fun d => d.Below n) (element o) :=
  below_element (fun d hd => List.mem_of_mem_filter (among d hd)) below

theorem below_sought {p : SourceNode → Bool} (hn : n.Nested) :
    Gives (fun d => d.Below n) (sought (n.children.find? p)) := by
  cases found : n.children.find? p with
  | none => exact gives_error _
  | some d => exact .pure (hn.child (List.mem_of_find?_eq_some found))

variable (h : lo.Local)
include h

theorem Local.expressionOf (below : c.Below n) : Gives (lo.Within n) (lo.expression c) :=
  gives_widen (h.expression below.nested) below

theorem Local.statementOf (below : c.Below n) : Gives (lo.Within n) (lo.statement c) :=
  gives_widen (h.statement below.nested) below

variable (hn : n.Nested)
include hn

theorem Local.expressionPart (field : String) : Gives (lo.Within n) (lo.expressionPart (n.part? field)) := by
  unfold Lowering.expressionPart
  cases part : n.part? field with
  | none => exact gives_error _
  | some c => exact h.expressionOf (hn.self.part part)

theorem Local.statementPart (field : String) : Gives (lo.Within n) (lo.statementPart (n.part? field)) := by
  unfold Lowering.statementPart
  cases part : n.part? field with
  | none => exact gives_error _
  | some c => exact h.statementOf (hn.self.part part)

theorem Local.optionalFirst : Gives (fun es => ∀ e ∈ es, lo.Within n e) (lo.optionalFirst n) := by
  unfold Lowering.optionalFirst
  split
  · exact .pure nofun
  · rename_i e rest named
    have below : e.Below n := hn.self.named (named ▸ List.mem_cons_self)
    exact (h.expressionOf below).bind fun e he => .pure (List.forall_mem_singleton.mpr he)

/-- The lowered children of a node, of which some may be left out. -/
theorem Local.statementsOf {cs : List SourceNode} (among : ∀ c ∈ cs, c ∈ n.children) :
    Gives (fun ss => ∀ s ∈ ss, lo.Within n s) (do
      let lowered ← cs.mapM lo.statement
      pure (lowered.filter fun s => !s.isEmpty)) :=
  (Gives.mapM fun c hc => h.statementOf (hn.child (among c hc))).bind fun _ hss =>
    .pure fun s hs => hss s (List.mem_of_mem_filter hs)

/-! ### Statements -/

theorem Local.statements : Gives (fun ss => ∀ s ∈ ss, lo.Within n s) (lo.statements n) :=
  h.statementsOf hn fun _ => List.mem_of_mem_filter

theorem Local.block : Gives (lo.Within n) (lo.block n) :=
  (h.statements hn).bind fun _ hss => .pure (within_plain hn nofun hss)

theorem Local.expressionStatement : Gives (lo.Within n) (lo.expressionStatement n) := by
  unfold Lowering.expressionStatement
  split
  · exact .pure within_empty
  · rename_i e rest named
    have below : e.Below n := hn.self.named (named ▸ List.mem_cons_self)
    exact (h.expressionOf below).bind fun e he => .pure (within_plain hn nofun (List.forall_mem_singleton.mpr he))

theorem Local.returnStatement : Gives (lo.Within n) (lo.returnStatement n) :=
  (h.optionalFirst hn).bind fun _ hes => .pure (within_plain hn nofun hes)

theorem Local.throwStatement : Gives (lo.Within n) (lo.throwStatement n) := by
  unfold Lowering.throwStatement
  split
  · exact gives_error _
  · exact (h.optionalFirst hn).bind fun _ hes => .pure (within_plain hn nofun hes)

omit h in
theorem within_jump {kind : NodeKind} (other : kind ≠ .identifier) : Gives (lo.Within n) (lo.jump kind n) :=
  (gives_any _).bind fun _ _ => .pure (within_of hn rfl other nofun nofun)

theorem Local.alternative : Gives (lo.Within n) (lo.alternative n) := by
  unfold Lowering.alternative
  split
  · rename_i s rest named
    split
    · exact h.statementOf (hn.self.named (named ▸ List.mem_cons_self))
    · exact h.statement hn
  · exact h.statement hn

theorem Local.ifStatement : Gives (lo.Within n) (lo.ifStatement n) := by
  refine (h.expressionPart hn _).bind fun condition hc => ?_
  refine (h.statementPart hn _).bind fun consequence hs => ?_
  have finish {otherwise : List Node} (ho : ∀ s ∈ otherwise, lo.Within n s) : Gives (lo.Within n)
      (.ok (lo.plain .conditionalStatement n (condition :: consequence :: otherwise))) :=
    .pure (within_plain hn nofun (List.forall_mem_cons.mpr ⟨hc, List.forall_mem_cons.mpr ⟨hs, ho⟩⟩))
  cases part : n.part? "alternative" with
  | none => exact finish nofun
  | some a =>
    have below := hn.self.part part
    exact (gives_widen (h.alternative below.nested) below).bind fun s hs => finish (List.forall_mem_singleton.mpr hs)

theorem Local.whileStatement : Gives (lo.Within n) (lo.whileStatement n) := by
  refine (h.expressionPart hn _).bind fun condition hc => ?_
  refine (h.statementPart hn _).bind fun body hb => ?_
  exact .pure (within_plain hn nofun (by simp [hc, hb]))

theorem Local.doStatement : Gives (lo.Within n) (lo.doStatement n) := by
  refine (h.statementPart hn _).bind fun body hb => ?_
  refine (h.expressionPart hn _).bind fun condition hc => ?_
  exact .pure (within_plain hn nofun (by simp [hb, hc]))

theorem Local.loopCondition (field : String) : Gives (lo.Within n) (lo.loopCondition (n.part? field)) := by
  unfold Lowering.loopCondition
  split
  · exact .pure within_empty
  · rename_i c found
    have below := hn.self.part found
    split
    · exact .pure within_empty
    · split
      · split
        · rename_i e rest named
          exact h.expressionOf (below.named (named ▸ List.mem_cons_self))
        · exact .pure within_empty
      · exact h.expressionOf below

theorem Local.loopStart (field : String) : Gives (lo.Within n) (lo.loopStart (n.part? field)) := by
  unfold Lowering.loopStart
  split
  · exact .pure within_empty
  · rename_i c found
    have below := hn.self.part found
    split
    · exact .pure within_empty
    · split
      · exact h.statementOf below
      · -- the statement has the span of its expression
        refine (h.expression below.nested).bind fun e he => ?_
        have own : lo.Within c (lo.plain .expressionStatement c [e]) :=
          within_plain below.nested nofun (List.forall_mem_singleton.mpr he)
        exact .pure (own.widen below)

theorem Local.forStatement : Gives (lo.Within n) (lo.forStatement n) := by
  refine (h.loopStart hn _).bind fun start hs => ?_
  refine (h.loopCondition hn _).bind fun condition hc => ?_
  have finish {step : Node} (hu : lo.Within n step) : Gives (lo.Within n) (do
      let body ← lo.statementPart (n.part? "body")
      pure (lo.plain .forLoop n [start, condition, step, body])) :=
    (h.statementPart hn _).bind fun body hb => .pure (within_plain hn nofun (by simp [hs, hc, hu, hb]))
  cases found : (n.part? "increment").or (n.part? "update") with
  | none => exact finish within_empty
  | some u =>
    have below : u.Below n := by
      rcases Option.or_eq_some_iff.mp found with part | ⟨-, part⟩ <;> exact hn.self.part part
    exact (h.expressionOf below).bind fun step hu => finish hu

theorem Local.labeledStatement : Gives (lo.Within n) (lo.labeledStatement n) := by
  refine (gives_any _).bind fun l _ => (gives_any _).bind fun label _ => ?_
  refine (h.statementPart hn _).bind fun body hb => ?_
  split
  · exact .pure (within_of hn rfl nofun nofun (List.forall_mem_singleton.mpr hb))
  · exact .pure (within_of hn rfl nofun nofun (List.forall_mem_singleton.mpr hb))

theorem Local.declarator : Gives (lo.Within n) (lo.declarator n) := by
  refine (gives_any _).bind fun name _ => ?_
  split
  · exact gives_error _
  · refine (gives_any _).bind fun name _ => ?_
    cases part : n.part? "value" with
    | none => exact .pure (within_of hn rfl nofun nofun nofun)
    | some v =>
      refine (h.expressionOf (hn.self.part part)).bind fun e he => ?_
      exact .pure (within_of hn rfl nofun nofun (List.forall_mem_singleton.mpr he))

theorem Local.declaration : Gives (lo.Within n) (lo.declaration n) := by
  refine (gives_any _).bind fun first _ => ?_
  refine (Gives.mapM fun c hc => ?_).bind fun declarators hd => .pure (within_of hn rfl nofun nofun hd)
  have below := hn.child (List.mem_of_mem_filter hc)
  exact gives_widen (h.declarator below.nested) below

theorem Local.forOfStatement : Gives (lo.Within n) (lo.forOfStatement n) := by
  have finish (isOf : Bool) : Gives (lo.Within n) (if !isOf then lo.unsupported n "for...in loop"
      else if n.hasToken "await" then lo.unsupported n "for await...of loop"
      else do
        let left ← part n "left"
        let name ← lo.loopVariable left.height left
        let iterable ← lo.expressionPart (n.part? "right")
        let body ← lo.statementPart (n.part? "body")
        pure { kind := .forOfLoop, value := .text name, children := [iterable, body],
               span := lo.span n }) := by
    split
    · exact gives_error _
    · split
      · exact gives_error _
      · refine (gives_any _).bind fun left _ => (gives_any _).bind fun name _ => ?_
        refine (h.expressionPart hn _).bind fun iterable hi => ?_
        refine (h.statementPart hn _).bind fun body hb => ?_
        exact .pure (within_of hn rfl nofun nofun (by simp [hi, hb]))
  unfold Lowering.forOfStatement
  cases part : n.part? "operator" with
  | none => exact finish false
  | some o => exact (gives_any _).bind fun t _ => finish (t == "of")

theorem Local.switchClause : Gives (lo.Within n) (lo.switchClause n) := by
  have among : ∀ c ∈ (n.parts "body").filter fun s => !s.isComment, c ∈ n.children :=
    fun _ hc => List.mem_of_mem_filter (List.mem_of_mem_filter hc)
  refine (h.statementsOf hn among).bind fun body hb => ?_
  split
  · exact .pure (within_plain hn nofun hb)
  · exact (h.expressionPart hn _).bind fun test ht =>
      .pure (within_plain hn nofun (List.forall_mem_cons.mpr ⟨ht, hb⟩))

theorem Local.switchStatement : Gives (lo.Within n) (lo.switchStatement n) := by
  refine (below_part hn _).bind fun body hb => ?_
  refine (Gives.mapM (Q := lo.Within n) fun c hc => ?_).bind fun clauses hcs => ?_
  · have below := hb.named hc
    exact gives_widen (h.switchClause below.nested) below
  · exact (h.expressionPart hn _).bind fun discriminant hd =>
      .pure (within_plain hn nofun (List.forall_mem_cons.mpr ⟨hd, hcs⟩))

omit hn in
/-- The block that is a part of a node below. -/
theorem Local.blockOf {β : Type} {Q : β → Prop} {next : Node → Lowered β} (below : c.Below n)
    (hnext : ∀ b, lo.Within n b → Gives Q (next b)) : Gives Q (do next (← lo.block (← part c "body"))) :=
  (below_part below.nested _).bind fun _ hb =>
    (gives_widen (h.block hb.nested) (hb.trans below)).bind hnext

theorem Local.catchClause : Gives (lo.Within n) (lo.catchClause n) := by
  have finish (value : Datum) : Gives (lo.Within n) (do
        let body ← lo.block (← part n "body")
        pure { kind := .catch, value, children := [body], span := lo.span n }) :=
    h.blockOf hn.self fun body hb => .pure (within_of hn rfl nofun nofun (List.forall_mem_singleton.mpr hb))
  unfold Lowering.catchClause
  cases part : n.part? "parameter" with
  | none => exact finish .null
  | some p =>
    dsimp only
    split
    · exact gives_error _
    · exact (gives_any _).bind fun name _ => finish (.text name)

theorem Local.tryStatement : Gives (lo.Within n) (lo.tryStatement n) := by
  have finish {handler finalizer : Node} (hh : lo.Within n handler) (hf : lo.Within n finalizer) :
      Gives (lo.Within n) (do
        let body ← lo.block (← part n "body")
        pure (lo.plain .try n [body, handler, finalizer])) :=
    h.blockOf hn.self fun body hb => .pure (within_plain hn nofun (by simp [hb, hh, hf]))
  have withFinalizer {handler : Node} {f : SourceNode} (hh : lo.Within n handler)
      (found : n.part? "finalizer" = some f) : Gives (lo.Within n) (do
        let finalizer ← lo.block (← part f "body")
        let body ← lo.block (← part n "body")
        pure (lo.plain .try n [body, handler, finalizer])) :=
    h.blockOf (hn.self.part found) fun f hf => finish hh hf
  unfold Lowering.tryStatement
  cases handler : n.part? "handler" with
  | none =>
    cases finalizer : n.part? "finalizer" with
    | none => exact finish within_empty within_empty
    | some f => exact withFinalizer within_empty finalizer
  | some c =>
    have below := hn.self.part handler
    refine (gives_widen (h.catchClause below.nested) below).bind fun c hc => ?_
    cases finalizer : n.part? "finalizer" with
    | none => exact finish hc within_empty
    | some f => exact withFinalizer hc finalizer

/-! ### Expressions -/

theorem Local.parenthesized : Gives (lo.Within n) (lo.parenthesized n) := by
  unfold Lowering.parenthesized
  split
  · exact gives_error _
  · rename_i e rest named
    exact h.expressionOf (hn.self.named (named ▸ List.mem_cons_self))

theorem Local.binary : Gives (lo.Within n) (lo.binary n) := by
  have finish (op : Text) : Gives (lo.Within n) (do
      let left ← lo.expressionPart (n.part? "left")
      let right ← lo.expressionPart (n.part? "right")
      pure { kind := if isLogical op then .logical else .binary, value := .text op,
             children := [left, right], span := lo.span n }) := by
    refine (h.expressionPart hn _).bind fun left hl => ?_
    refine (h.expressionPart hn _).bind fun right hr => ?_
    refine .pure (within_of hn rfl ?_ nofun (by simp [hl, hr]))
    dsimp only
    split <;> nofun
  unfold Lowering.binary
  cases part : n.part? "operator" with
  | some o => exact (gives_any _).bind fun op _ => finish op
  | none => exact (gives_any _).bind fun o _ => (gives_any _).bind fun op _ => finish op

theorem Local.unary : Gives (lo.Within n) (lo.unary n) := by
  have finish {o a : SourceNode} (below : a.Below n) : Gives (lo.Within n) (do
      let op ← lo.text o
      pure { kind := .unary, value := .text op, children := [← lo.expression a], span := lo.span n }) := by
    refine (gives_any _).bind fun op _ => (h.expressionOf below).bind fun e he => ?_
    exact .pure (within_of hn rfl nofun nofun (List.forall_mem_singleton.mpr he))
  have last := below_element (fun _ => List.mem_of_getLast?) hn.self
  cases operator : n.part? "operator" with
  | none =>
    simp only [Lowering.unary, operator, pure_bind]
    exact (gives_any _).bind fun o _ => last.bind fun a below => finish below
  | some o =>
    cases operand : n.part? "argument" with
    | none =>
      simp only [Lowering.unary, operator, operand, pure_bind]
      exact (gives_any _).bind fun o _ => last.bind fun a below => finish below
    | some a =>
      simp only [Lowering.unary, operator, operand, pure_bind]
      exact finish (hn.self.part operand)

omit hn in
theorem Local.target (below : c.Below n) : Gives (lo.Within n) (lo.target c) := by
  refine (h.expressionOf below).bind fun t ht => ?_
  split
  · exact .pure ht
  · exact .pure ht
  · exact .pure ht
  · exact gives_error _

theorem Local.update : Gives (lo.Within n) (lo.update n) := by
  have finish {operand : SourceNode} (op : Text) (below : operand.Below n) : Gives (lo.Within n) (do
      let first ← element n.children.head?
      pure { kind := .update, value := .text op, isLeading := isUpdateToken first,
             children := [← lo.target operand], span := lo.span n }) := by
    refine (gives_any _).bind fun first _ => (h.target below).bind fun t ht => ?_
    exact .pure (within_of hn rfl nofun nofun (List.forall_mem_singleton.mpr ht))
  unfold Lowering.update
  cases operand : n.part? "argument" with
  | some a =>
    refine (Gives.pure (P := fun a => a.Below n) (hn.self.part operand)).bind fun a below => ?_
    cases operator : n.part? "operator" with
    | some o => exact (gives_any _).bind fun op _ => finish op below
    | none => exact (gives_any _).bind fun o _ => finish _ below
  | none =>
    refine (below_sought hn).bind fun a below => ?_
    cases operator : n.part? "operator" with
    | some o => exact (gives_any _).bind fun op _ => finish op below
    | none => exact (gives_any _).bind fun o _ => finish _ below

theorem Local.assignment : Gives (lo.Within n) (lo.assignment n) := by
  have finish (op : Text) : Gives (lo.Within n) (do
      let left ← lo.target (← part n "left")
      let right ← lo.expressionPart (n.part? "right")
      pure { kind := .assign, value := .text op, children := [left, right], span := lo.span n }) := by
    refine (below_part hn _).bind fun left below => (h.target below).bind fun left hl => ?_
    refine (h.expressionPart hn _).bind fun right hr => ?_
    exact .pure (within_of hn rfl nofun nofun (by simp [hl, hr]))
  unfold Lowering.assignment
  cases part : n.part? "operator" with
  | some o => exact (gives_any _).bind fun op _ => finish op
  | none => exact finish "="

theorem Local.row {kind : NodeKind} (other : kind ≠ .identifier) : Gives (lo.Within n) (lo.row kind n) :=
  (Gives.mapM fun _ hc => h.expressionOf (hn.self.named hc)).bind fun _ hes => .pure (within_plain hn other hes)

theorem Local.arguments (field : String) :
    Gives (fun es => ∀ e ∈ es, lo.Within n e) (lo.arguments (n.part? field)) := by
  unfold Lowering.arguments
  split
  · exact .pure nofun
  · rename_i c part
    split
    · exact gives_error _
    · exact Gives.mapM fun e he => h.expressionOf ((hn.self.part part).named he)

theorem Local.call {kind : NodeKind} (other : kind ≠ .identifier) (field : String) :
    Gives (lo.Within n) (lo.call kind field n) := by
  refine (h.expressionPart hn _).bind fun callee hc => ?_
  refine (h.arguments hn _).bind fun arguments ha => ?_
  exact .pure (within_plain hn other (List.forall_mem_cons.mpr ⟨hc, ha⟩))

theorem Local.member : Gives (lo.Within n) (lo.member n) := by
  refine (gives_any _).bind fun p _ => (gives_any _).bind fun name _ => ?_
  refine (h.expressionPart hn _).bind fun object ho => ?_
  exact .pure (within_of hn rfl nofun nofun (List.forall_mem_singleton.mpr ho))

theorem Local.subscript : Gives (lo.Within n) (lo.subscript n) := by
  refine (h.expressionPart hn _).bind fun object ho => ?_
  refine (h.expressionPart hn _).bind fun key hk => ?_
  exact .pure (within_plain hn nofun (by simp [ho, hk]))

theorem Local.ternary : Gives (lo.Within n) (lo.ternary n) := by
  refine (h.expressionPart hn _).bind fun condition hc => ?_
  refine (h.expressionPart hn _).bind fun consequence hs => ?_
  refine (h.expressionPart hn _).bind fun alternative ha => ?_
  exact .pure (within_plain hn nofun (by simp [hc, hs, ha]))

theorem Local.typed {o : Option SourceNode} (among : ∀ e ∈ o, e ∈ n.named) : Gives (lo.Within n) (lo.typed o) :=
  (below_named among hn.self).bind fun _ below => h.expressionOf below

theorem Local.awaitExpression : Gives (lo.Within n) (lo.awaitExpression n) :=
  (below_named (fun _ => List.mem_of_head?) hn.self).bind fun _ below => (h.expressionOf below).bind fun _ he =>
    .pure (within_plain hn nofun (List.forall_mem_singleton.mpr he))

theorem Local.yieldExpression : Gives (lo.Within n) (lo.yieldExpression n) := by
  unfold Lowering.yieldExpression
  split
  · exact gives_error _
  · exact (h.optionalFirst hn).bind fun es hes => .pure (within_plain hn nofun hes)

omit h hn in
/-- A stretch of raw text is where the node next to it is. -/
theorem within_chunk {near : SourceNode} (below : near.Below n) (start stop : Nat) :
    Gives (fun es => ∀ e ∈ es, lo.Within n e) (lo.chunk start stop near) := by
  unfold Lowering.chunk
  split
  · exact (gives_any _).bind fun t _ =>
      .pure (List.forall_mem_singleton.mpr ((within_literal below.nested).widen below))
  · exact .pure nofun

/-- The pieces of a template from any place on, by the nodes that are left. -/
theorem Local.templatePieces (cs : List SourceNode) (among : ∀ c ∈ cs, c ∈ n.children) (place : Nat) :
    Gives (fun es => ∀ e ∈ es, lo.Within n e) (lo.templatePieces n place cs) := by
  induction cs generalizing place with
  | nil => exact within_chunk hn.self place (n.stop - 1)
  | cons c rest ih =>
    have below := hn.child (among c List.mem_cons_self)
    have later := ih fun d hd => among d (List.mem_cons_of_mem c hd)
    unfold Lowering.templatePieces
    split
    · refine (within_chunk below place c.start).bind fun before hb => ?_
      refine (gives_any _).bind fun t _ => (gives_any _).bind fun value _ => ?_
      refine (later c.stop).bind fun after ha => .pure ?_
      have own : lo.Within n (lo.literal c (.text value)) := (within_literal below.nested).widen below
      exact List.forall_mem_append.mpr ⟨hb, List.forall_mem_cons.mpr ⟨own, ha⟩⟩
    · split
      · refine (within_chunk below place c.start).bind fun before hb => ?_
        refine (below_named (fun _ => List.mem_of_head?) below).bind fun e he => ?_
        refine (h.expressionOf he).bind fun value hv => ?_
        refine (later c.stop).bind fun after ha => .pure ?_
        exact List.forall_mem_append.mpr ⟨hb, List.forall_mem_cons.mpr ⟨hv, ha⟩⟩
      · exact later place

theorem Local.template : Gives (lo.Within n) (lo.template n) :=
  (h.templatePieces hn n.children (fun _ hc => hc) _).bind fun _ hes => .pure (within_plain hn nofun hes)

/-! ### Functions and objects -/

theorem Local.plainParameter : Gives (lo.Within n) (lo.plainParameter n) := by
  unfold Lowering.plainParameter
  split
  · exact (gives_any _).bind fun name _ => .pure (within_of hn rfl nofun nofun nofun)
  · split
    · refine (gives_any _).bind fun left _ => ?_
      split
      · exact gives_error _
      · refine (gives_any _).bind fun name _ => (h.expressionPart hn _).bind fun default hd => ?_
        exact .pure (within_of hn rfl nofun nofun (List.forall_mem_singleton.mpr hd))
    · exact gives_error _

theorem Local.typedParameter : Gives (lo.Within n) (lo.typedParameter n) := by
  unfold Lowering.typedParameter
  dsimp only
  split
  · split
    · exact gives_error _
    · refine (gives_any _).bind fun name _ => ?_
      cases part : n.part? "value" with
      | none => exact .pure (within_of hn rfl nofun nofun nofun)
      | some d =>
        refine (h.expressionOf (hn.self.part part)).bind fun e he => ?_
        exact .pure (within_of hn rfl nofun nofun (List.forall_mem_singleton.mpr he))
  · exact gives_error _

omit hn in
theorem Local.parameter (below : c.Below n) : Gives (lo.Within n) (lo.parameter c) := by
  refine gives_widen ?_ below
  unfold Lowering.parameter
  split
  · exact h.typedParameter below.nested
  · exact h.plainParameter below.nested

theorem Local.parameters : Gives (fun ps => ∀ p ∈ ps, lo.Within n p) (lo.parameters n) := by
  unfold Lowering.parameters
  split
  · rename_i p part
    exact (h.parameter (hn.self.part part)).bind fun p hp => .pure (List.forall_mem_singleton.mpr hp)
  · rename_i ps part
    exact Gives.mapM fun p hp => h.parameter ((hn.self.part part).named hp)
  · exact .pure nofun

theorem Local.function {kind : NodeKind} (other : kind ≠ .identifier) :
    Gives (lo.Within n) (lo.function kind n) := by
  have finish (name : Text) {body : Node} (hb : lo.Within n body) : Gives (lo.Within n) (do
      let params ← lo.parameters n
      pure { kind, value := .text name, params, children := [body], isAsync := n.hasToken "async",
             isGenerator := n.hasToken "*", span := lo.span n }) :=
    (h.parameters hn).bind fun params hp =>
      .pure (within_of hn rfl other hp (List.forall_mem_singleton.mpr hb))
  have named (name : Text) : Gives (lo.Within n) (do
      let bodyNode ← part n "body"
      let body ← if bodyNode.type == "statement_block" then lo.block bodyNode
        else lo.expression bodyNode
      let params ← lo.parameters n
      pure { kind, value := .text name, params, children := [body], isAsync := n.hasToken "async",
             isGenerator := n.hasToken "*", span := lo.span n }) := by
    refine (below_part hn _).bind fun b below => ?_
    split
    · exact (gives_widen (h.block below.nested) below).bind fun body hb => finish name hb
    · exact (h.expressionOf below).bind fun body hb => finish name hb
  unfold Lowering.function
  cases part : n.part? "name" with
  | none => exact named anonymousName
  | some m => exact (gives_any _).bind fun name _ => named name

theorem Local.memberValue : Gives (fun r => lo.Within n r.2) (lo.memberValue n) := by
  unfold Lowering.memberValue
  split
  · exact (h.expressionPart hn _).bind fun value hv => .pure hv
  · split
    · exact (within_identifier hn).bind fun value hv => .pure hv
    · split
      · exact (h.function hn (by decide)).bind fun value hv => .pure hv
      · exact gives_error _

theorem Local.objectMember : Gives (lo.Within n) (lo.objectMember n) := by
  refine (h.memberValue hn).bind fun ⟨key, value⟩ hv => ?_
  refine (gives_any _).bind fun key _ => (gives_any _).bind fun key _ => ?_
  exact .pure (within_of hn rfl nofun nofun (List.forall_mem_singleton.mpr hv))

theorem Local.object : Gives (lo.Within n) (lo.object n) := by
  refine (Gives.mapM (Q := lo.Within n) fun c hc => ?_).bind fun _ hps => .pure (within_plain hn nofun hps)
  have below := hn.self.named hc
  exact gives_widen (h.objectMember below.nested) below

/-! ### The rules -/

theorem Local.statementRule : Gives (lo.Within n) (lo.statementRule n) := by
  unfold Lowering.statementRule
  split
  · exact h.expressionStatement hn
  · exact h.declaration hn
  · exact h.declaration hn
  · exact h.returnStatement hn
  · exact h.ifStatement hn
  · exact h.whileStatement hn
  · exact h.doStatement hn
  · exact h.forStatement hn
  · exact h.forOfStatement hn
  · exact h.function hn (by decide)
  · exact h.function hn (by decide)
  · exact h.throwStatement hn
  · exact h.block hn
  · exact within_jump hn (by decide)
  · exact within_jump hn (by decide)
  · exact h.tryStatement hn
  · exact h.switchStatement hn
  · exact h.labeledStatement hn
  · exact .pure within_empty

theorem Local.lowerStatement : Gives (lo.Within n) (lo.lowerStatement n) := by
  unfold Lowering.lowerStatement
  split
  · exact .pure within_empty
  · split
    · exact h.statementRule hn
    · exact (h.expression hn).bind fun e he => .pure (within_plain hn nofun (List.forall_mem_singleton.mpr he))

theorem Local.lowerExpression : Gives (lo.Within n) (lo.lowerExpression n) := by
  unfold Lowering.lowerExpression
  split
  · exact within_identifier hn
  · exact within_identifier hn
  · exact (gives_any _).bind fun x _ => .pure (within_literal hn)
  · exact (gives_any _).bind fun t _ => .pure (within_literal hn)
  · exact h.template hn
  · exact .pure (within_literal hn)
  · exact .pure (within_literal hn)
  · exact .pure (within_literal hn)
  · exact h.binary hn
  · exact h.unary hn
  · exact h.update hn
  · exact h.call hn (by decide) _
  · exact h.call hn (by decide) _
  · exact h.member hn
  · exact h.subscript hn
  · exact h.parenthesized hn
  · exact h.row hn (by decide)
  · exact h.object hn
  · exact h.assignment hn
  · exact h.assignment hn
  · exact h.function hn (by decide)
  · exact h.function hn (by decide)
  · exact h.function hn (by decide)
  · exact h.function hn (by decide)
  · exact h.ternary hn
  · exact h.awaitExpression hn
  · exact h.yieldExpression hn
  · exact h.row hn (by decide)
  · split
    · split
      · exact h.typed hn fun _ => List.mem_of_head?
      · exact h.typed hn fun _ => List.mem_of_head?
      · exact h.typed hn fun _ => List.mem_of_head?
      · exact h.typed hn fun _ => List.mem_of_getLast?
      · exact gives_error _
    · exact gives_error _

end Rules

theorem local_lowering (source : Source) (language : Language) (fuel : Nat) :
    (lowering source language fuel).Local := by
  -- the parts of a node are lowered with one step less, as in `sound_lowering`
  induction fuel with
  | zero => exact ⟨fun _ => gives_error _, fun _ => gives_error _⟩
  | succ fuel ih => exact ⟨ih.lowerStatement, ih.lowerExpression⟩

end Lowering

namespace Node

theorem lower_placed {root : SourceNode} {source : Source} {language : Language} (nested : root.Nested) :
    Gives (Placed source root.start root.stop) (root.lower source language) :=
  ((Lowering.local_lowering source language _).statements nested).bind fun _ hss =>
    .pure (Lowering.within_plain nested (by decide) hss)

/-- What the span of a node says about a text, if it is known. -/
structure Located (text : String) (n : Node) : Prop where
  covers : (Source.ofString text).Covers n.span
  encloses : ∀ d ∈ n.walk, d.span.isUnknown = false → Source.Encloses n.span d.span
  /-- The bytes of a name are those between the two ends of its span. -/
  spelled : n.kind = .identifier → ∃ s : String, n.value = .text (Text.ofString s) ∧
    s.toUTF8 = text.toUTF8.extract ((Source.ofString text).placeOf n.span.startLine n.span.startCol)
      ((Source.ofString text).placeOf n.span.endLine n.span.endCol)

theorem Placed.located_of_known {text : String} {low high : Nat} {n : Node}
    (h : Placed (Source.ofString text) low high n) (inside : high ≤ (Source.ofString text).size)
    (known : n.span.isUnknown = false) : n.Located text := by
  cases h with
  | empty => contradiction
  | @located _ _ start stop _ first order last span name params children =>
    have stopInside := last.trans inside
    refine ⟨span ▸ Source.covers_span text order stopInside, fun d hd knownBelow => ?_, fun kind => ?_⟩
    · have own : Placed (Source.ofString text) start stop n := .located le_rfl order le_rfl span name params children
      cases own.walk d hd with
      | empty => contradiction
      | located first' order' last' span' =>
        rw [span, span']
        exact Source.encloses_span text first' order' last' stopInside
    · obtain ⟨t, spelled, value⟩ := name kind
      obtain ⟨s, rfl, bytes⟩ := Source.toUTF8_of_text? spelled
      obtain ⟨startPlace, stopPlace⟩ := Source.placeOf_span text order stopInside
      rw [span, startPlace, stopPlace]
      exact ⟨s, value, bytes⟩

/-- A node without a known span only fills a place. -/
theorem Placed.eq_empty_of_unknown {text : String} {low high : Nat} {n : Node}
    (h : Placed (Source.ofString text) low high n) (inside : high ≤ (Source.ofString text).size)
    (unknown : n.span.isUnknown = true) : n = .emptyNode := by
  cases h with
  | empty => rfl
  | located _ order last span =>
    rw [span, Source.span_known text (order.trans (last.trans inside))] at unknown
    contradiction

/-- **The spans of a program are correct and nested.**  All nodes have one but those that only fill a place. -/
theorem ofTextBy_located {read : Language → String → Option SourceNode}
    (nested : ∀ language text root, read language text = some root →
      root.Nested ∧ root.stop ≤ (Source.ofString text).size)
    {language : Language} {text : String} {program : Node} (lowered : ofTextBy read language text = .ok program) :
    ∀ n ∈ program.walk, (n.span.isUnknown = false → n.Located text) ∧
      (n.span.isUnknown = true → n = .emptyNode) := by
  unfold ofTextBy at lowered
  cases found : read language text with
  | none => simp [found] at lowered
  | some root =>
    rw [found] at lowered
    obtain ⟨rooted, inside⟩ := nested language text root found
    intro n hn
    have placed := (lower_placed rooted program lowered).walk n hn
    exact ⟨placed.located_of_known inside, placed.eq_empty_of_unknown inside⟩

/-- A call over two lines, with a template and with names that are longer in bytes than in characters. -/
def accentedText : String := "log(ä,\n  `é$\x7bü\x7d`);"

/-- The concrete tree of the call. -/
def accentedTree : SourceNode :=
  { type := "program", start := 0, stop := 21, children := [
    { type := "expression_statement", start := 0, stop := 21, children := [
      { type := "call_expression", start := 0, stop := 20, children := [
        { type := "identifier", field := some "function", start := 0, stop := 3 },
        { type := "arguments", field := some "arguments", start := 3, stop := 20, children := [
          { type := "(", isNamed := false, start := 3, stop := 4 },
          { type := "identifier", start := 4, stop := 6 },
          { type := ",", isNamed := false, start := 6, stop := 7 },
          { type := "template_string", start := 10, stop := 19, children := [
            { type := "`", isNamed := false, start := 10, stop := 11 },
            { type := "string_fragment", start := 11, stop := 13 },
            { type := "template_substitution", start := 13, stop := 18, children := [
              { type := "$\x7b", isNamed := false, start := 13, stop := 15 },
              { type := "identifier", start := 15, stop := 17 },
              { type := "\x7d", isNamed := false, start := 17, stop := 18 }] },
            { type := "`", isNamed := false, start := 18, stop := 19 }] },
          { type := ")", isNamed := false, start := 19, stop := 20 }] }] },
      { type := ";", isNamed := false, start := 20, stop := 21 }] }] }

/-- A reader that knows the call and takes every other text for malformed. -/
def readAccented (_ : Language) (text : String) : Option SourceNode :=
  if text = accentedText then some accentedTree else none

theorem nested_readAccented (language : Language) (text : String) (root : SourceNode)
    (h : readAccented language text = some root) : root.Nested ∧ root.stop ≤ (Source.ofString text).size := by
  unfold readAccented at h
  split at h
  · next same =>
    cases h
    rw [same]
    decide +kernel
  · contradiction

/-- The name in the template is in the second line, at bytes 7 and 8. -/
theorem ofTextBy_located_accented :
    ∃ program, ofTextBy readAccented .javascript accentedText = .ok program ∧
      (∀ n ∈ program.walk, n.span.isUnknown = false → n.Located accentedText) ∧
      ∃ n ∈ program.walk, n.kind = .identifier ∧ n.span = ⟨2, 7, 2, 9⟩ ∧ n.Located accentedText := by
  have ok : (ofTextBy readAccented .javascript accentedText).isOk = true := by decide +kernel
  have found : (match ofTextBy readAccented .javascript accentedText with
      | .ok program => program.walk.any fun n => n.kind = .identifier ∧ n.span = ⟨2, 7, 2, 9⟩
      | .error _ => false) = true := by decide +kernel
  obtain ⟨program, lowered⟩ := exists_of_isOk ok
  have located := ofTextBy_located nested_readAccented lowered
  rw [lowered] at found
  obtain ⟨n, mem, same⟩ := List.any_eq_true.mp found
  obtain ⟨kind, span⟩ := of_decide_eq_true same
  exact ⟨program, lowered, fun n mem => (located n mem).1, n, mem, kind, span,
    (located n mem).1 (by rw [span]; decide)⟩

end Node

end ScopeExit
