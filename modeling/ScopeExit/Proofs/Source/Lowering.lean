import ScopeExit.Grammar.Program
import ScopeExit.Proofs.Tree.Layout
import Mathlib.Tactic.FinCases
/-!
Lowering gives well-formed program trees.

The rules of lowering use the parts of a concrete node by the names of their parts, and most of what a
program tree has to look like follows from what they do with them: a part that is missing is a failure
or leaves its slot empty, and whatever stands in the place of an expression or of a statement goes
through the lowering of that role.  The rest depends on the grammar.  `Documented` is the excerpt of it
that matters: which tokens are operators, what a `for` loop may start with and that the declaration of
a function has a block.

`Gives` carries a property through a rule that may fail, and `Sound` is what the rules assume of the
lowering of the parts.  Every rule keeps it, so a tree of any height is lowered to one that fits.

**Main result.** `ofTextBy_formed`: whatever reads the text, if it keeps to the grammar, then a program
that comes out is well-formed.
-/
namespace ScopeExit

/-! ### Concrete trees -/

namespace SourceNode

/-- The operators between two operands. -/
def binaryOperators : List String :=
  ["&&", "||", "??", "+", "-", "*", "/", "%", "**", "==", "!=", "===", "!==", "<", ">", "<=", ">=",
    "&", "|", "^", "<<", ">>", ">>>", "in", "instanceof"]

/-- The operators in front of an operand. -/
def unaryOperators : List String := ["!", "~", "-", "+", "typeof", "void", "delete"]

/-- The operators of assignments that combine values. -/
def combiningOperators : List String :=
  ["+=", "-=", "*=", "/=", "%=", "**=", "&=", "|=", "^=", "<<=", ">>=", ">>>=", "&&=", "||=", "??="]

/-- The operators of a type of expressions. -/
def operators? : String → Option (List String)
  | "binary_expression" => some binaryOperators
  | "unary_expression" => some unaryOperators
  | "update_expression" => some ["++", "--"]
  | "augmented_assignment_expression" => some combiningOperators
  | _ => none

/-- The types of statements that a `for` loop may start with. -/
def startTypes : List String :=
  ["lexical_declaration", "variable_declaration", "expression_statement", "empty_statement"]

/-- What the grammar says about a node and its parts. -/
structure Obeys (language : Language) (source : Source) (n : SourceNode) : Prop where
  /-- An operation has one of its operators, spelled as it is called. -/
  operator : ∀ ops ∈ operators? n.type, ∃ o ∈ n.part? "operator", o.type ∈ ops ∧
    source.text? o.start o.stop = some (Text.ofString o.type)
  operand : n.type = "unary_expression" → (n.part? "argument").isSome = true
  /-- An assignment that does not combine values has no operator. -/
  simple : n.type = "assignment_expression" → n.part? "operator" = none
  start : n.type = "for_statement" → ∀ i ∈ n.part? "initializer",
    Lowering.isStatementType language i.type = true → i.type ∈ startTypes
  body : n.type = "function_declaration" ∨ n.type = "generator_function_declaration" →
    ∀ b ∈ n.part? "body", b.type = "statement_block"

mutual

/-- A node and all nodes below it. -/
def nodes : SourceNode → List SourceNode
  | ⟨type, isNamed, field, start, stop, children⟩ =>
    ⟨type, isNamed, field, start, stop, children⟩ :: nodesOfAll children

/-- The nodes of several trees. -/
def nodesOfAll : List SourceNode → List SourceNode
  | [] => []
  | n :: ns => nodes n ++ nodesOfAll ns

end

theorem height_pos (n : SourceNode) : 0 < n.height := by
  cases n
  exact Nat.succ_pos _

theorem height_le_heightOfAll {ns : List SourceNode} {c : SourceNode} (mem : c ∈ ns) : c.height ≤ heightOfAll ns := by
  induction ns with
  | nil => contradiction
  | cons n ns ih =>
    rcases List.mem_cons.mp mem with rfl | mem
    · exact Nat.le_max_left _ _
    · exact (ih mem).trans (Nat.le_max_right _ _)

/-- A child is not as high as its parent. -/
theorem height_le_of_mem {n c : SourceNode} {bound : Nat} (mem : c ∈ n.children) (low : n.height ≤ bound + 1) :
    c.height ≤ bound := by
  cases n
  exact (height_le_heightOfAll mem).trans (Nat.le_of_succ_le_succ low)

/-- Every node of a concrete tree is as the grammar says. -/
def Documented (language : Language) (source : Source) (root : SourceNode) : Prop :=
  ∀ n ∈ root.nodes, n.Obeys language source

section Documented

variable {language : Language} {source : Source} {n c : SourceNode}

theorem obeys_iff : n.Obeys language source ↔
    (∀ ops ∈ operators? n.type, ∃ o ∈ n.part? "operator", o.type ∈ ops ∧
      source.text? o.start o.stop = some (Text.ofString o.type)) ∧
    (n.type = "unary_expression" → (n.part? "argument").isSome = true) ∧
    (n.type = "assignment_expression" → (n.part? "operator").isNone = true) ∧
    (n.type = "for_statement" → ∀ i ∈ n.part? "initializer",
      Lowering.isStatementType language i.type = true → i.type ∈ startTypes) ∧
    (n.type = "function_declaration" ∨ n.type = "generator_function_declaration" →
      ∀ b ∈ n.part? "body", b.type = "statement_block") := by
  simp only [Option.isNone_iff_eq_none]
  exact ⟨fun ⟨a, b, c, d, e⟩ => ⟨a, b, c, d, e⟩, fun ⟨a, b, c, d, e⟩ => ⟨a, b, c, d, e⟩⟩

instance : Decidable (n.Obeys language source) := decidable_of_iff _ obeys_iff.symm

instance : Decidable (n.Documented language source) :=
  inferInstanceAs (Decidable (∀ _ ∈ n.nodes, _))

theorem nodes_eq (n : SourceNode) : n.nodes = n :: nodesOfAll n.children := by
  cases n; rfl

theorem mem_nodesOfAll {m : SourceNode} {ns : List SourceNode} :
    m ∈ nodesOfAll ns ↔ ∃ n ∈ ns, m ∈ n.nodes := by
  induction ns with
  | nil => simp [nodesOfAll]
  | cons n ns ih => simp [nodesOfAll, ih]

theorem Documented.own (h : n.Documented language source) : n.Obeys language source :=
  h n (nodes_eq n ▸ List.mem_cons_self)

theorem Obeys.exists_operator (h : n.Obeys language source) {ops : List String}
    (has : operators? n.type = some ops) : ∃ o, n.part? "operator" = some o ∧ o.type ∈ ops ∧
      source.text? o.start o.stop = some (Text.ofString o.type) :=
  h.operator ops has

theorem Documented.child (h : n.Documented language source) (mem : c ∈ n.children) :
    c.Documented language source :=
  fun m hm => h m (nodes_eq n ▸ List.mem_cons_of_mem n (mem_nodesOfAll.mpr ⟨c, mem, hm⟩))

theorem Documented.part (h : n.Documented language source) {field : String}
    (part : n.part? field = some c) : c.Documented language source :=
  h.child (List.mem_of_find?_eq_some part)

theorem Documented.named (h : n.Documented language source) (mem : c ∈ n.named) :
    c.Documented language source :=
  h.child (List.mem_of_mem_filter mem)

end Documented

end SourceNode

/-! ### Operators -/

theorem handlesBinary_of_mem {op : String} (mem : op ∈ SourceNode.binaryOperators)
    (other : Lowering.isLogical (Text.ofString op) = false) : HandlesBinary (Text.ofString op) := by
  unfold SourceNode.binaryOperators at mem
  fin_cases mem
  -- the logical operators are in the list too, but they are not in the table of the evaluator
  iterate 3 exact absurd other (by decide)
  all_goals exact fun _ => rfl

theorem handlesLogical_of_isLogical {op : Text} (h : Lowering.isLogical op = true) : HandlesLogical op := by
  simpa [Lowering.isLogical, HandlesLogical, or_assoc] using h

theorem handlesUnary_of_mem {op : String} (mem : op ∈ SourceNode.unaryOperators) :
    HandlesUnary (Text.ofString op) := by
  unfold SourceNode.unaryOperators at mem
  fin_cases mem
  iterate 6 exact .inr fun _ => rfl
  exact .inl rfl

/-- The operator in front of the equals sign is one of the table, or it is a logical one. -/
theorem handlesAssign_of_mem {op : String} (mem : op ∈ SourceNode.combiningOperators) :
    HandlesAssign (Text.ofString op) := by
  unfold SourceNode.combiningOperators at mem
  fin_cases mem
  iterate 12 exact .inr (.inr fun _ => rfl)
  all_goals exact .inr (.inl fun _ => rfl)

/-! ### Results that may fail -/

/-- A lowering that succeeds has a result with a property. -/
def Gives {α : Type} (P : α → Prop) (x : Lowered α) : Prop := ∀ a, x = .ok a → P a

section Gives

variable {α β : Type} {P : α → Prop} {Q : β → Prop}

theorem Gives.pure {a : α} (h : P a) : Gives P (.ok a) := fun _ ha => Except.ok.inj ha ▸ h

theorem gives_error (e : Failure) : Gives P (.error e) := nofun

theorem gives_any (x : Lowered α) : Gives (fun _ => True) x := fun _ _ => trivial

theorem Gives.bind {x : Lowered α} {f : α → Lowered β} (h : Gives P x)
    (next : ∀ a, P a → Gives Q (f a)) : Gives Q (x >>= f) := by
  intro b hb
  cases x with
  | error e => contradiction
  | ok a => exact next a (h a rfl) b hb

theorem Gives.imp {P' : α → Prop} {x : Lowered α} (h : Gives P x) (imp : ∀ a, P a → P' a) :
    Gives P' x :=
  fun a ha => imp a (h a ha)

theorem exists_of_isOk {x : Lowered α} (h : x.isOk = true) : ∃ a, x = .ok a := by
  cases x with
  | error e => contradiction
  | ok a => exact ⟨a, rfl⟩

theorem Gives.mapM {f : α → Lowered β} {l : List α} (h : ∀ a ∈ l, Gives Q (f a)) :
    Gives (fun bs => ∀ b ∈ bs, Q b) (l.mapM f) := by
  induction l with
  | nil => exact .pure nofun
  | cons a l ih =>
    rw [List.mapM_cons]
    refine (h a List.mem_cons_self).bind fun b hb => ?_
    refine (ih fun a' ha' => h a' (List.mem_cons_of_mem a ha')).bind fun bs hbs => ?_
    exact .pure (List.forall_mem_cons.mpr ⟨hb, hbs⟩)

end Gives

namespace Lowering

open Node

/-- The lowering of the nodes of one text, of which the rules make use, gives trees for the slots of
statements and of expressions. -/
structure Sound (lo : Lowering) : Prop where
  statement : ∀ {n : SourceNode}, n.Documented lo.language lo.source →
    Gives (Fills .statement) (lo.statement n)
  start : ∀ {n : SourceNode}, n.Documented lo.language lo.source → n.type ∈ SourceNode.startTypes →
    Gives (Fills .start) (lo.statement n)
  expression : ∀ {n : SourceNode}, n.Documented lo.language lo.source →
    Gives (Fills .expression) (lo.expression n)

section Rules

variable {lo : Lowering} {n : SourceNode} (h : lo.Sound) (hn : n.Documented lo.language lo.source)
include h hn

/-! ### Parts -/

theorem Sound.expressionPart (field : String) :
    Gives (Fills .expression) (lo.expressionPart (n.part? field)) := by
  unfold Lowering.expressionPart
  cases part : n.part? field with
  | none => exact gives_error _
  | some c => exact h.expression (hn.part part)

theorem Sound.statementPart (field : String) :
    Gives (Fills .statement) (lo.statementPart (n.part? field)) := by
  unfold Lowering.statementPart
  cases part : n.part? field with
  | none => exact gives_error _
  | some c => exact h.statement (hn.part part)

omit h in
theorem gives_part (field : String) :
    Gives (fun c => n.part? field = some c ∧ c.Documented lo.language lo.source) (part n field) := by
  unfold Lowering.part
  cases part : n.part? field with
  | none => exact gives_error _
  | some c => exact .pure ⟨rfl, hn.part part⟩

theorem Sound.optionalFirst :
    Gives (fun es => es.length ≤ 1 ∧ ∀ e ∈ es, Fills .expression e) (lo.optionalFirst n) := by
  unfold Lowering.optionalFirst
  split
  · exact .pure ⟨Nat.zero_le 1, nofun⟩
  · rename_i e rest named
    have he : e.Documented lo.language lo.source := hn.named (named ▸ List.mem_cons_self)
    exact (h.expression he).bind fun e he => .pure ⟨Nat.le_refl 1, by simpa using he⟩

/-! ### Statements -/

theorem Sound.statements : Gives (fun ss => ∀ s ∈ ss, Fills .listed s) (lo.statements n) := by
  refine (Gives.mapM fun c hc => h.statement (hn.child (List.mem_of_mem_filter hc))).bind
    fun ss hss => ?_
  refine .pure fun s hs => ?_
  obtain ⟨mem, full⟩ := List.mem_filter.mp hs
  exact (hss s mem).listed (by simpa using full)

theorem Sound.block {s : Slot} (kind : s.admits .block = true) : Gives (Fills s) (lo.block n) :=
  (h.statements hn).bind fun _ hss => .pure (fills_of_children kind rfl hss rfl)

theorem Sound.expressionStatement {s : Slot} (kind : s.admits .expressionStatement = true)
    (empty : s.admits .empty = true) : Gives (Fills s) (lo.expressionStatement n) := by
  unfold Lowering.expressionStatement
  split
  · exact .pure (fills_empty empty)
  · rename_i e rest named
    have he : e.Documented lo.language lo.source := hn.named (named ▸ List.mem_cons_self)
    exact (h.expression he).bind fun e he =>
      .pure (fills_of_children kind rfl (And.intro he rfl) rfl)

theorem Sound.returnStatement : Gives (Fills .listed) (lo.returnStatement n) :=
  (h.optionalFirst hn).bind fun _ hes => .pure (fills_of_children rfl rfl hes rfl)

theorem Sound.throwStatement : Gives (Fills .listed) (lo.throwStatement n) := by
  unfold Lowering.throwStatement
  split
  · exact gives_error _
  · rename_i full
    refine (Gives.bind (P := fun es => ∃ e, es = [e] ∧ Fills .expression e) ?_ fun es hes => ?_)
    · unfold Lowering.optionalFirst
      split
      · rename_i named
        simp [named] at full
      · rename_i e rest named
        have he : e.Documented lo.language lo.source := hn.named (named ▸ List.mem_cons_self)
        exact (h.expression he).bind fun e he => .pure ⟨e, rfl, he⟩
    · obtain ⟨e, rfl, he⟩ := hes
      exact .pure (fills_of_children rfl rfl (And.intro he rfl) rfl)

omit h hn in
theorem gives_jump {kind : NodeKind} (isJump : kind = .break ∨ kind = .continue) :
    Gives (Fills .listed) (lo.jump kind n) := by
  refine (gives_any _).bind fun label _ => .pure ?_
  rcases isJump with rfl | rfl <;> exact fills_of_children rfl rfl rfl rfl

theorem Sound.alternative : Gives (Fills .statement) (lo.alternative n) := by
  unfold Lowering.alternative
  split
  · rename_i s rest named
    split
    · exact h.statement (hn.named (named ▸ List.mem_cons_self))
    · exact h.statement hn
  · exact h.statement hn

theorem Sound.ifStatement : Gives (Fills .listed) (lo.ifStatement n) := by
  refine (h.expressionPart hn _).bind fun condition hc => ?_
  refine (h.statementPart hn _).bind fun consequence hs => ?_
  have finish {otherwise : List Node} (len : otherwise.length ≤ 1)
      (ho : ∀ s ∈ otherwise, Fills .statement s) : Gives (Fills .listed)
        (.ok (lo.plain .conditionalStatement n (condition :: consequence :: otherwise))) :=
    .pure (fills_of_children rfl rfl (And.intro hc (And.intro hs (And.intro len ho))) rfl)
  cases part : n.part? "alternative" with
  | none => exact finish (Nat.zero_le 1) nofun
  | some a =>
    exact (h.alternative (hn.part part)).bind fun s hs => finish (Nat.le_refl 1) (by simpa using hs)

theorem Sound.whileStatement : Gives (Fills .listed) (lo.whileStatement n) := by
  refine (h.expressionPart hn _).bind fun condition hc => ?_
  refine (h.statementPart hn _).bind fun body hb => ?_
  exact .pure (fills_of_children rfl rfl (And.intro hc (And.intro hb rfl)) rfl)

theorem Sound.doStatement : Gives (Fills .listed) (lo.doStatement n) := by
  refine (h.statementPart hn _).bind fun body hb => ?_
  refine (h.expressionPart hn _).bind fun condition hc => ?_
  exact .pure (fills_of_children rfl rfl (And.intro hb (And.intro hc rfl)) rfl)

theorem Sound.loopCondition (field : String) :
    Gives (Fills .part) (lo.loopCondition (n.part? field)) := by
  have part {e : SourceNode} (he : e.Documented lo.language lo.source) :
      Gives (Fills .part) (lo.expression e) :=
    (h.expression he).imp fun _ he => he.part
  unfold Lowering.loopCondition
  split
  · exact .pure (fills_empty rfl)
  · rename_i c found
    have hc := hn.part found
    split
    · exact .pure (fills_empty rfl)
    · split
      · split
        · rename_i e rest named
          exact part (hc.named (named ▸ List.mem_cons_self))
        · exact .pure (fills_empty rfl)
      · exact part hc

theorem Sound.loopStart (type : n.type = "for_statement") :
    Gives (Fills .start) (lo.loopStart (n.part? "initializer")) := by
  unfold Lowering.loopStart
  split
  · exact .pure (fills_empty rfl)
  · rename_i i found
    have hi := hn.part found
    split
    · exact .pure (fills_empty rfl)
    · split
      · rename_i statement
        exact h.start hi (hn.own.start type i found statement)
      · exact (h.expression hi).bind fun e he =>
          .pure (fills_of_children rfl rfl (And.intro he rfl) rfl)

theorem Sound.forStatement (type : n.type = "for_statement") :
    Gives (Fills .listed) (lo.forStatement n) := by
  refine (h.loopStart hn type).bind fun start hs => ?_
  refine (h.loopCondition hn _).bind fun condition hc => ?_
  have finish {step : Node} (hu : Fills .part step) : Gives (Fills .listed) (do
      let body ← lo.statementPart (n.part? "body")
      pure (lo.plain .forLoop n [start, condition, step, body])) :=
    (h.statementPart hn _).bind fun body hb => .pure (fills_of_children rfl rfl
      (And.intro hs (And.intro hc (And.intro hu (And.intro hb rfl)))) rfl)
  cases found : (n.part? "increment").or (n.part? "update") with
  | none => exact finish (fills_empty rfl)
  | some u =>
    have hu : u.Documented lo.language lo.source := by
      rcases Option.or_eq_some_iff.mp found with part | ⟨-, part⟩ <;> exact hn.part part
    exact (h.expression hu).bind fun e he => finish he.part

theorem Sound.labeledStatement : Gives (Fills .listed) (lo.labeledStatement n) := by
  refine (gives_any _).bind fun l _ => (gives_any _).bind fun label _ => ?_
  refine (h.statementPart hn _).bind fun body hb => ?_
  split
  · exact .pure (fills_of_children rfl rfl (And.intro hb rfl) rfl)
  · exact .pure (fills_of_children rfl ⟨rfl, rfl⟩ (And.intro hb rfl) rfl)

theorem Sound.declarator : Gives (Fills .declarator) (lo.declarator n) := by
  refine (gives_any _).bind fun name _ => ?_
  split
  · exact gives_error _
  · refine (gives_any _).bind fun name _ => ?_
    have finish {initial : List Node} (len : initial.length ≤ 1)
        (hi : ∀ e ∈ initial, Fills .expression e) : Gives (Fills .declarator)
          (.ok { kind := .declarator, value := .text name, children := initial, span := lo.span n }) :=
      .pure (fills_of_children rfl ⟨name, rfl⟩ (And.intro len hi) rfl)
    cases part : n.part? "value" with
    | none => exact finish (Nat.zero_le 1) nofun
    | some v =>
      exact (h.expression (hn.part part)).bind fun e he =>
        finish (Nat.le_refl 1) (by simpa using he)

theorem Sound.declaration {s : Slot} (kind : s.admits .declaration = true) :
    Gives (Fills s) (lo.declaration n) := by
  refine (gives_any _).bind fun first _ => ?_
  refine (Gives.mapM fun c hc => h.declarator (hn.child (List.mem_of_mem_filter hc))).bind
    fun declarators hd => ?_
  exact .pure (fills_of_children kind ⟨_, rfl⟩ hd rfl)

theorem Sound.forOfStatement : Gives (Fills .listed) (lo.forOfStatement n) := by
  have finish (isOf : Bool) : Gives (Fills .listed) (if !isOf then lo.unsupported n "for...in loop"
      else if n.hasToken "await" then lo.unsupported n "for await...of loop"
      else do
        let left ← part n "left"
        let name ← lo.loopVariable left.height left
        let iterable ← lo.expressionPart (n.part? "right")
        let body ← lo.statementPart (n.part? "body")
        pure { kind := .forOfLoop, value := .text name, children := [iterable, body],
               span := lo.span n }) := by
    split
    · exact gives_error _
    · split
      · exact gives_error _
      · refine (gives_any _).bind fun left _ => (gives_any _).bind fun name _ => ?_
        refine (h.expressionPart hn _).bind fun iterable hi => ?_
        refine (h.statementPart hn _).bind fun body hb => ?_
        exact .pure (fills_of_children rfl ⟨name, rfl⟩ (And.intro hi (And.intro hb rfl)) rfl)
  unfold Lowering.forOfStatement
  cases part : n.part? "operator" with
  | none => exact finish false
  | some o => exact (gives_any _).bind fun t _ => finish (t == "of")

theorem Sound.clauseStatements :
    Gives (fun ss => ∀ s ∈ ss, Fills .listed s) (lo.clauseStatements n) := by
  have child {c : SourceNode} (hc : c ∈ (n.parts "body").filter fun s => !s.isComment) :
      c ∈ n.children := List.mem_of_mem_filter (List.mem_of_mem_filter hc)
  refine (Gives.mapM fun c hc => h.statement (hn.child (child hc))).bind fun ss hss => ?_
  refine .pure fun s hs => ?_
  obtain ⟨mem, full⟩ := List.mem_filter.mp hs
  exact (hss s mem).listed (by simpa using full)

theorem Sound.switchClause : Gives (Fills .clause) (lo.switchClause n) := by
  refine (h.clauseStatements hn).bind fun body hb => ?_
  split
  · exact .pure (fills_of_children rfl rfl hb rfl)
  · exact (h.expressionPart hn _).bind fun test ht =>
      .pure (fills_of_children rfl rfl (And.intro ht hb) rfl)

theorem Sound.switchStatement : Gives (Fills .listed) (lo.switchStatement n) := by
  refine (gives_part hn _).bind fun body ⟨_, hb⟩ => ?_
  refine (Gives.mapM fun c hc => h.switchClause (hb.named hc)).bind fun clauses hc => ?_
  refine (h.expressionPart hn _).bind fun discriminant hd => ?_
  exact .pure (fills_of_children rfl rfl (And.intro hd hc) rfl)

theorem Sound.catchClause : Gives (Fills .handler) (lo.catchClause n) := by
  have finish {value : Datum} (hv : value = .null ∨ ∃ t, value = .text t) :
      Gives (Fills .handler) (do
        let body ← lo.block (← part n "body")
        pure { kind := .catch, value, children := [body], span := lo.span n }) :=
    (gives_part hn _).bind fun body ⟨_, hb⟩ => (h.block hb rfl).bind fun body hb =>
      .pure (fills_of_children rfl hv (And.intro hb rfl) rfl)
  unfold Lowering.catchClause
  cases part : n.part? "parameter" with
  | none => exact finish (.inl rfl)
  | some p =>
    dsimp only
    split
    · exact gives_error _
    · exact (gives_any _).bind fun name _ => finish (.inr ⟨name, rfl⟩)

theorem Sound.tryStatement : Gives (Fills .listed) (lo.tryStatement n) := by
  have finish {handler finalizer : Node} (hh : Fills .handler handler)
      (hf : Fills .finalizer finalizer) : Gives (Fills .listed) (do
        let body ← lo.block (← part n "body")
        pure (lo.plain .try n [body, handler, finalizer])) :=
    (gives_part hn _).bind fun body ⟨_, hb⟩ => (h.block hb rfl).bind fun body hb =>
      .pure (fills_of_children rfl rfl (And.intro hb (And.intro hh (And.intro hf rfl))) rfl)
  have withFinalizer {handler : Node} {f : SourceNode} (hh : Fills .handler handler)
      (found : n.part? "finalizer" = some f) : Gives (Fills .listed) (do
        let finalizer ← lo.block (← part f "body")
        let body ← lo.block (← part n "body")
        pure (lo.plain .try n [body, handler, finalizer])) :=
    (gives_part (hn.part found) _).bind fun b hb => (h.block hb.2 rfl).bind fun f hf => finish hh hf
  unfold Lowering.tryStatement
  cases handler : n.part? "handler" with
  | none =>
    cases finalizer : n.part? "finalizer" with
    | none => exact finish (fills_empty rfl) (fills_empty rfl)
    | some f => exact withFinalizer (fills_empty rfl) finalizer
  | some c =>
    refine (h.catchClause (hn.part handler)).bind fun c hc => ?_
    cases finalizer : n.part? "finalizer" with
    | none => exact finish hc (fills_empty rfl)
    | some f => exact withFinalizer hc finalizer

/-! ### Expressions -/

omit h hn in
theorem gives_identifier : Gives (Fills .expression) (lo.identifier n) :=
  (gives_any _).bind fun name _ => .pure (fills_of_children rfl ⟨name, rfl⟩ rfl rfl)

omit h hn in
theorem fills_literal {value : Datum} (scalar : value.isScalar = true) :
    Fills .expression (lo.literal n value) :=
  fills_of_children rfl scalar rfl rfl

theorem Sound.parenthesized : Gives (Fills .expression) (lo.parenthesized n) := by
  unfold Lowering.parenthesized
  split
  · exact gives_error _
  · rename_i e rest named
    exact h.expression (hn.named (named ▸ List.mem_cons_self))

omit h in
/-- The text of an operator is one of those of the type of its expression. -/
theorem gives_operator {ops : List String} (has : SourceNode.operators? n.type = some ops)
    {o : SourceNode} (part : n.part? "operator" = some o) :
    Gives (fun t => ∃ op ∈ ops, t = Text.ofString op) (lo.text o) := by
  obtain ⟨o', part', mem, text⟩ := hn.own.exists_operator has
  obtain rfl : o = o' := Option.some.inj (part.symm.trans part')
  unfold Lowering.text Lowering.textOf
  rw [text]
  exact .pure ⟨o.type, mem, rfl⟩

theorem Sound.binary (type : n.type = "binary_expression") : Gives (Fills .expression) (lo.binary n) := by
  have has : SourceNode.operators? n.type = some SourceNode.binaryOperators := by rw [type]; rfl
  obtain ⟨o, part, -⟩ := hn.own.exists_operator has
  unfold Lowering.binary
  rw [part]
  refine (gives_operator hn has part).bind fun op ⟨s, mem, hop⟩ => ?_
  refine (h.expressionPart hn _).bind fun left hl => ?_
  refine (h.expressionPart hn _).bind fun right hr => ?_
  cases logical : isLogical op with
  | true =>
    exact .pure (fills_of_children rfl ⟨op, rfl, handlesLogical_of_isLogical logical⟩
      (And.intro hl (And.intro hr rfl)) rfl)
  | false =>
    exact .pure (fills_of_children rfl ⟨op, rfl, hop ▸ handlesBinary_of_mem mem (hop ▸ logical)⟩
      (And.intro hl (And.intro hr rfl)) rfl)

theorem Sound.unary (type : n.type = "unary_expression") : Gives (Fills .expression) (lo.unary n) := by
  have has : SourceNode.operators? n.type = some SourceNode.unaryOperators := by rw [type]; rfl
  obtain ⟨o, part, -⟩ := hn.own.exists_operator has
  obtain ⟨a, operand⟩ := Option.isSome_iff_exists.mp (hn.own.operand type)
  simp only [Lowering.unary, part, operand, pure_bind]
  refine (gives_operator hn has part).bind fun op ⟨s, mem, hop⟩ => ?_
  refine (h.expression (hn.part operand)).bind fun e he => ?_
  exact .pure (fills_of_children rfl ⟨op, rfl, hop ▸ handlesUnary_of_mem mem⟩ (And.intro he rfl) rfl)

theorem Sound.target : Gives (Fills .target) (lo.target n) := by
  refine (h.expression hn).bind fun t ht => ?_
  split
  · rename_i kind
    exact .pure ⟨by rw [kind]; rfl, ht.fits⟩
  · rename_i kind
    exact .pure ⟨by rw [kind]; rfl, ht.fits⟩
  · rename_i kind
    exact .pure ⟨by rw [kind]; rfl, ht.fits⟩
  · exact gives_error _

theorem Sound.update (type : n.type = "update_expression") : Gives (Fills .expression) (lo.update n) := by
  have has : SourceNode.operators? n.type = some ["++", "--"] := by rw [type]; rfl
  obtain ⟨o, part, -⟩ := hn.own.exists_operator has
  have finish {operand : SourceNode} (ho : operand.Documented lo.language lo.source) :
      Gives (Fills .expression) (do
        let op ← lo.text o
        let first ← element n.children.head?
        pure { kind := .update, value := .text op, isLeading := isUpdateToken first,
               children := [← lo.target operand], span := lo.span n }) := by
    refine (gives_operator hn has part).bind fun op ⟨s, mem, hop⟩ => (gives_any _).bind fun first _ => ?_
    refine (h.target ho).bind fun t ht => ?_
    refine .pure (fills_of_children rfl ⟨op, rfl, ?_⟩ (And.intro ht rfl) rfl)
    rw [hop]
    fin_cases mem
    · exact .inl rfl
    · exact .inr rfl
  unfold Lowering.update
  cases operand : n.part? "argument" with
  | some a =>
    simp only [part, pure_bind]
    exact finish (hn.part operand)
  | none =>
    cases found : n.children.find? SourceNode.isNamed with
    | none => exact gives_error _
    | some a =>
      rw [part]
      exact (Gives.pure (hn.child (List.mem_of_find?_eq_some found))).bind fun a ha => finish ha

theorem Sound.assignment
    (type : n.type = "assignment_expression" ∨ n.type = "augmented_assignment_expression") :
    Gives (Fills .expression) (lo.assignment n) := by
  have finish {op : Text} (handled : HandlesAssign op) : Gives (Fills .expression) (do
      let left ← lo.target (← part n "left")
      let right ← lo.expressionPart (n.part? "right")
      pure { kind := .assign, value := .text op, children := [left, right], span := lo.span n }) := by
    refine (gives_part hn _).bind fun left ⟨_, hl⟩ => (h.target hl).bind fun left hl => ?_
    refine (h.expressionPart hn _).bind fun right hr => ?_
    exact .pure (fills_of_children rfl ⟨op, rfl, handled⟩ (And.intro hl (And.intro hr rfl)) rfl)
  unfold Lowering.assignment
  rcases type with type | type
  · rw [hn.own.simple type]
    exact finish (.inl rfl)
  · have has : SourceNode.operators? n.type = some SourceNode.combiningOperators := by rw [type]; rfl
    obtain ⟨o, part, -⟩ := hn.own.exists_operator has
    rw [part]
    exact (gives_operator hn has part).bind fun op ⟨s, mem, hop⟩ =>
      finish (hop ▸ handlesAssign_of_mem mem)

theorem Sound.row {kind : NodeKind} (isRow : kind = .array ∨ kind = .sequence) :
    Gives (Fills .expression) (lo.row kind n) := by
  refine (Gives.mapM fun c hc => h.expression (hn.named hc)).bind fun es hes => .pure ?_
  rcases isRow with rfl | rfl <;> exact fills_of_children rfl rfl hes rfl

theorem Sound.arguments (field : String) :
    Gives (fun es => ∀ e ∈ es, Fills .expression e) (lo.arguments (n.part? field)) := by
  unfold Lowering.arguments
  split
  · exact .pure nofun
  · rename_i c part
    split
    · exact gives_error _
    · exact Gives.mapM fun e he => h.expression ((hn.part part).named he)

theorem Sound.call {kind : NodeKind} (isCall : kind = .call ∨ kind = .new) (field : String) :
    Gives (Fills .expression) (lo.call kind field n) := by
  refine (h.expressionPart hn _).bind fun callee hc => ?_
  refine (h.arguments hn _).bind fun arguments ha => .pure ?_
  rcases isCall with rfl | rfl <;> exact fills_of_children rfl rfl (And.intro hc ha) rfl

theorem Sound.member : Gives (Fills .expression) (lo.member n) := by
  refine (gives_any _).bind fun p _ => (gives_any _).bind fun name _ => ?_
  refine (h.expressionPart hn _).bind fun object ho => ?_
  exact .pure (fills_of_children rfl ⟨name, rfl⟩ (And.intro ho rfl) rfl)

theorem Sound.subscript : Gives (Fills .expression) (lo.subscript n) := by
  refine (h.expressionPart hn _).bind fun object ho => ?_
  refine (h.expressionPart hn _).bind fun key hk => ?_
  exact .pure (fills_of_children rfl rfl (And.intro ho (And.intro hk rfl)) rfl)

theorem Sound.ternary : Gives (Fills .expression) (lo.ternary n) := by
  refine (h.expressionPart hn _).bind fun condition hc => ?_
  refine (h.expressionPart hn _).bind fun consequence hs => ?_
  refine (h.expressionPart hn _).bind fun alternative ha => ?_
  exact .pure (fills_of_children rfl rfl (And.intro hc (And.intro hs (And.intro ha rfl))) rfl)

omit h in
theorem gives_named {c : Option SourceNode} (among : ∀ e ∈ c, e ∈ n.named) :
    Gives (fun e => e.Documented lo.language lo.source) (element c) := by
  cases c with
  | none => exact gives_error _
  | some e => exact .pure (hn.named (among e rfl))

theorem Sound.typed {c : Option SourceNode} (among : ∀ e ∈ c, e ∈ n.named) :
    Gives (Fills .expression) (lo.typed c) :=
  (gives_named hn among).bind fun _ he => h.expression he

theorem Sound.awaitExpression : Gives (Fills .expression) (lo.awaitExpression n) := by
  refine (gives_named hn fun _ => List.mem_of_head?).bind fun e he => ?_
  exact (h.expression he).bind fun e he => .pure (fills_of_children rfl rfl (And.intro he rfl) rfl)

theorem Sound.yieldExpression : Gives (Fills .expression) (lo.yieldExpression n) := by
  unfold Lowering.yieldExpression
  split
  · exact gives_error _
  · exact (h.optionalFirst hn).bind fun es hes => .pure (fills_of_children rfl rfl hes rfl)

omit h hn in
theorem gives_chunk (start stop : Nat) (near : SourceNode) :
    Gives (fun es => ∀ e ∈ es, Fills .expression e) (lo.chunk start stop near) := by
  unfold Lowering.chunk
  split
  · exact (gives_any _).bind fun t _ => .pure fun e he => List.mem_singleton.mp he ▸ fills_literal rfl
  · exact .pure nofun

omit hn in
/-- The pieces of a template from any place on, by the nodes that are left. -/
theorem Sound.templatePieces (cs : List SourceNode)
    (hcs : ∀ c ∈ cs, c.Documented lo.language lo.source) (place : Nat) :
    Gives (fun es => ∀ e ∈ es, Fills .expression e) (lo.templatePieces n place cs) := by
  induction cs generalizing place with
  | nil => exact gives_chunk place (n.stop - 1) n
  | cons c rest ih =>
    have later := ih fun d hd => hcs d (List.mem_cons_of_mem c hd)
    unfold Lowering.templatePieces
    split
    · refine (gives_chunk place c.start c).bind fun before hb => ?_
      refine (gives_any _).bind fun t _ => (gives_any _).bind fun value _ => ?_
      refine (later c.stop).bind fun after ha => .pure ?_
      exact List.forall_mem_append.mpr ⟨hb, List.forall_mem_cons.mpr ⟨fills_literal rfl, ha⟩⟩
    · split
      · have hc : c.Documented lo.language lo.source := hcs c List.mem_cons_self
        refine (gives_chunk place c.start c).bind fun before hb => ?_
        refine (gives_named hc fun _ => List.mem_of_head?).bind fun e he => ?_
        refine (h.expression he).bind fun value hv => ?_
        refine (later c.stop).bind fun after ha => .pure ?_
        exact List.forall_mem_append.mpr ⟨hb, List.forall_mem_cons.mpr ⟨hv, ha⟩⟩
      · exact later place

theorem Sound.template : Gives (Fills .expression) (lo.template n) :=
  (h.templatePieces n.children (fun _ hc => hn.child hc) _).bind fun _ hes =>
    .pure (fills_of_children rfl rfl hes rfl)

/-! ### Functions and objects -/

theorem Sound.plainParameter : Gives (Fills .param) (lo.plainParameter n) := by
  unfold Lowering.plainParameter
  split
  · exact (gives_any _).bind fun name _ =>
      .pure (fills_of_children rfl ⟨name, rfl⟩ (And.intro (Nat.zero_le 1) nofun) rfl)
  · split
    · refine (gives_any _).bind fun left _ => ?_
      split
      · exact gives_error _
      · refine (gives_any _).bind fun name _ => ?_
        refine (h.expressionPart hn _).bind fun default hd => ?_
        exact .pure (fills_of_children rfl ⟨name, rfl⟩
          (And.intro (Nat.le_refl 1) (by simpa using hd)) rfl)
    · exact gives_error _

theorem Sound.typedParameter : Gives (Fills .param) (lo.typedParameter n) := by
  have finish {name : Text} {default : List Node} (len : default.length ≤ 1)
      (hd : ∀ e ∈ default, Fills .expression e) : Gives (Fills .param)
        (.ok { kind := .param, value := .text name, children := default, span := lo.span n }) :=
    .pure (fills_of_children rfl ⟨name, rfl⟩ (And.intro len hd) rfl)
  unfold Lowering.typedParameter
  dsimp only
  split
  · split
    · exact gives_error _
    · refine (gives_any _).bind fun name _ => ?_
      cases part : n.part? "value" with
      | none => exact finish (Nat.zero_le 1) nofun
      | some d =>
        exact (h.expression (hn.part part)).bind fun e he =>
          finish (Nat.le_refl 1) (by simpa using he)
  · exact gives_error _

theorem Sound.parameter : Gives (Fills .param) (lo.parameter n) := by
  unfold Lowering.parameter
  split
  · exact h.typedParameter hn
  · exact h.plainParameter hn

theorem Sound.parameters : Gives (fun ps => ∀ p ∈ ps, Fills .param p) (lo.parameters n) := by
  unfold Lowering.parameters
  split
  · rename_i p part
    exact (h.parameter (hn.part part)).bind fun p hp => .pure (by simpa using hp)
  · rename_i ps part
    exact Gives.mapM fun p hp => h.parameter ((hn.part part).named hp)
  · exact .pure nofun

/-- A function of either kind, if its body is right for the kind. -/
theorem Sound.function {kind : NodeKind} {s inside : Slot} (admits : s.admits kind = true)
    (isFunction : kind = .function ∧ inside = .block ∨ kind = .functionExpression ∧ inside = .body)
    (body : ∀ b, n.part? "body" = some b → b.type = "statement_block" ∨ inside = .body) :
    Gives (Fills s) (lo.function kind n) := by
  -- which lowering is used depends on the type of the body, and so does what comes out
  have inner {b : SourceNode} (part : n.part? "body" = some b) : Gives (Fills inside)
      (if b.type == "statement_block" then lo.block b else lo.expression b) := by
    have hb := hn.part part
    split
    · exact h.block hb (by rcases isFunction with ⟨-, rfl⟩ | ⟨-, rfl⟩ <;> rfl)
    · rename_i other
      obtain rfl : inside = .body := (body b part).resolve_left (by simpa using other)
      exact (h.expression hb).imp fun e he => he.widen fun k hk => by simp_all [Slot.admits]
  have finish (name : Text) : Gives (Fills s) (do
      let bodyNode ← part n "body"
      let body ← if bodyNode.type == "statement_block" then lo.block bodyNode
        else lo.expression bodyNode
      let params ← lo.parameters n
      pure { kind, value := .text name, params, children := [body], isAsync := n.hasToken "async",
             isGenerator := n.hasToken "*", span := lo.span n }) := by
    refine (gives_part hn _).bind fun b found => ?_
    have hb := inner found.1
    split at hb <;> rename_i block <;> simp only [block]
    · refine hb.bind fun body hb => (h.parameters hn).bind fun params hp => .pure ⟨admits, ?_⟩
      rcases isFunction with ⟨rfl, rfl⟩ | ⟨rfl, rfl⟩ <;>
        exact fits_of_fills ⟨name, rfl⟩ (And.intro hb rfl) fun p mem => ⟨rfl, hp p mem⟩
    · refine hb.bind fun body hb => (h.parameters hn).bind fun params hp => .pure ⟨admits, ?_⟩
      rcases isFunction with ⟨rfl, rfl⟩ | ⟨rfl, rfl⟩ <;>
        exact fits_of_fills ⟨name, rfl⟩ (And.intro hb rfl) fun p mem => ⟨rfl, hp p mem⟩
  unfold Lowering.function
  cases found : n.part? "name" with
  | none => exact finish anonymousName
  | some m => exact (gives_any _).bind fun name _ => finish name

theorem Sound.functionDeclaration
    (type : n.type = "function_declaration" ∨ n.type = "generator_function_declaration") :
    Gives (Fills .listed) (lo.function .function n) :=
  h.function hn rfl (.inl ⟨rfl, rfl⟩) fun b part => .inl (hn.own.body type b part)

theorem Sound.functionExpression : Gives (Fills .expression) (lo.function .functionExpression n) :=
  h.function hn rfl (.inr ⟨rfl, rfl⟩) fun _ _ => .inr rfl

theorem Sound.memberValue : Gives (fun r => Fills .expression r.2) (lo.memberValue n) := by
  unfold Lowering.memberValue
  split
  · exact (h.expressionPart hn _).bind fun value hv => .pure hv
  · split
    · exact gives_identifier.bind fun value hv => .pure hv
    · split
      · exact (h.functionExpression hn).bind fun value hv => .pure hv
      · exact gives_error _

theorem Sound.objectMember : Gives (Fills .property) (lo.objectMember n) := by
  refine (h.memberValue hn).bind fun ⟨key, value⟩ hv => ?_
  refine (gives_any _).bind fun key _ => (gives_any _).bind fun key _ => ?_
  exact .pure (fills_of_children rfl ⟨key, rfl⟩ (And.intro hv rfl) rfl)

theorem Sound.object : Gives (Fills .expression) (lo.object n) :=
  (Gives.mapM fun _ hc => h.objectMember (hn.named hc)).bind fun _ hps =>
    .pure (fills_of_children rfl rfl hps rfl)

/-! ### The rules -/

theorem Sound.statementRule : Gives (Fills .statement) (lo.statementRule n) := by
  have listed {x : Lowered Node} (hx : Gives (Fills .listed) x) : Gives (Fills .statement) x :=
    hx.imp fun _ hs => hs.statement
  unfold Lowering.statementRule
  split <;> rename_i type
  · exact h.expressionStatement hn rfl rfl
  · exact h.declaration hn rfl
  · exact h.declaration hn rfl
  · exact listed (h.returnStatement hn)
  · exact listed (h.ifStatement hn)
  · exact listed (h.whileStatement hn)
  · exact listed (h.doStatement hn)
  · exact listed (h.forStatement hn type)
  · exact listed (h.forOfStatement hn)
  · exact listed (h.functionDeclaration hn (.inl type))
  · exact listed (h.functionDeclaration hn (.inr type))
  · exact listed (h.throwStatement hn)
  · exact h.block hn rfl
  · exact listed (gives_jump (.inl rfl))
  · exact listed (gives_jump (.inr rfl))
  · exact listed (h.tryStatement hn)
  · exact listed (h.switchStatement hn)
  · exact listed (h.labeledStatement hn)
  · exact .pure (fills_empty rfl)

theorem Sound.lowerStatement : Gives (Fills .statement) (lo.lowerStatement n) := by
  unfold Lowering.lowerStatement
  split
  · exact .pure (fills_empty rfl)
  · split
    · exact h.statementRule hn
    · exact (h.expression hn).bind fun e he =>
        .pure (fills_of_children rfl rfl (And.intro he rfl) rfl)

/-- A statement that a `for` loop may start with is lowered to one that it may start with. -/
theorem Sound.lowerStart (type : n.type ∈ SourceNode.startTypes) :
    Gives (Fills .start) (lo.lowerStatement n) := by
  -- for a node of a known type the rule is the one of that type
  obtain ⟨type', isNamed, field, start, stop, children⟩ := n
  unfold SourceNode.startTypes at type
  simp only [List.mem_cons, List.not_mem_nil, or_false] at type
  rcases type with rfl | rfl | rfl | rfl
  · exact h.declaration hn rfl
  · exact h.declaration hn rfl
  · exact h.expressionStatement hn rfl rfl
  · exact .pure (fills_empty rfl)

theorem Sound.lowerExpression : Gives (Fills .expression) (lo.lowerExpression n) := by
  unfold Lowering.lowerExpression
  split <;> rename_i type
  · exact gives_identifier
  · exact gives_identifier
  · exact (gives_any _).bind fun x _ => .pure (fills_literal rfl)
  · exact (gives_any _).bind fun t _ => .pure (fills_literal rfl)
  · exact h.template hn
  · exact .pure (fills_literal rfl)
  · exact .pure (fills_literal rfl)
  · exact .pure (fills_literal rfl)
  · exact h.binary hn type
  · exact h.unary hn type
  · exact h.update hn type
  · exact h.call hn (.inl rfl) _
  · exact h.call hn (.inr rfl) _
  · exact h.member hn
  · exact h.subscript hn
  · exact h.parenthesized hn
  · exact h.row hn (.inl rfl)
  · exact h.object hn
  · exact h.assignment hn (.inl type)
  · exact h.assignment hn (.inr type)
  · exact h.functionExpression hn
  · exact h.functionExpression hn
  · exact h.functionExpression hn
  · exact h.functionExpression hn
  · exact h.ternary hn
  · exact h.awaitExpression hn
  · exact h.yieldExpression hn
  · exact h.row hn (.inr rfl)
  · split
    · split
      · exact h.typed hn fun _ => List.mem_of_head?
      · exact h.typed hn fun _ => List.mem_of_head?
      · exact h.typed hn fun _ => List.mem_of_head?
      · exact h.typed hn fun _ => List.mem_of_getLast?
      · exact gives_error _
    · exact gives_error _

end Rules

/-! ### Programs -/

/-- The lowering of a program. -/
def lowering (source : Source) (language : Language) (fuel : Nat) : Lowering :=
  { source, language, statement := run source language fuel .statement,
    expression := run source language fuel .expression }

theorem sound_lowering (source : Source) (language : Language) (fuel : Nat) :
    (lowering source language fuel).Sound := by
  -- the parts of a node are lowered with one step less, so they are sound when the rules for the node are applied
  induction fuel with
  | zero => exact ⟨fun _ => gives_error _, fun _ _ => gives_error _, fun _ => gives_error _⟩
  | succ fuel ih => exact ⟨ih.lowerStatement, ih.lowerStart, ih.lowerExpression⟩

end Lowering

namespace Node

/-- The program of a concrete tree that keeps to the grammar is well-formed. -/
theorem lower_formed {root : SourceNode} {source : Source} {language : Language}
    (documented : root.Documented language source) : Gives Formed (root.lower source language) :=
  ((Lowering.sound_lowering source language _).statements documented).bind fun _ hss =>
    .pure ⟨rfl, fits_of_fills rfl hss nofun⟩

/-- The program tree of a source text whose concrete tree is given by a reader. -/
def ofTextBy (read : Language → String → Option SourceNode) (language : Language) (text : String) :
    Lowered Node :=
  match read language text with
  | some root => root.lower (Source.ofString text) language
  | none =>
    .error (.single (.contract (.source (.malformed (Text.ofString language.name)) .unknown)))

theorem ofTextBy_ofText? : ofTextBy SourceNode.ofText? = ofText := by
  funext language text
  unfold ofTextBy ofText
  cases SourceNode.ofText? language text <;> rfl

/-- **Lowering gives well-formed programs.** -/
theorem ofTextBy_formed {read : Language → String → Option SourceNode}
    (documented : ∀ language text root, read language text = some root →
      root.Documented language (Source.ofString text))
    {language : Language} {text : String} {program : Node}
    (lowered : ofTextBy read language text = .ok program) : program.Formed := by
  unfold ofTextBy at lowered
  cases found : read language text with
  | none => simp [found] at lowered
  | some root =>
    rw [found] at lowered
    exact lower_formed (documented language text root found) program lowered

/-- A loop without an end, in either language. -/
def endlessText : String := "for (;;) x += -1;"

/-- The concrete tree of the loop. -/
def endlessTree : SourceNode :=
  { type := "program", start := 0, stop := 17, children := [
    { type := "for_statement", start := 0, stop := 17, children := [
      { type := "for", isNamed := false, start := 0, stop := 3 },
      { type := "(", isNamed := false, start := 4, stop := 5 },
      { type := "empty_statement", field := some "initializer", start := 5, stop := 6,
        children := [{ type := ";", isNamed := false, start := 5, stop := 6 }] },
      { type := "empty_statement", field := some "condition", start := 6, stop := 7,
        children := [{ type := ";", isNamed := false, start := 6, stop := 7 }] },
      { type := ")", isNamed := false, start := 7, stop := 8 },
      { type := "expression_statement", field := some "body", start := 9, stop := 17, children := [
        { type := "augmented_assignment_expression", start := 9, stop := 16, children := [
          { type := "identifier", field := some "left", start := 9, stop := 10 },
          { type := "+=", isNamed := false, field := some "operator", start := 11, stop := 13 },
          { type := "unary_expression", field := some "right", start := 14, stop := 16, children := [
            { type := "-", isNamed := false, field := some "operator", start := 14, stop := 15 },
            { type := "number", field := some "argument", start := 15, stop := 16 }] }] },
        { type := ";", isNamed := false, start := 16, stop := 17 }] }] }] }

/-- A reader that knows the loop and takes every other text for malformed. -/
def readEndless (_ : Language) (text : String) : Option SourceNode :=
  if text = endlessText then some endlessTree else none

theorem documented_readEndless (language : Language) (text : String) (root : SourceNode)
    (h : readEndless language text = some root) : root.Documented language (Source.ofString text) := by
  unfold readEndless at h
  split at h
  · rename_i same
    cases h
    rw [same]
    cases language <;> decide +kernel
  · contradiction

theorem ofTextBy_formed_endless :
    ∃ program, ofTextBy readEndless .javascript endlessText = .ok program ∧ program.Formed := by
  have ok : (ofTextBy readEndless .javascript endlessText).isOk = true := by decide +kernel
  obtain ⟨program, lowered⟩ := exists_of_isOk ok
  exact ⟨program, lowered, ofTextBy_formed documented_readEndless lowered⟩

end Node

end ScopeExit
