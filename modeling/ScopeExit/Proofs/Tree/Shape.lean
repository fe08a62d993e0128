import ScopeExit.Proofs.Tree.Jumps
import ScopeExit.Script.Literal
/-!
What the static check says about every node of a program.

`Shaped` is the grammar of program trees: which nodes may stand in which role.  It carries along the
site of each node, that is, what the nearest function or deferred action around it allows and what
surrounds the node in that action, and it asks for a condition of every node at its site.  A tree is
well formed if it follows the grammar, with no more than a condition on the data in its nodes.  The
check passes over the tree once and scans the body of every deferred action; `WellFormed.allowed` puts
together what it has seen: every `await`, `yield`, function and deferred action stands at a site that
allows it, and every jump in a deferred action at one that meets it, strays apart.

The check and the grammar do not walk in the same way.  The check keeps the context of the function
while it is inside a deferred action, and relies on the scan to find what the action does not allow.
So the induction carries the scan that a node was part of along with its site.
-/
namespace ScopeExit

namespace Datum

/-- Data that no program can change and that has no identity. -/
def isScalar : Datum → Bool
  | .null | .undefined | .bool _ | .number _ | .text _ => true
  | _ => false

theorem isComposite_eq_false {d : Datum} (h : d.isScalar = true) : d.isComposite = false := by
  cases d <;> first | rfl | contradiction

end Datum

namespace Node

/-! ### The grammar -/

/-- What a node stands for in its place. -/
inductive Role where
  | statement | declarator | clause | handler | param | body | expression | property
  /-- An expression, or nothing. -/
  | part

/-- What is known about the place of a node. -/
structure Site where
  /-- What the nearest function or deferred action around it allows. -/
  context : Context
  /-- A frame stands between it and that function or action.  For what is no statement this makes no
  difference, and it is put as if one did. -/
  isOpen : Bool
  /-- What surrounds it inside that action.  In a function, and for what holds no jumps of its own, this
  makes no difference, and it is put as unknown. -/
  targets : Option Targets

/-- The same place with a frame around it. -/
def Site.inFrame (s : Site) : Site := { s with isOpen := true }

/-- The place of the expressions in a node. -/
def Site.operand (s : Site) : Site := ⟨s.context, true, none⟩

/-- The place of the statements in a node. -/
def Site.enter (s : Site) (n : Node) : Site := { s with targets := s.targets.map (·.enter n) }

/-- Statements that may be the target of a jump. -/
def isTargeted (kind : NodeKind) : Bool := kind.isLoop || kind == .switch || kind == .labeled

theorem Site.enter_eq (s : Site) {n : Node} (h : isTargeted n.kind = false) : s.enter n = s := by
  simp only [isTargeted, Bool.or_eq_false_iff, beq_eq_false_iff_ne] at h
  obtain ⟨context, isOpen, targets⟩ := s
  cases targets with
  | none => rfl
  | some t => simp [Site.enter, t.enter_eq h.2 h.1.1 h.1.2]

/-- The place of a statement behind labels, for all that is no loop. -/
def Site.behind (labels : List Text) (s : Site) : Site :=
  { s with targets := s.targets.map (.behind labels) }

/-- The place of a statement that has labels in front of it.  Only loops make use of them. -/
def Site.named (s : Site) (labels : List Text) (isLoop : Bool) : Site :=
  if isLoop = true then { s with targets := s.targets.map (.naming labels) } else s

theorem Site.behind_nil (s : Site) : s.behind [] = s := by
  obtain ⟨context, isOpen, targets⟩ := s
  cases targets <;> rfl

theorem Site.named_nil (s : Site) (isLoop : Bool) : s.named [] isLoop = s := by
  obtain ⟨context, isOpen, targets⟩ := s
  cases isLoop <;> cases targets <;> rfl

/-- One more label in front of a statement. -/
theorem Site.enter_labeled (s : Site) (labels : List Text) {n : Node} (kind : n.kind = .labeled) :
    ((s.behind labels).named labels n.isLoopBehind).enter n =
      (s.behind (n.label.toList ++ labels)).named (n.label.toList ++ labels) n.isLoopBehind := by
  obtain ⟨context, isOpen, targets⟩ := s
  cases h : n.isLoopBehind <;> cases targets <;>
    simp [Site.behind, Site.named, Site.enter, Targets.enter_labeled _ kind, h, Targets.behind,
      Targets.naming]

/-- What a function allows inside. -/
def context (n : Node) : Context := ⟨n.isAsync, n.isGenerator⟩

/-- The place of the body of a deferred action. -/
def Site.ofAction (isAsync : Bool) : Site := ⟨⟨isAsync, false⟩, false, some {}⟩

/-- The place of a parameter or of the body of a function.  Only among the statements of a block may a
generator yield: a request to return that finds it anywhere else is taken by nobody. -/
def Site.within (context : Context) (part : Node) : Site :=
  ⟨⟨context.isAsync, part.kind == .block && context.isGenerator⟩, true, none⟩

/-- Expressions whose parts are all expressions. -/
def isOperation : NodeKind → Bool
  | .template | .binary | .logical | .unary | .call | .member | .index | .array | .new | .await
  | .yield | .conditional | .sequence => true
  | _ => false

/-- Expressions that something can be assigned to. -/
def isTarget : NodeKind → Bool
  | .identifier | .member | .index => true
  | _ => false

/-- Statements that may stand at the start of a `for` loop. -/
def isStart : NodeKind → Bool
  | .declaration | .expressionStatement | .empty => true
  | _ => false

/-- A node may stand in a role at a site, and `P` is true of it and of all nodes in it. -/
inductive Shaped (P : Site → Node → Prop) : Role → Site → Node → Prop
  | jump {s : Site} {n : Node} (own : P s n)
      (kind : n.kind = .break ∨ n.kind = .continue ∨ n.kind = .empty) (leaf : n.children = []) :
      Shaped P .statement s n
  | simple {s : Site} {n : Node} (own : P s n)
      (kind : n.kind = .expressionStatement ∨ n.kind = .return ∨ n.kind = .throw)
      (parts : ∀ c ∈ n.children, Shaped P .expression s.operand c) : Shaped P .statement s n
  | declaration {s : Site} {n : Node} (own : P s n) (kind : n.kind = .declaration)
      (parts : ∀ c ∈ n.children, Shaped P .declarator s.operand c) : Shaped P .statement s n
  | declarator {s : Site} {n : Node} (own : P s n) (kind : n.kind = .declarator)
      (parts : ∀ c ∈ n.children, Shaped P .part s.operand c) : Shaped P .declarator s n
  | block {s : Site} {n : Node} (own : P s n) (kind : n.kind = .block)
      (parts : ∀ c ∈ n.children, Shaped P .statement s.inFrame c) : Shaped P .statement s n
  | conditional {s : Site} {n condition : Node} {branches : List Node} (own : P s n)
      (kind : n.kind = .conditionalStatement) (children : n.children = condition :: branches)
      (test : Shaped P .expression s.operand condition)
      (parts : ∀ c ∈ branches, Shaped P .statement s c) : Shaped P .statement s n
  | whileLoop {s : Site} {n condition body : Node} (own : P s n) (kind : n.kind = .whileLoop)
      (children : n.children = [condition, body])
      (test : Shaped P .expression s.operand condition)
      (pass : Shaped P .statement (s.enter n).inFrame body) : Shaped P .statement s n
  | doWhileLoop {s : Site} {n condition body : Node} (own : P s n) (kind : n.kind = .doWhileLoop)
      (children : n.children = [body, condition])
      (test : Shaped P .expression s.operand condition)
      (pass : Shaped P .statement (s.enter n).inFrame body) : Shaped P .statement s n
  | forLoop {s : Site} {n first condition step body : Node} (own : P s n)
      (kind : n.kind = .forLoop) (children : n.children = [first, condition, step, body])
      (start : Shaped P .statement s.operand first) (isStart : isStart first.kind = true)
      (test : Shaped P .part s.operand condition) (advance : Shaped P .part s.operand step)
      (pass : Shaped P .statement (s.enter n).inFrame body) : Shaped P .statement s n
  | forOfLoop {s : Site} {n iterable body : Node} (own : P s n) (kind : n.kind = .forOfLoop)
      (children : n.children = [iterable, body])
      (subject : Shaped P .expression s.operand iterable)
      (pass : Shaped P .statement (s.enter n).inFrame body) : Shaped P .statement s n
  | switch {s : Site} {n subject : Node} {clauses : List Node} (own : P s n)
      (kind : n.kind = .switch) (children : n.children = subject :: clauses)
      (test : Shaped P .expression s.operand subject)
      (parts : ∀ c ∈ clauses, Shaped P .clause (s.enter n).inFrame c) : Shaped P .statement s n
  | case {s : Site} {n test : Node} {statements : List Node} (own : P s n) (kind : n.kind = .case)
      (children : n.children = test :: statements)
      (label : Shaped P .expression s.operand test)
      (parts : ∀ c ∈ statements, Shaped P .statement s c) : Shaped P .clause s n
  | default {s : Site} {n : Node} (own : P s n) (kind : n.kind = .default)
      (parts : ∀ c ∈ n.children, Shaped P .statement s c) : Shaped P .clause s n
  | attempt {s : Site} {n body handler finalizer : Node} (own : P s n) (kind : n.kind = .try)
      (children : n.children = [body, handler, finalizer]) (inside : Shaped P .statement s body)
      (rescue : Shaped P .handler s handler) (last : Shaped P .statement s finalizer) :
      Shaped P .statement s n
  | handler {s : Site} {n body : Node} (own : P s n) (kind : n.kind = .catch)
      (children : n.children = [body]) (inside : Shaped P .statement s body) :
      Shaped P .handler s n
  | noHandler {s : Site} {n : Node} (own : P s n) (kind : n.kind = .empty)
      (leaf : n.children = []) : Shaped P .handler s n
  | labeled {s : Site} {n target : Node} (own : P s n) (kind : n.kind = .labeled)
      (children : n.children = [target]) (inside : Shaped P .statement (s.enter n) target) :
      Shaped P .statement s n
  | defer {s : Site} {n body : Node} (own : P s n) (kind : n.kind = .defer)
      (children : n.children = [body])
      (inside : Shaped P .statement (.ofAction n.isAsync) body) : Shaped P .statement s n
  | function {s : Site} {n : Node} (own : P s n) (kind : n.kind = .function)
      (params : ∀ p ∈ n.params, Shaped P .param (.within n.context p) p)
      (parts : ∀ c ∈ n.children, Shaped P .body (.within n.context c) c) : Shaped P .statement s n
  | param {s : Site} {n : Node} (own : P s n) (kind : n.kind = .param)
      (parts : ∀ c ∈ n.children, Shaped P .part s.operand c) : Shaped P .param s n
  | blockBody {s : Site} {n : Node} (own : P s n) (kind : n.kind = .block)
      (parts : ∀ c ∈ n.children, Shaped P .statement s.inFrame c) : Shaped P .body s n
  | valueBody {s : Site} {n : Node} (inside : Shaped P .expression s n) : Shaped P .body s n
  | leaf {s : Site} {n : Node} (own : P s n) (kind : n.kind = .identifier ∨ n.kind = .literal)
      (leaf : n.children = []) : Shaped P .expression s n
  | operation {s : Site} {n : Node} (own : P s n) (kind : isOperation n.kind = true)
      (parts : ∀ c ∈ n.children, Shaped P .expression s.operand c) : Shaped P .expression s n
  | assignment {s : Site} {n : Node} (own : P s n) (kind : n.kind = .update ∨ n.kind = .assign)
      (parts : ∀ c ∈ n.children, Shaped P .expression s.operand c)
      (target : ∀ t ∈ n.children.head?, isTarget t.kind = true) : Shaped P .expression s n
  | object {s : Site} {n : Node} (own : P s n) (kind : n.kind = .object)
      (parts : ∀ c ∈ n.children, Shaped P .property s.operand c) : Shaped P .expression s n
  | property {s : Site} {n : Node} (own : P s n) (kind : n.kind = .property)
      (parts : ∀ c ∈ n.children, Shaped P .expression s.operand c) : Shaped P .property s n
  | functionExpression {s : Site} {n : Node} (own : P s n) (kind : n.kind = .functionExpression)
      (params : ∀ p ∈ n.params, Shaped P .param (.within n.context p) p)
      (parts : ∀ c ∈ n.children, Shaped P .body (.within n.context c) c) : Shaped P .expression s n
  | noPart {s : Site} {n : Node} (own : P s n) (kind : n.kind = .empty) (leaf : n.children = []) :
      Shaped P .part s n
  | part {s : Site} {n : Node} (inside : Shaped P .expression s n) : Shaped P .part s n

theorem Shaped.own {P : Site → Node → Prop} {role : Role} {s : Site} {n : Node}
    (h : Shaped P role s n) : P s n := by
  induction h with
  | valueBody _ ih | part _ ih => exact ih
  | _ => assumption

/-- The data of a node is a scalar, and only functions have parameters. -/
def IsPlain (_ : Site) (n : Node) : Prop :=
  n.value.isScalar = true ∧ (n.kind.isFunction = false → n.params = [])

/-- A program tree of the shape that the documentation of `Node` gives: a list of statements. -/
structure WellFormed (program : Node) : Prop where
  kind : program.kind = .program
  own : IsPlain ⟨⟨false, false⟩, true, none⟩ program
  statements : ∀ c ∈ program.children, Shaped IsPlain .statement ⟨⟨false, false⟩, true, none⟩ c

/-- The generators of a program yield in the blocks of their bodies and nowhere else, in particular not
in the defaults of their parameters. -/
def YieldsInBlocks (program : Node) : Prop :=
  ∀ f ∈ program.walk, f.kind.isFunction = true → ∀ c ∈ f.params ++ f.children, c.kind ≠ .block →
    c.escapingTransfers f.isAsync = []

instance (program : Node) : Decidable (YieldsInBlocks program) :=
  inferInstanceAs (Decidable (∀ f ∈ program.walk, _))

/-- What is allowed at a place is allowed at another one. -/
structure Site.AtMost (s s' : Site) : Prop where
  async : s.context.isAsync = true → s'.context.isAsync = true
  generator : s.context.isGenerator = true → s'.context.isGenerator = true
  isOpen : s.isOpen = true → s'.isOpen = true
  targets : s.targets = s'.targets

theorem Site.AtMost.inFrame {s s' : Site} (h : s.AtMost s') : s.inFrame.AtMost s'.inFrame :=
  ⟨h.async, h.generator, fun _ => rfl, h.targets⟩

theorem Site.AtMost.operand {s s' : Site} (h : s.AtMost s') : s.operand.AtMost s'.operand :=
  ⟨h.async, h.generator, fun _ => rfl, rfl⟩

theorem Site.AtMost.enter {s s' : Site} (h : s.AtMost s') (n : Node) :
    (s.enter n).AtMost (s'.enter n) :=
  ⟨h.async, h.generator, h.isOpen, by simp [Site.enter, h.targets]⟩

section Allowed

variable [Strays]

/-- A completion may arrive at a place. -/
def Site.Admits (s : Site) (r : ExitReason) : Prop := ∀ t ∈ s.targets, t.Admits r

/-- What the check establishes for a node at its site. -/
structure Allowed (s : Site) (n : Node) : Prop where
  scalar : n.value.isScalar = true
  /-- A suspension stands where it may. -/
  await : n.kind = .await → s.context.isAsync = true
  yield : n.kind = .yield → s.context.isGenerator = true
  /-- A deferred action stands in a frame that may hold it, and its body does not leave it. -/
  framed : n.kind = .defer → s.isOpen = true
  awaited : n.kind = .defer → n.isAsync = true → s.context.isAsync = true
  stays : n.kind = .defer → ∀ body ∈ n.children, body.escapingTransfers n.isAsync = []
  /-- No function is asynchronous and a generator. -/
  sort : n.kind.isFunction = true → (n.isAsync && n.isGenerator) = false
  /-- A jump is met by what surrounds it in the action, if it is no stray. -/
  jumps : ∀ r ∈ n.jump?, s.Admits r

/-! ### Places that allow more -/

theorem Allowed.mono {s s' : Site} {n : Node} (h : Allowed s n) (le : s.AtMost s') : Allowed s' n :=
  ⟨h.scalar, fun hk => le.async (h.await hk), fun hk => le.generator (h.yield hk),
    fun hk => le.isOpen (h.framed hk), fun hk ha => le.async (h.awaited hk ha), h.stays, h.sort,
    fun r hr t ht => h.jumps r hr t (le.targets ▸ ht)⟩

/-- What may stand at a place may stand at one that allows more. -/
theorem Shaped.mono {role : Role} {s s' : Site} {n : Node} (h : Shaped Allowed role s n)
    (le : s.AtMost s') : Shaped Allowed role s' n := by
  induction h generalizing s' with
  | jump own kind leaf => exact .jump (own.mono le) kind leaf
  | simple own kind _ ih => exact .simple (own.mono le) kind fun c hc => ih c hc le.operand
  | declaration own kind _ ih => exact .declaration (own.mono le) kind fun c hc => ih c hc le.operand
  | declarator own kind _ ih => exact .declarator (own.mono le) kind fun c hc => ih c hc le.operand
  | block own kind _ ih => exact .block (own.mono le) kind fun c hc => ih c hc le.inFrame
  | conditional own kind children _ _ test parts =>
    exact .conditional (own.mono le) kind children (test le.operand) fun c hc => parts c hc le
  | whileLoop own kind children _ _ test pass =>
    exact .whileLoop (own.mono le) kind children (test le.operand) (pass (le.enter _).inFrame)
  | doWhileLoop own kind children _ _ test pass =>
    exact .doWhileLoop (own.mono le) kind children (test le.operand) (pass (le.enter _).inFrame)
  | forLoop own kind children _ isStart _ _ _ start test advance pass =>
    exact .forLoop (own.mono le) kind children (start le.operand) isStart (test le.operand)
      (advance le.operand) (pass (le.enter _).inFrame)
  | forOfLoop own kind children _ _ subject pass =>
    exact .forOfLoop (own.mono le) kind children (subject le.operand) (pass (le.enter _).inFrame)
  | switch own kind children _ _ test parts =>
    exact .switch (own.mono le) kind children (test le.operand) fun c hc =>
      parts c hc (le.enter _).inFrame
  | case own kind children _ _ label parts =>
    exact .case (own.mono le) kind children (label le.operand) fun c hc => parts c hc le
  | default own kind _ ih => exact .default (own.mono le) kind fun c hc => ih c hc le
  | attempt own kind children _ _ _ inside rescue last =>
    exact .attempt (own.mono le) kind children (inside le) (rescue le) (last le)
  | handler own kind children _ inside => exact .handler (own.mono le) kind children (inside le)
  | noHandler own kind leaf => exact .noHandler (own.mono le) kind leaf
  | labeled own kind children _ inside =>
    exact .labeled (own.mono le) kind children (inside (le.enter _))
  | defer own kind children inside _ => exact .defer (own.mono le) kind children inside
  | function own kind params parts => exact .function (own.mono le) kind params parts
  | param own kind _ ih => exact .param (own.mono le) kind fun c hc => ih c hc le.operand
  | blockBody own kind _ ih => exact .blockBody (own.mono le) kind fun c hc => ih c hc le.inFrame
  | valueBody _ ih => exact .valueBody (ih le)
  | leaf own kind leaf => exact .leaf (own.mono le) kind leaf
  | operation own kind _ ih => exact .operation (own.mono le) kind fun c hc => ih c hc le.operand
  | assignment own kind _ target ih =>
    exact .assignment (own.mono le) kind (fun c hc => ih c hc le.operand) target
  | object own kind _ ih => exact .object (own.mono le) kind fun c hc => ih c hc le.operand
  | property own kind _ ih => exact .property (own.mono le) kind fun c hc => ih c hc le.operand
  | functionExpression own kind params parts =>
    exact .functionExpression (own.mono le) kind params parts
  | noPart own kind leaf => exact .noPart (own.mono le) kind leaf
  | part _ ih => exact .part (ih le)

end Allowed

/-! ### What the check has seen of a node -/

theorem checkedAll_ok {context : Context} :
    ∀ {ns found : List Node}, checkedAll context ns = .ok found →
      ∀ n ∈ ns, ∃ found, checked context n = .ok found := by
  intro ns
  induction ns with
  | nil => intro _ _ n hn; contradiction
  | cons m ms ih =>
    intro found h n hn
    simp only [checkedAll, Bind.bind, Except.bind] at h
    split at h
    · contradiction
    · rename_i first hfirst
      split at h
      · contradiction
      · rename_i rest hrest
        rcases List.mem_cons.mp hn with rfl | hn
        · exact ⟨first, hfirst⟩
        · exact ih hrest n hn

/-- A function is checked in the context that it makes. -/
theorem checked_function {context : Context} {n : Node} {found : List Node}
    (kind : n.kind.isFunction = true) (h : checked context n = .ok found) :
    (n.isAsync && n.isGenerator) = false ∧
      (∀ p ∈ n.params, ∃ found, checked n.context p = .ok found) ∧
      ∀ c ∈ n.children, ∃ found, checked n.context c = .ok found := by
  obtain ⟨k, value, label, params, children, isAsync, isGenerator, l, span⟩ := n
  simp only [checked, if_pos kind, Bind.bind, Except.bind] at h
  split at h
  · contradiction
  · rename_i sort
    split at h
    · contradiction
    · rename_i inParams hparams
      split at h
      · contradiction
      · rename_i inBody hbody
        exact ⟨by simpa using sort, checkedAll_ok hparams, checkedAll_ok hbody⟩

/-- What is no function is checked by itself and passes its context on. -/
theorem checked_own {context : Context} {n : Node} {found : List Node}
    (kind : n.kind.isFunction = false) (h : checked context n = .ok found) :
    checkOwn context n.kind n.isAsync n.span n.children = .ok () ∧
      ∀ c ∈ n.children, ∃ found, checked context c = .ok found := by
  obtain ⟨k, value, label, params, children, isAsync, isGenerator, l, span⟩ := n
  have kind' : ¬ k.isFunction = true := by simpa using kind
  simp only [checked, if_neg kind', Bind.bind, Except.bind] at h
  split at h
  · contradiction
  · rename_i hown
    split at h
    · contradiction
    · rename_i inside hinside
      exact ⟨hown, checkedAll_ok hinside⟩

/-- A subtree without an unframed action has none in its parts, unless it opens a frame. -/
theorem unframedDefer?_none {n : Node} (kind : opensFrame n.kind = false)
    (h : n.unframedDefer? = none) : n.kind ≠ .defer ∧ ∀ c ∈ n.children, c.unframedDefer? = none := by
  obtain ⟨k, value, label, params, children, isAsync, isGenerator, l, span⟩ := n
  simp only at kind
  simp only [unframedDefer?, kind, Bool.false_eq_true, if_false] at h
  split at h
  · contradiction
  · rename_i hk
    refine ⟨hk, ?_⟩
    have key : ∀ ns : List Node, firstUnframedDefer? ns = none → ∀ c ∈ ns, c.unframedDefer? = none := by
      intro ns
      induction ns with
      | nil => intro _ c hc; contradiction
      | cons m ms ih =>
        intro h c hc
        simp only [firstUnframedDefer?] at h
        split at h
        · contradiction
        · rename_i hm
          rcases List.mem_cons.mp hc with rfl | hc
          · exact hm
          · exact ih h c hc
    exact key children h

/-- A scanned subtree without transfers has none in its parts, unless the scan does not look into
it. -/
theorem transfersIn_nil {isAsync : Bool} {s : Surroundings} {n : Node}
    (function : n.kind.isFunction = false) (defer : n.kind ≠ .defer)
    (h : transfersIn isAsync s n = []) :
    ownTransfer isAsync s n.kind n.label = [] ∧
      ∀ c ∈ n.children, transfersIn isAsync (s.enter n.kind n.label) c = [] := by
  obtain ⟨k, value, label, params, children, nodeAsync, isGenerator, l, span⟩ := n
  simp only at function defer
  simp only [transfersIn, function, Bool.false_eq_true, if_false, if_neg defer,
    List.append_eq_nil_iff] at h
  refine ⟨h.1, ?_⟩
  have key : ∀ (s : Surroundings) (ns : List Node), transfersInAll isAsync s ns = [] →
      ∀ c ∈ ns, transfersIn isAsync s c = [] := by
    intro s ns
    induction ns with
    | nil => intro _ c hc; contradiction
    | cons m ms ih =>
      intro h c hc
      simp only [transfersInAll, List.append_eq_nil_iff] at h
      rcases List.mem_cons.mp hc with rfl | hc
      · exact h.1
      · exact ih h.2 c hc
  exact key _ children h.2

/-- The scan that a deferred action inside a scanned body is part of. -/
theorem transfersIn_defer {isAsync : Bool} {s : Surroundings} {n : Node} (defer : n.kind = .defer)
    (h : transfersIn isAsync s n = []) : n.isAsync = true → isAsync = true := by
  obtain ⟨k, value, label, params, children, nodeAsync, isGenerator, l, span⟩ := n
  simp only at defer
  subst defer
  intro ha
  simp only at ha
  cases isAsync with
  | true => rfl
  | false => simp [transfersIn, NodeKind.isFunction, ha] at h

theorem escapingTransfers_nil {body : Node} {isAsync : Bool}
    (h : body.escapingTransfers isAsync = []) : transfersIn isAsync {} body = [] := by
  simp only [escapingTransfers, List.filter_eq_nil_iff, List.contains_iff_mem] at h
  rw [List.eq_nil_iff_forall_not_mem]
  intro t ht
  exact h t (by cases t <;> decide) ht

/-- What a deferred action satisfies by itself. -/
theorem checkDefer_ok {context : Context} {isAsync : Bool} {span : Span} {body : Node}
    (h : checkDefer context isAsync span [body] = .ok ()) :
    (isAsync = true → context.isAsync = true) ∧ body.unframedDefer? = none ∧
      body.escapingTransfers isAsync = [] := by
  simp only [checkDefer] at h
  split at h
  · contradiction
  · rename_i hasync
    split at h
    · contradiction
    · rename_i hframed
      split at h
      · rename_i hstays
        exact ⟨by simpa using hasync, hframed, by simpa using hstays⟩
      · contradiction

/-- The site allows what the function around it allows, or what the scanned action allows, and what is
said to surround it there is what the scan has found around it. -/
def Site.Follows (s : Site) (context : Context) : Option (Bool × Surroundings) → Prop
  | none => s.context = context ∧ s.targets = none
  | some (isAsync, around) => s.context = ⟨isAsync, false⟩ ∧ (isAsync = true → context.isAsync = true) ∧
    ∀ t ∈ s.targets, t.toSurroundings = around

theorem mem_walkAll {ns : List Node} {f : Node} : f ∈ walkAll ns ↔ ∃ c ∈ ns, f ∈ c.walk := by
  induction ns with
  | nil => simp [walkAll]
  | cons n ns ih => simp [walkAll, ih]

/-- The nodes of the parts of a tree are among its nodes. -/
theorem mem_walk {n c f : Node} (hc : c ∈ n.params ∨ c ∈ n.children) (hf : f ∈ c.walk) : f ∈ n.walk := by
  rw [walk_eq]
  refine List.mem_cons_of_mem _ (List.mem_append.mpr ?_)
  exact hc.imp (fun hc => mem_walkAll.mpr ⟨c, hc, hf⟩) fun hc => mem_walkAll.mpr ⟨c, hc, hf⟩

theorem YieldsInBlocks.part {n c : Node} (h : YieldsInBlocks n) (hc : c ∈ n.params ∨ c ∈ n.children) :
    YieldsInBlocks c := fun f hf => h f (mem_walk hc hf)

/-- The strays of a part are strays of the whole. -/
theorem mem_strayLabels_of_part {n c : Node} (hc : c ∈ n.params ∨ c ∈ n.children) {l : Text}
    (h : l ∈ c.strayLabels) : l ∈ n.strayLabels := by
  obtain ⟨d, hd, hl⟩ := List.mem_flatMap.mp h
  obtain ⟨hd, kind⟩ := List.mem_filter.mp hd
  exact List.mem_flatMap.mpr ⟨d, List.mem_filter.mpr ⟨mem_walk hc hd, kind⟩, hl⟩

/-- The strays of the body of a deferred action are strays of the action. -/
theorem mem_strayLabels_of_body {n body : Node} (kind : n.kind = .defer) (children : n.children = [body])
    {l : Text} (h : l ∈ body.strays []) : l ∈ n.strayLabels := by
  refine List.mem_flatMap.mpr ⟨n, List.mem_filter.mpr ⟨?_, by simp [kind]⟩, ?_⟩
  · rw [walk_eq]
    exact List.mem_cons_self
  · exact mem_straysIn (by simp [children]) h

section Passes

variable [Strays]

/-- What the check has seen of a node: it accepted the node in a context, the scan of the deferred
action around the node found no transfer, and an unframed action was looked for where no frame is
open.  The functions in the node yield in blocks only, and outside blocks they are like actions.  What
the scan lets pass without being met is a stray. -/
structure Passes (context : Context) (scan? : Option (Bool × Surroundings)) (s : Site) (n : Node) :
    Prop where
  checked : ∃ found, checked context n = .ok found
  scanned : ∀ scan ∈ scan?, transfersIn scan.1 scan.2 n = []
  framed : s.isOpen = false → n.unframedDefer? = none
  site : s.Follows context scan?
  yields : YieldsInBlocks n
  strays : ∀ t ∈ s.targets, ∀ l ∈ n.strays t.loops, l ∈ Strays.labels
  actions : ∀ l ∈ n.strayLabels, l ∈ Strays.labels

/-- Kinds whose parts are checked in the context of the node and scanned along with it. -/
def isTransparent (kind : NodeKind) : Bool := !kind.isFunction && kind != .defer

variable {context : Context} {scan? : Option (Bool × Surroundings)} {s : Site} {n : Node}

/-- The parts of a node that is no function and no action pass if the node does. -/
theorem Passes.child (h : Passes context scan? s n) (transparent : isTransparent n.kind = true)
    {c : Node} (hc : c ∈ n.children) {s' : Site} (same : s'.context = s.context)
    (framed : s'.isOpen = false → opensFrame n.kind = false ∧ s.isOpen = false)
    (targets : ∀ t ∈ s'.targets, t ∈ s.targets.map (·.enter n)) :
    ∃ scan?, Passes context scan? s' c := by
  obtain ⟨function, defer⟩ : n.kind.isFunction = false ∧ n.kind ≠ .defer := by
    simpa [isTransparent] using transparent
  obtain ⟨found, hfound⟩ := h.checked
  obtain ⟨-, hinside⟩ := checked_own function hfound
  have hframed : s'.isOpen = false → c.unframedDefer? = none := by
    intro ho
    obtain ⟨hopens, hs⟩ := framed ho
    exact (unframedDefer?_none hopens (h.framed hs)).2 c hc
  have hstrays : ∀ t ∈ s'.targets, ∀ l ∈ c.strays t.loops, l ∈ Strays.labels := by
    intro t ht l hl
    obtain ⟨t₀, ht₀, rfl⟩ := Option.map_eq_some_iff.mp (targets t ht)
    exact h.strays t₀ ht₀ l ((mem_strays function defer).mpr (.inr (mem_straysIn hc hl)))
  have hactions : ∀ l ∈ c.strayLabels, l ∈ Strays.labels := fun l hl =>
    h.actions l (mem_strayLabels_of_part (.inr hc) hl)
  have hsite := h.site
  cases scan? with
  | none =>
    refine ⟨none, hinside c hc, by simp, hframed, ⟨same.trans hsite.1, ?_⟩, h.yields.part (.inr hc),
      hstrays, hactions⟩
    refine Option.eq_none_iff_forall_not_mem.mpr fun t ht => ?_
    have ht := targets t ht
    rw [hsite.2] at ht
    contradiction
  | some scan =>
    obtain ⟨isAsync, around⟩ := scan
    have hclean := h.scanned _ rfl
    refine ⟨some (isAsync, around.enter n.kind n.label), hinside c hc, ?_, hframed,
      ⟨same.trans hsite.1, hsite.2.1, ?_⟩, h.yields.part (.inr hc), hstrays, hactions⟩
    · intro x hx
      obtain rfl := Option.some.inj hx
      exact (transfersIn_nil function defer hclean).2 c hc
    · intro t ht
      obtain ⟨t₀, ht₀, rfl⟩ := Option.map_eq_some_iff.mp (targets t ht)
      rw [← hsite.2.2 t₀ ht₀]
      rfl

/-- The expressions in a node pass. -/
theorem Passes.operand (h : Passes context scan? s n) (transparent : isTransparent n.kind = true)
    {c : Node} (hc : c ∈ n.children) : ∃ scan?, Passes context scan? s.operand c :=
  h.child transparent hc rfl (by simp [Site.operand]) (by simp [Site.operand])

/-- The body of a loop and the clauses of a switch pass as parts in a frame. -/
theorem Passes.pass (h : Passes context scan? s n) (transparent : isTransparent n.kind = true)
    {c : Node} (hc : c ∈ n.children) : ∃ scan?, Passes context scan? (s.enter n).inFrame c :=
  h.child transparent hc rfl (by simp [Site.inFrame]) fun _ => id

/-- The statements of a block pass as parts in a frame. -/
theorem Passes.inside (h : Passes context scan? s n) (transparent : isTransparent n.kind = true)
    (plain : isTargeted n.kind = false) {c : Node} (hc : c ∈ n.children) :
    ∃ scan?, Passes context scan? s.inFrame c := by
  have passes := h.pass transparent hc
  rwa [s.enter_eq plain] at passes

/-- The statement behind a label passes. -/
theorem Passes.behind (h : Passes context scan? s n) (transparent : isTransparent n.kind = true)
    (opens : opensFrame n.kind = false) {c : Node} (hc : c ∈ n.children) :
    ∃ scan?, Passes context scan? (s.enter n) c :=
  h.child transparent hc rfl (fun ho => ⟨opens, ho⟩) fun _ => id

/-- The statements in a node that opens no frame pass at the site of the node. -/
theorem Passes.along (h : Passes context scan? s n) (transparent : isTransparent n.kind = true)
    (opens : opensFrame n.kind = false) (plain : isTargeted n.kind = false) {c : Node}
    (hc : c ∈ n.children) : ∃ scan?, Passes context scan? s c := by
  have passes := h.behind transparent opens hc
  rwa [s.enter_eq plain] at passes

/-- The parameters and the body of a function pass in the context of the function. -/
theorem Passes.function (h : Passes context scan? s n) (function : n.kind.isFunction = true)
    {c : Node} (hc : c ∈ n.params ∨ c ∈ n.children) :
    ∃ scan?, Passes n.context scan? (.within n.context c) c := by
  obtain ⟨found, hfound⟩ := h.checked
  obtain ⟨-, hparams, hbody⟩ := checked_function function hfound
  have hc' : ∃ found, Node.checked n.context c = .ok found := by
    rcases hc with hc | hc
    · exact hparams c hc
    · exact hbody c hc
  have hactions : ∀ l ∈ c.strayLabels, l ∈ Strays.labels := fun l hl =>
    h.actions l (mem_strayLabels_of_part hc hl)
  by_cases hblock : c.kind = .block
  · refine ⟨none, hc', by simp, by simp [Site.within], ?_, h.yields.part hc, by simp [Site.within],
      hactions⟩
    simp [Site.Follows, Site.within, hblock, Node.context]
  · have hclean := h.yields n (by rw [walk_eq]; exact List.mem_cons_self) function c
      (List.mem_append.mpr hc) hblock
    refine ⟨some (n.isAsync, {}), hc', ?_, by simp [Site.within], ?_, h.yields.part hc,
      by simp [Site.within], hactions⟩
    · intro x hx
      obtain rfl := Option.some.inj hx
      exact escapingTransfers_nil hclean
    · simp [Site.Follows, Site.within, hblock, Node.context]

/-- The body of a deferred action passes as the body of an action. -/
theorem Passes.action (h : Passes context scan? s n) (defer : n.kind = .defer) {body : Node}
    (children : n.children = [body]) :
    Passes context (some (n.isAsync, {})) (.ofAction n.isAsync) body := by
  obtain ⟨found, hfound⟩ := h.checked
  obtain ⟨hown, hinside⟩ := checked_own (by simp [defer, NodeKind.isFunction]) hfound
  rw [checkOwn, if_pos defer, children] at hown
  obtain ⟨hasync, hframed, hstays⟩ := checkDefer_ok hown
  have hbody : body ∈ n.children := by simp [children]
  refine ⟨hinside body hbody, ?_, fun _ => hframed, ⟨rfl, hasync, ?_⟩, h.yields.part (.inr hbody), ?_,
    fun l hl => h.actions l (mem_strayLabels_of_part (.inr hbody) hl)⟩
  · intro x hx
    obtain rfl := Option.some.inj hx
    exact escapingTransfers_nil hstays
  · intro t ht
    rw [← Option.some.inj ht]
  · intro t ht l hl
    rw [← Option.some.inj ht] at hl
    exact h.actions l (mem_strayLabels_of_body defer children hl)

/-- A jump that the scan of an action lets pass is met in the action, or it is a stray. -/
theorem Passes.jumps (h : Passes context scan? s n) : ∀ r ∈ n.jump?, s.Admits r := by
  intro r hr t ht
  have hsite := h.site
  cases scan? with
  | none =>
    rw [hsite.2] at ht
    contradiction
  | some scan =>
    obtain ⟨isAsync, around⟩ := scan
    obtain ⟨function, defer⟩ : n.kind.isFunction = false ∧ n.kind ≠ .defer := by
      unfold jump? at hr
      split at hr <;> simp_all [NodeKind.isFunction]
    have hown := (transfersIn_nil function defer (h.scanned _ rfl)).1
    rw [← hsite.2.2 t ht] at hown
    have hstrays := h.strays t ht
    unfold jump? at hr
    split at hr
    · rename_i kind
      obtain rfl := Option.some.inj hr
      simp only [ownTransfer, kind, Surroundings.escapes] at hown
      cases hl : n.label <;> simpa [hl, Targets.Admits] using hown
    · rename_i kind
      obtain rfl := Option.some.inj hr
      simp only [ownTransfer, kind, Surroundings.escapes] at hown
      cases hl : n.label with
      | none => simpa [hl, Targets.Admits] using hown
      | some l =>
        by_cases hloop : l ∈ t.loops
        · exact .inl hloop
        · exact .inr (hstrays l ((mem_strays function defer).mpr (.inl ⟨kind, hl, hloop⟩)))
    · rename_i kind
      simp [ownTransfer, kind] at hown
    · contradiction

/-- A node that passes is allowed at its site, provided that an action has its body. -/
theorem Passes.allowed (h : Passes context scan? s n) {s₀ : Site} (plain : IsPlain s₀ n)
    (body : n.kind = .defer → ∃ body, n.children = [body]) : Allowed s n := by
  obtain ⟨found, hfound⟩ := h.checked
  -- what a suspension needs: the context has it, and no scan has found it
  have suspension : n.kind = .await ∨ n.kind = .yield →
      checkOwn context n.kind n.isAsync n.span n.children = .ok () ∧
        ∀ scan ∈ scan?, ownTransfer scan.1 scan.2 n.kind n.label = [] := by
    intro hk
    have hfunction : n.kind.isFunction = false := by rcases hk with hk | hk <;> rw [hk] <;> rfl
    have hdefer : n.kind ≠ .defer := by rcases hk with hk | hk <;> rw [hk] <;> decide
    refine ⟨(checked_own hfunction hfound).1, fun scan hscan => ?_⟩
    exact (transfersIn_nil hfunction hdefer (h.scanned scan hscan)).1
  have action : n.kind = .defer → ∃ body, n.children = [body] ∧
      (n.isAsync = true → context.isAsync = true) ∧ body.escapingTransfers n.isAsync = [] := by
    intro hk
    obtain ⟨body, hbody⟩ := body hk
    obtain ⟨hown, -⟩ := checked_own (by simp [hk, NodeKind.isFunction]) hfound
    rw [checkOwn, if_pos hk, hbody] at hown
    exact ⟨body, hbody, (checkDefer_ok hown).1, (checkDefer_ok hown).2.2⟩
  have hsite := h.site
  refine ⟨plain.1, ?_, ?_, ?_, ?_, ?_, ?_, h.jumps⟩
  · intro hk
    obtain ⟨hown, hscan⟩ := suspension (.inl hk)
    cases scan? with
    | none =>
      rw [hsite.1]
      simpa [checkOwn, hk, NodeKind.isLoop, misplaced] using hown
    | some scan =>
      rw [hsite.1]
      simpa [ownTransfer, hk] using hscan scan rfl
  · intro hk
    obtain ⟨hown, hscan⟩ := suspension (.inr hk)
    cases scan? with
    | none =>
      rw [hsite.1]
      simpa [checkOwn, hk, NodeKind.isLoop, misplaced] using hown
    | some scan =>
      have := hscan scan rfl
      simp [ownTransfer, hk] at this
  · intro hk
    cases ho : s.isOpen with
    | true => rfl
    | false =>
      have hframed := h.framed ho
      obtain ⟨k, value, label, params, children, isAsync, isGenerator, l, span⟩ := n
      simp only at hk
      simp [unframedDefer?, hk] at hframed
  · intro hk ha
    obtain ⟨-, -, hasync, -⟩ := action hk
    cases scan? with
    | none =>
      rw [hsite.1]
      exact hasync ha
    | some scan =>
      rw [hsite.1]
      exact transfersIn_defer hk (h.scanned scan rfl) ha
  · intro hk b hb
    obtain ⟨body, hbody, -, hstays⟩ := action hk
    rw [hbody, List.mem_singleton] at hb
    rw [hb]
    exact hstays
  · intro hk
    exact (checked_function hk hfound).1

/-- The same for a node whose kind tells that it is no action. -/
theorem Passes.allowed_of (h : Passes context scan? s n) {s₀ : Site} (plain : IsPlain s₀ n)
    (kind : n.kind ≠ .defer) : Allowed s n := h.allowed plain fun hk => absurd hk kind

end Passes

/-! ### The whole tree -/

/-- What the check has seen of a tree is true of all nodes in it, each at its site. -/
theorem Shaped.allowed [Strays] {role : Role} {s₀ : Site} {n : Node} (h : Shaped IsPlain role s₀ n) :
    ∀ {context : Context} {scan? : Option (Bool × Surroundings)} {s : Site},
      Passes context scan? s n → Shaped Allowed role s n := by
  induction h with
  | @jump _ n own kind leaf =>
    intro context scan? s h
    have hd : n.kind ≠ .defer := by rcases kind with kind | kind | kind <;> simp [kind]
    exact .jump (h.allowed_of own hd) kind leaf
  | @simple _ n own kind _ parts =>
    intro context scan? s h
    have ht : isTransparent n.kind = true := by
      rcases kind with kind | kind | kind <;> rw [kind] <;> rfl
    have hd : n.kind ≠ .defer := by rcases kind with kind | kind | kind <;> simp [kind]
    refine .simple (h.allowed_of own hd) kind fun c hc => ?_
    obtain ⟨_, hp⟩ := h.operand ht hc
    exact parts c hc hp
  | @declaration _ n own kind _ parts =>
    intro context scan? s h
    refine .declaration (h.allowed_of own (by simp [kind])) kind fun c hc => ?_
    obtain ⟨_, hp⟩ := h.operand (by rw [kind]; rfl) hc
    exact parts c hc hp
  | @declarator _ n own kind _ parts =>
    intro context scan? s h
    refine .declarator (h.allowed_of own (by simp [kind])) kind fun c hc => ?_
    obtain ⟨_, hp⟩ := h.operand (by rw [kind]; rfl) hc
    exact parts c hc hp
  | @block _ n own kind _ parts =>
    intro context scan? s h
    refine .block (h.allowed_of own (by simp [kind])) kind fun c hc => ?_
    obtain ⟨_, hp⟩ := h.inside (by rw [kind]; rfl) (by rw [kind]; rfl) hc
    exact parts c hc hp
  | @conditional _ n condition branches own kind children _ _ test parts =>
    intro context scan? s h
    have ht : isTransparent n.kind = true := by rw [kind]; rfl
    obtain ⟨_, hp⟩ := h.operand ht (c := condition) (by simp [children])
    refine .conditional (h.allowed_of own (by simp [kind])) kind children (test hp) fun c hc => ?_
    obtain ⟨_, hp⟩ := h.along ht (by rw [kind]; rfl) (by rw [kind]; rfl) (c := c) (by simp [children, hc])
    exact parts c hc hp
  | @whileLoop _ n condition body own kind children _ _ test pass =>
    intro context scan? s h
    have ht : isTransparent n.kind = true := by rw [kind]; rfl
    obtain ⟨_, hp₁⟩ := h.operand ht (c := condition) (by simp [children])
    obtain ⟨_, hp₂⟩ := h.pass ht (c := body) (by simp [children])
    exact .whileLoop (h.allowed_of own (by simp [kind])) kind children (test hp₁) (pass hp₂)
  | @doWhileLoop _ n condition body own kind children _ _ test pass =>
    intro context scan? s h
    have ht : isTransparent n.kind = true := by rw [kind]; rfl
    obtain ⟨_, hp₁⟩ := h.operand ht (c := condition) (by simp [children])
    obtain ⟨_, hp₂⟩ := h.pass ht (c := body) (by simp [children])
    exact .doWhileLoop (h.allowed_of own (by simp [kind])) kind children (test hp₁) (pass hp₂)
  | @forLoop _ n first condition step body own kind children _ isStart _ _ _ start test advance
      pass =>
    intro context scan? s h
    have ht : isTransparent n.kind = true := by rw [kind]; rfl
    obtain ⟨_, hp₁⟩ := h.operand ht (c := first) (by simp [children])
    obtain ⟨_, hp₂⟩ := h.operand ht (c := condition) (by simp [children])
    obtain ⟨_, hp₃⟩ := h.operand ht (c := step) (by simp [children])
    obtain ⟨_, hp₄⟩ := h.pass ht (c := body) (by simp [children])
    exact .forLoop (h.allowed_of own (by simp [kind])) kind children (start hp₁) isStart
      (test hp₂) (advance hp₃) (pass hp₄)
  | @forOfLoop _ n iterable body own kind children _ _ subject pass =>
    intro context scan? s h
    have ht : isTransparent n.kind = true := by rw [kind]; rfl
    obtain ⟨_, hp₁⟩ := h.operand ht (c := iterable) (by simp [children])
    obtain ⟨_, hp₂⟩ := h.pass ht (c := body) (by simp [children])
    exact .forOfLoop (h.allowed_of own (by simp [kind])) kind children (subject hp₁) (pass hp₂)
  | @switch _ n subject clauses own kind children _ _ test parts =>
    intro context scan? s h
    have ht : isTransparent n.kind = true := by rw [kind]; rfl
    obtain ⟨_, hp⟩ := h.operand ht (c := subject) (by simp [children])
    refine .switch (h.allowed_of own (by simp [kind])) kind children (test hp) fun c hc => ?_
    obtain ⟨_, hp⟩ := h.pass ht (c := c) (by simp [children, hc])
    exact parts c hc hp
  | @case _ n test statements own kind children _ _ label parts =>
    intro context scan? s h
    have ht : isTransparent n.kind = true := by rw [kind]; rfl
    obtain ⟨_, hp⟩ := h.operand ht (c := test) (by simp [children])
    refine .case (h.allowed_of own (by simp [kind])) kind children (label hp) fun c hc => ?_
    obtain ⟨_, hp⟩ := h.along ht (by rw [kind]; rfl) (by rw [kind]; rfl) (c := c) (by simp [children, hc])
    exact parts c hc hp
  | @default _ n own kind _ parts =>
    intro context scan? s h
    refine .default (h.allowed_of own (by simp [kind])) kind fun c hc => ?_
    obtain ⟨_, hp⟩ := h.along (by rw [kind]; rfl) (by rw [kind]; rfl) (by rw [kind]; rfl) hc
    exact parts c hc hp
  | @attempt _ n body handler finalizer own kind children _ _ _ inside rescue last =>
    intro context scan? s h
    have ht : isTransparent n.kind = true := by rw [kind]; rfl
    have ho : opensFrame n.kind = false := by rw [kind]; rfl
    have hp : isTargeted n.kind = false := by rw [kind]; rfl
    obtain ⟨_, hp₁⟩ := h.along ht ho hp (c := body) (by simp [children])
    obtain ⟨_, hp₂⟩ := h.along ht ho hp (c := handler) (by simp [children])
    obtain ⟨_, hp₃⟩ := h.along ht ho hp (c := finalizer) (by simp [children])
    exact .attempt (h.allowed_of own (by simp [kind])) kind children (inside hp₁) (rescue hp₂)
      (last hp₃)
  | @handler _ n body own kind children _ inside =>
    intro context scan? s h
    obtain ⟨_, hp⟩ := h.along (by rw [kind]; rfl) (by rw [kind]; rfl) (by rw [kind]; rfl)
      (c := body) (by simp [children])
    exact .handler (h.allowed_of own (by simp [kind])) kind children (inside hp)
  | @noHandler _ n own kind leaf =>
    intro context scan? s h
    exact .noHandler (h.allowed_of own (by simp [kind])) kind leaf
  | @labeled _ n target own kind children _ inside =>
    intro context scan? s h
    obtain ⟨_, hp⟩ := h.behind (by rw [kind]; rfl) (by rw [kind]; rfl) (c := target)
      (by simp [children])
    exact .labeled (h.allowed_of own (by simp [kind])) kind children (inside hp)
  | @defer _ n body own kind children _ inside =>
    intro context scan? s h
    exact .defer (h.allowed own fun _ => ⟨body, children⟩) kind children
      (inside (h.action kind children))
  | @function _ n own kind _ _ params parts =>
    intro context scan? s h
    have hf : n.kind.isFunction = true := by rw [kind]; rfl
    refine .function (h.allowed_of own (by simp [kind])) kind (fun p hp => ?_) fun c hc => ?_
    · obtain ⟨_, hpasses⟩ := h.function hf (.inl hp)
      exact params p hp hpasses
    · obtain ⟨_, hpasses⟩ := h.function hf (.inr hc)
      exact parts c hc hpasses
  | @param _ n own kind _ parts =>
    intro context scan? s h
    refine .param (h.allowed_of own (by simp [kind])) kind fun c hc => ?_
    obtain ⟨_, hp⟩ := h.operand (by rw [kind]; rfl) hc
    exact parts c hc hp
  | @blockBody _ n own kind _ parts =>
    intro context scan? s h
    refine .blockBody (h.allowed_of own (by simp [kind])) kind fun c hc => ?_
    obtain ⟨_, hp⟩ := h.inside (by rw [kind]; rfl) (by rw [kind]; rfl) hc
    exact parts c hc hp
  | valueBody _ inside =>
    intro context scan? s h
    exact .valueBody (inside h)
  | @leaf _ n own kind leaf =>
    intro context scan? s h
    have hd : n.kind ≠ .defer := by rcases kind with kind | kind <;> simp [kind]
    exact .leaf (h.allowed_of own hd) kind leaf
  | @operation _ n own kind _ parts =>
    intro context scan? s h
    have ht : isTransparent n.kind = true := by
      revert kind
      cases n.kind <;> simp [isOperation, isTransparent, NodeKind.isFunction]
    have hd : n.kind ≠ .defer := by rintro hk; simp [hk, isOperation] at kind
    refine .operation (h.allowed_of own hd) kind fun c hc => ?_
    obtain ⟨_, hp⟩ := h.operand ht hc
    exact parts c hc hp
  | @assignment _ n own kind _ target parts =>
    intro context scan? s h
    have ht : isTransparent n.kind = true := by rcases kind with kind | kind <;> rw [kind] <;> rfl
    have hd : n.kind ≠ .defer := by rcases kind with kind | kind <;> simp [kind]
    refine .assignment (h.allowed_of own hd) kind (fun c hc => ?_) target
    obtain ⟨_, hp⟩ := h.operand ht hc
    exact parts c hc hp
  | @object _ n own kind _ parts =>
    intro context scan? s h
    refine .object (h.allowed_of own (by simp [kind])) kind fun c hc => ?_
    obtain ⟨_, hp⟩ := h.operand (by rw [kind]; rfl) hc
    exact parts c hc hp
  | @property _ n own kind _ parts =>
    intro context scan? s h
    refine .property (h.allowed_of own (by simp [kind])) kind fun c hc => ?_
    obtain ⟨_, hp⟩ := h.operand (by rw [kind]; rfl) hc
    exact parts c hc hp
  | @functionExpression _ n own kind _ _ params parts =>
    intro context scan? s h
    have hf : n.kind.isFunction = true := by rw [kind]; rfl
    refine .functionExpression (h.allowed_of own (by simp [kind])) kind (fun p hp => ?_) fun c hc => ?_
    · obtain ⟨_, hpasses⟩ := h.function hf (.inl hp)
      exact params p hp hpasses
    · obtain ⟨_, hpasses⟩ := h.function hf (.inr hc)
      exact parts c hc hpasses
  | @noPart _ n own kind leaf =>
    intro context scan? s h
    exact .noPart (h.allowed_of own (by simp [kind])) kind leaf
  | part _ inside =>
    intro context scan? s h
    exact .part (inside h)

/-- **Main result.**  In a well-formed program that the check accepts, and whose generators yield in
blocks only, every `await`, `yield`, function and deferred action stands at a site that allows it, and a
jump in a deferred action is met by what surrounds it there, if it is no stray. -/
theorem WellFormed.allowed [Strays] {program : Node} (h : WellFormed program)
    (yields : YieldsInBlocks program) (strays : ∀ l ∈ program.strayLabels, l ∈ Strays.labels)
    {allowTopLevelAwait : Bool} {found : List Node}
    (accepted : program.validate allowTopLevelAwait = .ok found) :
    ∀ c ∈ program.children, Shaped Allowed .statement ⟨⟨allowTopLevelAwait, false⟩, true, none⟩ c := by
  intro c hc
  have passes : Passes ⟨allowTopLevelAwait, false⟩ none ⟨⟨allowTopLevelAwait, false⟩, true, none⟩
      program := ⟨⟨found, accepted⟩, by simp, by simp, ⟨rfl, rfl⟩, yields, by simp, strays⟩
  obtain ⟨_, hp⟩ := passes.inside (by rw [h.kind]; rfl) (by rw [h.kind]; rfl) hc
  exact (h.statements c hc).allowed hp

/-! ### Literals -/

theorem nameAllLiterals_eq {ns : List Node} (h : ∀ n ∈ ns, ∀ key, nameLiterals key n = (n, key)) :
    ∀ key, nameAllLiterals key ns = (ns, key) := by
  induction ns with
  | nil => intro key; rfl
  | cons n ns ih =>
    intro key
    simp only [nameAllLiterals, h n (by simp), ih fun m hm => h m (by simp [hm])]

/-- Scalars have no identity, so no literal is named. -/
theorem nameLiterals_eq {s : Site} {n : Node} (own : IsPlain s n)
    (params : ∀ p ∈ n.params, ∀ key, nameLiterals key p = (p, key))
    (children : ∀ c ∈ n.children, ∀ key, nameLiterals key c = (c, key)) (key : Nat) :
    nameLiterals key n = (n, key) := by
  obtain ⟨kind, value, label, ps, cs, a, g, l, span⟩ := n
  have hvalue : value.isComposite = false := Datum.isComposite_eq_false own.1
  simp only at params children
  simp only [nameLiterals, hvalue, Bool.false_eq_true, if_false, nameAllLiterals_eq params,
    nameAllLiterals_eq children]

/-- The same for a node that is no function and has no parameters. -/
theorem nameLiterals_eq_of {s : Site} {n : Node} (own : IsPlain s n)
    (kind : n.kind.isFunction = false)
    (children : ∀ c ∈ n.children, ∀ key, nameLiterals key c = (c, key)) (key : Nat) :
    nameLiterals key n = (n, key) :=
  nameLiterals_eq own (by simp [own.2 kind]) children key

theorem Shaped.nameLiterals_eq {role : Role} {s : Site} {n : Node} (h : Shaped IsPlain role s n) :
    ∀ key, nameLiterals key n = (n, key) := by
  induction h with
  | @jump _ n own kind leaf =>
    have hk : n.kind.isFunction = false := by rcases kind with kind | kind | kind <;> rw [kind] <;> rfl
    exact nameLiterals_eq_of own hk (by simp [leaf])
  | @simple _ n own kind _ parts =>
    have hk : n.kind.isFunction = false := by rcases kind with kind | kind | kind <;> rw [kind] <;> rfl
    exact nameLiterals_eq_of own hk parts
  | declaration own kind _ parts | declarator own kind _ parts | default own kind _ parts
  | param own kind _ parts | block own kind _ parts | blockBody own kind _ parts
  | object own kind _ parts | property own kind _ parts =>
    exact nameLiterals_eq_of own (by rw [kind]; rfl) parts
  | conditional own kind children _ _ test parts | switch own kind children _ _ test parts
  | case own kind children _ _ test parts =>
    refine nameLiterals_eq_of own (by rw [kind]; rfl) ?_
    rw [children]
    exact List.forall_mem_cons.mpr ⟨test, parts⟩
  | whileLoop own kind children _ _ test pass | forOfLoop own kind children _ _ test pass =>
    exact nameLiterals_eq_of own (by rw [kind]; rfl) (by simp [children, test, pass])
  | doWhileLoop own kind children _ _ test pass =>
    exact nameLiterals_eq_of own (by rw [kind]; rfl) (by simp [children, test, pass])
  | forLoop own kind children _ _ _ _ _ start test advance pass =>
    exact nameLiterals_eq_of own (by rw [kind]; rfl) (by simp [children, start, test, advance, pass])
  | attempt own kind children _ _ _ inside rescue last =>
    exact nameLiterals_eq_of own (by rw [kind]; rfl) (by simp [children, inside, rescue, last])
  | handler own kind children _ inside | labeled own kind children _ inside
  | defer own kind children _ inside =>
    exact nameLiterals_eq_of own (by rw [kind]; rfl) (by simp [children, inside])
  | noHandler own kind leaf | noPart own kind leaf =>
    exact nameLiterals_eq_of own (by rw [kind]; rfl) (by simp [leaf])
  | function own _ _ _ params parts | functionExpression own _ _ _ params parts =>
    exact Node.nameLiterals_eq own params parts
  | valueBody _ inside | part _ inside => exact inside
  | @leaf _ n own kind leaf =>
    have hk : n.kind.isFunction = false := by rcases kind with kind | kind <;> rw [kind] <;> rfl
    exact nameLiterals_eq_of own hk (by simp [leaf])
  | @operation _ n own kind _ parts =>
    have hk : n.kind.isFunction = false := by
      revert kind
      cases n.kind <;> simp [isOperation, NodeKind.isFunction]
    exact nameLiterals_eq_of own hk parts
  | @assignment _ n own kind _ _ parts =>
    have hk : n.kind.isFunction = false := by rcases kind with kind | kind <;> rw [kind] <;> rfl
    exact nameLiterals_eq_of own hk parts

/-- The literals of a well-formed program are scalars, so it runs as it stands. -/
theorem WellFormed.withIdentities_eq {program : Node} (h : WellFormed program) :
    program.withIdentities = program :=
  congrArg Prod.fst (nameLiterals_eq_of h.own (by rw [h.kind]; rfl)
    (fun c hc => (h.statements c hc).nameLiterals_eq) program.freshKey)

end Node

end ScopeExit
