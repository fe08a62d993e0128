import ScopeExit.Proofs.Tree.Escapes
import ScopeExit.Proofs.Tree.Shape
import ScopeExit.Script.Expression
/-!
What a node of a program tree consists of.

The evaluator takes the children of a node by their position, so the kind of a node has to say what
stands where.  `NodeKind.layout` says it as data: the slots of the first children, and what may come
after them.  A slot admits kinds of nodes, so that whether a node `Fits` its kind shows on the node and
its children alone, and a tree is well-formed if all of its nodes fit.  `Fills` is the same for a tree
in a slot, in the form in which trees are put together: a node that has its own data and trees for its
slots fills the slots that admit its kind.

The parameters of a node are not part of its layout.  Only functions have any.
-/
namespace ScopeExit

namespace NodeKind

/-- Statements, of which blocks have any number. -/
def isStatement : NodeKind → Bool
  | .block | .expressionStatement | .declaration | .conditionalStatement | .whileLoop | .doWhileLoop
  | .forLoop | .forOfLoop | .switch | .break | .continue | .return | .throw | .try | .function
  | .labeled | .defer => true
  | _ => false

/-- Expressions. -/
def isExpression : NodeKind → Bool
  | .identifier | .literal | .template | .binary | .logical | .unary | .update | .assign | .call
  | .member | .index | .array | .object | .functionExpression | .new | .await | .yield
  | .conditional | .sequence => true
  | _ => false

end NodeKind

/-- What a position in a program tree is for. -/
inductive Slot where
  /-- A statement in a list, which holds no empty ones. -/
  | listed
  /-- Exactly one statement, which may be empty. -/
  | statement
  /-- The start of a `for` loop. -/
  | start
  | block
  /-- A `catch` clause, or nothing. -/
  | handler
  /-- A block, or nothing. -/
  | finalizer
  | clause | declarator | property | param | expression
  /-- An expression, or nothing. -/
  | part
  /-- What can be assigned to. -/
  | target
  /-- The body of a function expression. -/
  | body
  deriving DecidableEq

namespace Slot

/-- What a node in a slot stands for. -/
def role : Slot → Node.Role
  | .listed | .statement | .start | .block | .finalizer => .statement
  | .handler => .handler
  | .clause => .clause
  | .declarator => .declarator
  | .property => .property
  | .param => .param
  | .expression | .target => .expression
  | .part => .part
  | .body => .body

/-- The kinds of nodes that may stand in a slot. -/
def admits : Slot → NodeKind → Bool
  | .listed, k => k.isStatement
  | .statement, k => k.isStatement || k == .empty
  | .start, k => Node.isStart k
  | .block, k => k == .block
  | .handler, k => k == .catch || k == .empty
  | .finalizer, k => k == .block || k == .empty
  | .clause, k => k == .case || k == .default
  | .declarator, k => k == .declarator
  | .property, k => k == .property
  | .param, k => k == .param
  | .expression, k => k.isExpression
  | .part, k => k.isExpression || k == .empty
  | .target, k => Node.isTarget k
  | .body, k => k.isExpression || k == .block

end Slot

/-- What comes after the first children of a node. -/
inductive Layout.Rest where
  | nothing
  | optional (s : Slot)
  | any (s : Slot)

/-- The slots of the children of a node. -/
structure Layout where
  fixed : List Slot := []
  rest : Layout.Rest := .nothing

/-- The slots after the first ones. -/
def Layout.Rest.slots : Layout.Rest → List Slot
  | .nothing => []
  | .optional s | .any s => [s]

/-- All slots of a layout. -/
def Layout.slots (l : Layout) : List Slot := l.fixed ++ l.rest.slots

/-- The layout of a kind of nodes. -/
def NodeKind.layout : NodeKind → Layout
  | .program | .block | .default => { rest := .any .listed }
  | .expressionStatement | .throw => { fixed := [.expression] }
  | .declaration => { rest := .any .declarator }
  | .declarator | .return | .yield | .param => { rest := .optional .expression }
  | .conditionalStatement => { fixed := [.expression, .statement], rest := .optional .statement }
  | .whileLoop | .forOfLoop => { fixed := [.expression, .statement] }
  | .doWhileLoop => { fixed := [.statement, .expression] }
  | .forLoop => { fixed := [.start, .part, .part, .statement] }
  | .switch => { fixed := [.expression], rest := .any .clause }
  | .case => { fixed := [.expression], rest := .any .listed }
  | .try => { fixed := [.block, .handler, .finalizer] }
  | .catch | .function => { fixed := [.block] }
  | .functionExpression => { fixed := [.body] }
  | .labeled | .defer => { fixed := [.statement] }
  | .break | .continue | .empty | .identifier | .literal => {}
  | .template | .array | .sequence => { rest := .any .expression }
  | .binary | .logical | .index => { fixed := [.expression, .expression] }
  | .conditional => { fixed := [.expression, .expression, .expression] }
  | .unary | .member | .property | .await => { fixed := [.expression] }
  | .update => { fixed := [.target] }
  | .assign => { fixed := [.target, .expression] }
  | .call | .new => { fixed := [.expression], rest := .any .expression }
  | .object => { rest := .any .property }

namespace Layout

variable {P Q : Slot → Node → Prop}

/-- The nodes after the first ones are as the layout asks for. -/
def HoldsAfter (P : Slot → Node → Prop) : Rest → List Node → Prop
  | .nothing, ns => ns = []
  | .optional s, ns => ns.length ≤ 1 ∧ ∀ n ∈ ns, P s n
  | .any s, ns => ∀ n ∈ ns, P s n

/-- A list of nodes has a node for each of some slots, and after them what the layout asks for. -/
def HoldsFrom (P : Slot → Node → Prop) (rest : Rest) : List Slot → List Node → Prop
  | [], ns => HoldsAfter P rest ns
  | _ :: _, [] => False
  | s :: slots, n :: ns => P s n ∧ HoldsFrom P rest slots ns

/-- Nodes are in the order of a layout, and each is right for its slot. -/
def Holds (l : Layout) (P : Slot → Node → Prop) (ns : List Node) : Prop :=
  HoldsFrom P l.rest l.fixed ns

theorem HoldsFrom.mono {rest : Rest} {slots : List Slot} {ns : List Node}
    (h : HoldsFrom P rest slots ns) (imp : ∀ s, ∀ n ∈ ns, P s n → Q s n) :
    HoldsFrom Q rest slots ns := by
  induction slots generalizing ns with
  | nil =>
    cases rest with
    | nothing => exact h
    | optional s => exact ⟨h.1, fun n hn => imp s n hn (h.2 n hn)⟩
    | any s => exact fun n hn => imp s n hn (h n hn)
  | cons s slots ih =>
    cases ns with
    | nil => exact h
    | cons n ns =>
      exact ⟨imp s n List.mem_cons_self h.1,
        ih h.2 fun s' m hm => imp s' m (List.mem_cons_of_mem n hm)⟩

theorem Holds.mono {l : Layout} {ns : List Node} (h : l.Holds P ns)
    (imp : ∀ s, ∀ n ∈ ns, P s n → Q s n) : l.Holds Q ns :=
  HoldsFrom.mono h imp

theorem HoldsFrom.cons {rest : Rest} {slot : Slot} {slots : List Slot} {ns : List Node}
    (h : HoldsFrom P rest (slot :: slots) ns) :
    ∃ n ns', ns = n :: ns' ∧ P slot n ∧ HoldsFrom P rest slots ns' := by
  cases ns with
  | nil => contradiction
  | cons n ns => exact ⟨n, ns, rfl, h.1, h.2⟩

/-- Each of the nodes is in one of the slots. -/
theorem HoldsFrom.exists_slot {rest : Rest} {slots : List Slot} {ns : List Node}
    (h : HoldsFrom P rest slots ns) {n : Node} (mem : n ∈ ns) : ∃ s ∈ slots ++ rest.slots, P s n := by
  induction slots generalizing ns with
  | nil =>
    cases rest with
    | nothing => cases (h : ns = []); cases mem
    | optional s => exact ⟨s, List.mem_singleton_self s, h.2 n mem⟩
    | any s => exact ⟨s, List.mem_singleton_self s, h n mem⟩
  | cons s slots ih =>
    obtain ⟨m, ms, rfl, hm, later⟩ := h.cons
    obtain rfl | mem := List.mem_cons.mp mem
    · exact ⟨s, List.mem_cons_self, hm⟩
    · obtain ⟨s', mem', h'⟩ := ih later mem
      exact ⟨s', List.mem_cons_of_mem s mem', h'⟩

/-- Where all slots are the same, all nodes are right for that one. -/
theorem Holds.forall_mem {l : Layout} {ns : List Node} (h : l.Holds P ns) (slot : Slot)
    (same : ∀ s ∈ l.slots, s = slot) : ∀ n ∈ ns, P slot n := by
  intro n mem
  obtain ⟨s, hs, holds⟩ := HoldsFrom.exists_slot h mem
  exact same s hs ▸ holds

end Layout

/-! ### Operators -/

/-- The evaluator has a case for a binary operator. -/
def HandlesBinary (op : Text) : Prop := ∀ h : Heap, (op.toString?.bind h.binaryNamed?).isSome = true

/-- The evaluator has a case for a logical operator. -/
def HandlesLogical (op : Text) : Prop := op = "&&" ∨ op = "||" ∨ op = "??"

/-- The evaluator has a case for a unary operator: it is in the table, or it is `delete`, which the
evaluator knows and answers with an error of the script before it comes to the operand. -/
def HandlesUnary (op : Text) : Prop :=
  op = "delete" ∨ ∀ h : Heap, (op.toString?.bind h.unaryNamed?).isSome = true

/-- The evaluator has a case for an update. -/
def HandlesUpdate (op : Text) : Prop := op = "++" ∨ op = "--"

/-- The evaluator has a case for an assignment: it is the simple one, decides by the old value whether
to assign, or combines the values by a binary operator. -/
def HandlesAssign (op : Text) : Prop :=
  op = "=" ∨ (∀ v, (Script.World.keepsCurrent? op v).isSome = true) ∨ HandlesBinary ⟨op.codes.dropLast⟩

namespace Node

/-! ### Nodes -/

/-- The data of a node is what its kind asks for: a name, an operator, a literal, or nothing. -/
def HasData (n : Node) : Prop :=
  match n.kind with
  | .declaration | .declarator | .forOfLoop | .function | .functionExpression | .param | .identifier
  | .member | .property => ∃ t, n.value = .text t
  | .catch => n.value = .null ∨ ∃ t, n.value = .text t
  | .literal => n.value.isScalar = true
  | .binary => ∃ op, n.value = .text op ∧ HandlesBinary op
  | .logical => ∃ op, n.value = .text op ∧ HandlesLogical op
  | .unary => ∃ op, n.value = .text op ∧ HandlesUnary op
  | .update => ∃ op, n.value = .text op ∧ HandlesUpdate op
  | .assign => ∃ op, n.value = .text op ∧ HandlesAssign op
  | .labeled => n.value = .null ∧ n.label.isSome = true
  | _ => n.value = .null

/-- A node has the data, the children and the parameters that its kind asks for. -/
structure Fits (n : Node) : Prop where
  data : n.HasData
  children : n.kind.layout.Holds (fun s c => s.admits c.kind = true) n.children
  params : ∀ p ∈ n.params, n.kind.isFunction = true ∧ p.kind = .param

/-- A tree may stand in a slot, and each of its nodes fits its kind. -/
structure Fills (s : Slot) (n : Node) : Prop where
  kind : s.admits n.kind = true
  fits : ∀ m ∈ n.walk, m.Fits

/-- A well-formed program tree: a program, all of whose nodes fit their kinds. -/
structure Formed (program : Node) : Prop where
  kind : program.kind = .program
  fits : ∀ n ∈ program.walk, n.Fits

theorem forall_mem_walk {P : Node → Prop} {n : Node} : (∀ m ∈ n.walk, P m) ↔
    P n ∧ (∀ p ∈ n.params, ∀ m ∈ p.walk, P m) ∧ ∀ c ∈ n.children, ∀ m ∈ c.walk, P m := by
  rw [walk_eq n]
  simp only [List.mem_cons, List.mem_append, mem_walkAll]
  constructor
  · exact fun h => ⟨h n (.inl rfl), fun p hp m hm => h m (.inr (.inl ⟨p, hp, hm⟩)),
      fun c hc m hm => h m (.inr (.inr ⟨c, hc, hm⟩))⟩
  · rintro ⟨own, params, children⟩ m (rfl | ⟨p, hp, hm⟩ | ⟨c, hc, hm⟩)
    · exact own
    · exact params p hp m hm
    · exact children c hc m hm

/-- Trees in the slots of a node make a tree. -/
theorem fits_of_fills {n : Node} (data : n.HasData) (children : n.kind.layout.Holds Fills n.children)
    (params : ∀ p ∈ n.params, n.kind.isFunction = true ∧ p.Fills .param) : ∀ m ∈ n.walk, m.Fits := by
  refine forall_mem_walk.mpr ⟨⟨data, children.mono fun _ _ _ h => h.kind, fun p hp => ?_⟩,
    fun p hp => (params p hp).2.fits, fun c hc => ?_⟩
  · obtain ⟨function, param⟩ := params p hp
    exact ⟨function, by simpa [Slot.admits] using param.kind⟩
  · obtain ⟨s, -, h⟩ := Layout.HoldsFrom.exists_slot children hc
    exact h.fits

/-- A node without parameters fills a slot if it has trees for its own slots. -/
theorem fills_of_children {s : Slot} {n : Node} (kind : s.admits n.kind = true) (data : n.HasData)
    (children : n.kind.layout.Holds Fills n.children) (params : n.params = []) : n.Fills s :=
  ⟨kind, fits_of_fills data children (by simp [params])⟩

theorem Fills.widen {s s' : Slot} {n : Node} (h : n.Fills s)
    (wider : ∀ k, s.admits k = true → s'.admits k = true) : n.Fills s' :=
  ⟨wider _ h.kind, h.fits⟩

theorem Fills.statement {n : Node} (h : n.Fills .listed) : n.Fills .statement :=
  h.widen fun k hk => by simp_all [Slot.admits]

theorem Fills.part {n : Node} (h : n.Fills .expression) : n.Fills .part :=
  h.widen fun k hk => by simp_all [Slot.admits]

/-- What is left of statements without the empty ones is a list of statements. -/
theorem Fills.listed {n : Node} (h : n.Fills .statement) (full : n.isEmpty = false) : n.Fills .listed :=
  ⟨by have := h.kind; simp_all [Slot.admits, isEmpty], h.fits⟩

theorem fills_empty {s : Slot} (kind : s.admits .empty = true) : emptyNode.Fills s :=
  fills_of_children kind rfl rfl rfl

/-! ### The grammar of program trees -/

theorem HasData.isScalar {n : Node} (h : n.HasData) : n.value.isScalar = true := by
  unfold HasData at h
  split at h
  iterate 9 obtain ⟨t, h⟩ := h; rw [h]; rfl
  · obtain h | ⟨t, h⟩ := h <;> rw [h] <;> rfl
  · exact h
  iterate 5 obtain ⟨t, h, -⟩ := h; rw [h]; rfl
  · rw [h.1]; rfl
  · rw [h]; rfl

theorem Fits.isPlain {n : Node} (h : n.Fits) (s : Site) : IsPlain s n := by
  refine ⟨h.data.isScalar, fun other => List.eq_nil_iff_forall_not_mem.mpr fun p hp => ?_⟩
  rw [(h.params p hp).1] at other
  contradiction

/-- A node is right for a slot, and it is derived in every role that its kind may stand in. -/
def Derived (s : Slot) (n : Node) : Prop :=
  s.admits n.kind = true ∧
    ∀ (s' : Slot) (site : Site), s'.admits n.kind = true → Shaped IsPlain s'.role site n

theorem Derived.shaped {s : Slot} {n : Node} (h : Derived s n) (site : Site) :
    Shaped IsPlain s.role site n :=
  h.2 s site h.1

section Shaped

variable {n : Node} (own : ∀ site, IsPlain site n) (laid : n.kind.layout.Holds Derived n.children)
  (params : ∀ p ∈ n.params, ∀ site, Shaped IsPlain .param site p)
include own laid params

theorem shaped_statement (kind : Slot.statement.admits n.kind = true) (site : Site) :
    Shaped IsPlain .statement site n := by
  cases k : n.kind <;> rw [k] at kind laid <;> try contradiction
  case block => exact .block (own _) k fun c hc => (laid c hc).shaped _
  case expressionStatement =>
    exact .simple (own _) (.inl k) fun c hc => (laid.forall_mem .expression (by decide) c hc).shaped _
  case declaration => exact .declaration (own _) k fun c hc => (laid c hc).shaped _
  case conditionalStatement =>
    obtain ⟨test, branches, children, ht, rest⟩ := laid.cons
    -- the grammar has one list for both branches
    obtain ⟨first, otherwise, rfl, hf, -, ho⟩ := rest.cons
    refine .conditional (own _) k children (ht.shaped _) fun c hc => ?_
    obtain rfl | hc := List.mem_cons.mp hc
    · exact hf.shaped _
    · exact (ho c hc).shaped _
  case whileLoop =>
    obtain ⟨test, cs, children, ht, rest⟩ := laid.cons
    obtain ⟨body, cs, rfl, hb, rfl⟩ := rest.cons
    exact .whileLoop (own _) k children (ht.shaped _) (hb.shaped _)
  case doWhileLoop =>
    obtain ⟨body, cs, children, hb, rest⟩ := laid.cons
    obtain ⟨test, cs, rfl, ht, rfl⟩ := rest.cons
    exact .doWhileLoop (own _) k children (ht.shaped _) (hb.shaped _)
  case forLoop =>
    obtain ⟨first, cs, children, hf, rest⟩ := laid.cons
    obtain ⟨test, cs, rfl, ht, rest⟩ := rest.cons
    obtain ⟨step, cs, rfl, hs, rest⟩ := rest.cons
    obtain ⟨body, cs, rfl, hb, rfl⟩ := rest.cons
    exact .forLoop (own _) k children (hf.shaped _) hf.1 (ht.shaped _) (hs.shaped _) (hb.shaped _)
  case forOfLoop =>
    obtain ⟨subject, cs, children, hs, rest⟩ := laid.cons
    obtain ⟨body, cs, rfl, hb, rfl⟩ := rest.cons
    exact .forOfLoop (own _) k children (hs.shaped _) (hb.shaped _)
  case switch =>
    obtain ⟨subject, clauses, children, hs, hc⟩ := laid.cons
    exact .switch (own _) k children (hs.shaped _) fun c mem => (hc c mem).shaped _
  case «break» => exact .jump (own _) (.inl k) laid
  case «continue» => exact .jump (own _) (.inr (.inl k)) laid
  case «return» => exact .simple (own _) (.inr (.inl k)) fun c hc => (laid.2 c hc).shaped _
  case throw =>
    exact .simple (own _) (.inr (.inr k)) fun c hc =>
      (laid.forall_mem .expression (by decide) c hc).shaped _
  case «try» =>
    obtain ⟨body, cs, children, hb, rest⟩ := laid.cons
    obtain ⟨handler, cs, rfl, hh, rest⟩ := rest.cons
    obtain ⟨finalizer, cs, rfl, hf, rfl⟩ := rest.cons
    exact .attempt (own _) k children (hb.shaped _) (hh.shaped _) (hf.shaped _)
  case function =>
    -- the body is a block, which is asked for as the body of a function and not as a statement
    refine .function (own _) k (fun p hp => params p hp _) fun c hc => ?_
    have hb := laid.forall_mem .block (by decide) c hc
    exact hb.2 .body _ (by simpa [Slot.admits] using .inr (by simpa [Slot.admits] using hb.1))
  case labeled =>
    obtain ⟨body, cs, children, hb, rfl⟩ := laid.cons
    exact .labeled (own _) k children (hb.shaped _)
  case defer =>
    obtain ⟨body, cs, children, hb, rfl⟩ := laid.cons
    exact .defer (own _) k children (hb.shaped _)
  case empty => exact .jump (own _) (.inr (.inr k)) laid

theorem shaped_expression (kind : Slot.expression.admits n.kind = true) (site : Site) :
    Shaped IsPlain .expression site n := by
  have operation (h : isOperation n.kind = true)
      (operands : ∀ s ∈ n.kind.layout.slots, s = .expression) : Shaped IsPlain .expression site n :=
    .operation (own _) h fun c hc => (laid.forall_mem .expression operands c hc).shaped _
  cases k : n.kind <;> rw [k] at kind laid operation <;> try contradiction
  case identifier => exact .leaf (own _) (.inl k) laid
  case literal => exact .leaf (own _) (.inr k) laid
  case update =>
    obtain ⟨target, cs, children, ht, rfl⟩ := laid.cons
    have operand : Shaped IsPlain .expression site.operand target := ht.shaped _
    refine .assignment (own _) (.inl k) (by simpa [children] using operand) fun t mem => ?_
    obtain rfl : target = t := by simpa [children] using mem
    exact ht.1
  case assign =>
    obtain ⟨target, cs, children, ht, rest⟩ := laid.cons
    obtain ⟨right, cs, rfl, hr, rfl⟩ := rest.cons
    have operand : Shaped IsPlain .expression site.operand target := ht.shaped _
    have value : Shaped IsPlain .expression site.operand right := hr.shaped _
    refine .assignment (own _) (.inr k) (by simpa [children] using ⟨operand, value⟩) fun t mem => ?_
    obtain rfl : target = t := by simpa [children] using mem
    exact ht.1
  case object => exact .object (own _) k fun c hc => (laid c hc).shaped _
  case functionExpression =>
    exact .functionExpression (own _) k (fun p hp => params p hp _) fun c hc =>
      (laid.forall_mem .body (by decide) c hc).shaped _
  all_goals exact operation rfl (by decide)

/-- A node that may stand in a slot is derived in the role of the slot if its parts are. -/
theorem shaped_slot {s : Slot} (kind : s.admits n.kind = true) (site : Site) :
    Shaped IsPlain s.role site n := by
  have statement (h : Slot.statement.admits n.kind = true) : Shaped IsPlain .statement site n :=
    shaped_statement own laid params h site
  have expression (h : Slot.expression.admits n.kind = true) : Shaped IsPlain .expression site n :=
    shaped_expression own laid params h site
  cases s with
  | listed => exact statement (by simpa [Slot.admits] using .inl kind)
  | statement => exact statement kind
  | start | block | finalizer => exact statement (by revert kind; cases n.kind <;> decide)
  | expression => exact expression kind
  | target => exact expression (by revert kind; cases n.kind <;> decide)
  | part =>
    obtain h | k : n.kind.isExpression = true ∨ n.kind = .empty := by simpa [Slot.admits] using kind
    · exact .part (expression h)
    · rw [k] at laid
      exact .noPart (own _) k laid
  | body =>
    obtain h | k : n.kind.isExpression = true ∨ n.kind = .block := by simpa [Slot.admits] using kind
    · exact .valueBody (expression h)
    · rw [k] at laid
      exact .blockBody (own _) k fun c hc => (laid c hc).shaped _
  | handler =>
    obtain k | k : n.kind = .catch ∨ n.kind = .empty := by simpa [Slot.admits] using kind
    · rw [k] at laid
      obtain ⟨body, cs, children, hb, rfl⟩ := laid.cons
      exact .handler (own _) k children (hb.shaped _)
    · rw [k] at laid
      exact .noHandler (own _) k laid
  | clause =>
    obtain k | k : n.kind = .case ∨ n.kind = .default := by simpa [Slot.admits] using kind
    · rw [k] at laid
      obtain ⟨test, statements, children, ht, hs⟩ := laid.cons
      exact .case (own _) k children (ht.shaped _) fun c hc => (hs c hc).shaped _
    · rw [k] at laid
      exact .default (own _) k fun c hc => (laid c hc).shaped _
  | declarator =>
    obtain k : n.kind = .declarator := by simpa [Slot.admits] using kind
    rw [k] at laid
    exact .declarator (own _) k fun c hc => .part ((laid.2 c hc).shaped _)
  | property =>
    obtain k : n.kind = .property := by simpa [Slot.admits] using kind
    rw [k] at laid
    exact .property (own _) k fun c hc => (laid.forall_mem .expression (by decide) c hc).shaped _
  | param =>
    obtain k : n.kind = .param := by simpa [Slot.admits] using kind
    rw [k] at laid
    exact .param (own _) k fun c hc => .part ((laid.2 c hc).shaped _)

end Shaped

theorem Fills.shaped {n : Node} {s : Slot} (h : n.Fills s) (site : Site) :
    Shaped IsPlain s.role site n := by
  obtain ⟨own, params, children⟩ := forall_mem_walk.mp h.fits
  have laid : n.kind.layout.Holds Derived n.children :=
    own.children.mono fun s c mem admits =>
      ⟨admits, fun s' site kind => Fills.shaped ⟨kind, children c mem⟩ site⟩
  have params : ∀ p ∈ n.params, ∀ site, Shaped IsPlain .param site p := fun p mem site =>
    Fills.shaped (s := .param) ⟨by rw [(own.params p mem).2]; rfl, params p mem⟩ site
  exact shaped_slot own.isPlain laid params h.kind site
termination_by sizeOf n
decreasing_by
  · exact sizeOf_lt_of_part (.inr mem)
  · exact sizeOf_lt_of_part (.inl mem)

/-- The grammar derives every well-formed program tree. -/
theorem Formed.wellFormed {program : Node} (h : program.Formed) : WellFormed program := by
  obtain ⟨own, -, children⟩ := forall_mem_walk.mp h.fits
  refine ⟨h.kind, own.isPlain _, fun c hc => ?_⟩
  have laid := own.children
  rw [h.kind] at laid
  exact Fills.shaped (s := .listed) ⟨laid c hc, children c hc⟩ _

end Node

end ScopeExit
