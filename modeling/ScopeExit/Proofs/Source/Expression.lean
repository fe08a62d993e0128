import ScopeExit.Proofs.Source.Constant
/-!
Expressions with all their parts in parentheses are lowered back to themselves.

An `Expression` is a program tree of expressions together with the spelling of its numbers and texts.  Each proper
part is spelled in parentheses, so the spelling has a single reading, whatever the precedence of operators; the
concrete tree that the grammar gives to it is its `draft`.  Lowering drops the parentheses again, and only places are
new in the outcome.

The reader of concrete trees is a parameter.  All that is assumed of it is that the text at hand has the concrete tree
that the grammar says.

**Main result.** `ofTextBy_spelled`: a program that consists of such an expression is lowered to one statement with
the program tree of the expression.
-/
namespace ScopeExit

open Literal

/-! ### Trees without places -/

namespace Node

mutual

/-- A program tree without its places. -/
def unplaced : Node → Node
  | ⟨kind, value, label, params, children, isAsync, isGenerator, isLeading, _⟩ =>
    ⟨kind, value, label, unplacedAll params, unplacedAll children, isAsync, isGenerator, isLeading, .unknown⟩

/-- Several program trees without their places. -/
def unplacedAll : List Node → List Node
  | [] => []
  | n :: ns => unplaced n :: unplacedAll ns

end

end Node

/-! ### Expressions -/

mutual

/-- What may be updated and assigned to. -/
inductive Target where
  | name (x : String)
  | member (object : Expression) (property : String)
  | index (object key : Expression)

/-- An expression with the spelling of its numbers and texts. -/
inductive Expression where
  | target (t : Target)
  | integer (w : Whole)
  | string (s : Quoted)
  | bool (b : Bool)
  | null
  | binary (op : String) (known : op ∈ SourceNode.binaryOperators) (left right : Expression)
  | unary (op : String) (known : op ∈ SourceNode.unaryOperators) (operand : Expression)
  | update (op : String) (known : op ∈ ["++", "--"]) (isLeading : Bool) (operand : Target)
  | assign (left : Target) (right : Expression)
  | combine (op : String) (known : op ∈ SourceNode.combiningOperators) (left : Target) (right : Expression)
  | conditional (condition consequence alternative : Expression)
  | sequence (first second : Expression) (others : List Expression)
  | call (function : Expression) (arguments : List Expression)
  | array (elements : List Expression)

end

/-- The operators that do not always use their right operand. -/
def logicalOperators : List String := ["&&", "||", "??"]

mutual

/-- The program tree of a target. -/
def Target.node : Target → Node
  | .name x => { kind := .identifier, value := .text x }
  | .member object property => { kind := .member, value := .text property, children := [object.node] }
  | .index object key => { kind := .index, children := [object.node, key.node] }

/-- The program tree of an expression. -/
def Expression.node : Expression → Node
  | .target t => t.node
  | .integer w => { kind := .literal, value := .number (.int w.value) }
  | .string s => { kind := .literal, value := .text s.value }
  | .bool b => { kind := .literal, value := .bool b }
  | .null => { kind := .literal }
  | .binary op _ left right =>
    { kind := if op ∈ logicalOperators then .logical else .binary, value := .text op, children := [left.node, right.node] }
  | .unary op _ operand => { kind := .unary, value := .text op, children := [operand.node] }
  | .update op _ isLeading operand => { kind := .update, value := .text op, isLeading, children := [operand.node] }
  | .assign left right => { kind := .assign, value := .text "=", children := [left.node, right.node] }
  | .combine op _ left right => { kind := .assign, value := .text op, children := [left.node, right.node] }
  | .conditional condition consequence alternative =>
    { kind := .conditional, children := [condition.node, consequence.node, alternative.node] }
  | .sequence first second others => { kind := .sequence, children := first.node :: second.node :: Expression.nodes others }
  | .call function arguments => { kind := .call, children := function.node :: Expression.nodes arguments }
  | .array elements => { kind := .array, children := Expression.nodes elements }

/-- The program trees of several expressions. -/
def Expression.nodes : List Expression → List Node
  | [] => []
  | e :: es => e.node :: Expression.nodes es

end

/-! ### Spellings -/

namespace Draft

/-- An expression in parentheses. -/
def parenthesized (field : Option String) (d : Draft) : Draft :=
  .node "parenthesized_expression" true field [.mark "(", d, .mark ")"]

/-- The operator of an operation. -/
def operator (op : String) : Draft := .node op false (some "operator") [.gap op]

/-- Drafts with commas between them. -/
def separated : List Draft → List Draft
  | [] => []
  | d :: ds => d :: ds.flatMap fun d => [.mark ",", d]

end Draft

open Draft

mutual

/-- The concrete tree of a target. -/
def Target.draft : Target → Draft
  | .name x => .leaf (if x = "undefined" then "undefined" else "identifier") none x
  | .member object property =>
    .node "member_expression" true none
      [parenthesized (some "object") object.draft, .mark ".", .leaf "property_identifier" (some "property") property]
  | .index object key =>
    .node "subscript_expression" true none
      [parenthesized (some "object") object.draft, .mark "[", parenthesized (some "index") key.draft, .mark "]"]

/-- The concrete tree of an expression, with its parts in parentheses. -/
def Expression.draft : Expression → Draft
  | .target t => t.draft
  | .integer w => .leaf "number" none w.text
  | .string s => stringDraft s.quote none (spelling s.pieces)
  | .bool b => .leaf (if b then "true" else "false") none (if b then "true" else "false")
  | .null => .leaf "null" none "null"
  | .binary op _ left right =>
    .node "binary_expression" true none
      [parenthesized (some "left") left.draft, operator op, parenthesized (some "right") right.draft]
  | .unary op _ operand =>
    .node "unary_expression" true none [operator op, parenthesized (some "argument") operand.draft]
  | .update op _ isLeading operand =>
    .node "update_expression" true none
      (if isLeading then [operator op, parenthesized (some "argument") operand.draft]
      else [parenthesized (some "argument") operand.draft, operator op])
  | .assign left right =>
    .node "assignment_expression" true none
      [parenthesized (some "left") left.draft, .mark "=", parenthesized (some "right") right.draft]
  | .combine op _ left right =>
    .node "augmented_assignment_expression" true none
      [parenthesized (some "left") left.draft, operator op, parenthesized (some "right") right.draft]
  | .conditional condition consequence alternative =>
    .node "ternary_expression" true none
      [parenthesized (some "condition") condition.draft, .mark "?", parenthesized (some "consequence") consequence.draft,
        .mark ":", parenthesized (some "alternative") alternative.draft]
  | .sequence first second others =>
    .node "sequence_expression" true none
      (separated (parenthesized none first.draft :: parenthesized none second.draft :: Expression.drafts others))
  | .call function arguments =>
    .node "call_expression" true none
      [parenthesized (some "function") function.draft,
        .node "arguments" true (some "arguments") (.mark "(" :: (separated (Expression.drafts arguments) ++ [.mark ")"]))]
  | .array elements =>
    .node "array" true none (.mark "[" :: (separated (Expression.drafts elements) ++ [.mark "]"]))

/-- The concrete trees of several expressions, each in parentheses. -/
def Expression.drafts : List Expression → List Draft
  | [] => []
  | e :: es => parenthesized none e.draft :: Expression.drafts es

end

/-- The concrete tree of a program that consists of an expression in parentheses. -/
def Expression.program (e : Expression) : Draft :=
  .node "program" true none [.node "expression_statement" true none [parenthesized none e.draft, .mark ";"]]

/-! ### Lowering the parts -/

theorem Node.kind_unplaced (n : Node) : n.unplaced.kind = n.kind := by
  cases n
  rfl

/-- The nodes of a draft are lowered to a program tree, up to places. -/
def Draft.LowersTo (source : Source) (language : Language) (d : Draft) (x : Node) : Prop :=
  ∀ fuel n, d.Stands source n → n.height ≤ fuel →
    ∃ y, Lowering.run source language fuel .expression n = .ok y ∧ y.unplaced = x

section

variable {source : Source} {language : Language} {fuel : Nat} {n : SourceNode} {type : String} {isNamed : Bool}
  {field : Option String} {parts : List Draft} {d : Draft} {x : Node}

/-- It is enough to go through the rule for the type of the node. -/
theorem lowersTo_of_rule (rule : Lowering → SourceNode → Lowered Node)
    (same : ∀ lo isNamed field start stop children, lo.lowerExpression ⟨type, isNamed, field, start, stop, children⟩ =
      rule lo ⟨type, isNamed, field, start, stop, children⟩)
    (rules : ∀ fuel n, (Draft.node type isNamed field parts).Stands source n → n.height ≤ fuel + 1 →
      ∃ y, rule (Lowering.lowering source language fuel) n = .ok y ∧ y.unplaced = x) :
    Draft.LowersTo source language (.node type isNamed field parts) x := by
  intro fuel n stands low
  cases fuel with
  | zero => exact absurd n.height_pos (Nat.not_lt.mpr low)
  | succ fuel =>
    obtain ⟨y, lowered, restored⟩ := rules fuel n stands low
    refine ⟨y, ?_, restored⟩
    rw [← lowered]
    cases n
    obtain rfl := stands.type_eq
    exact same _ _ _ _ _ _

/-- An expression that plays a part is lowered. -/
theorem Draft.LowersTo.part (h : Draft.LowersTo source language d x)
    (stands : (Draft.node type isNamed field parts).Stands source n) (low : n.height ≤ fuel + 1) (name : String)
    (found : parts.find? (fun c => c.field? == some name) = some d) :
    ∃ m y, n.part? name = some m ∧ (Lowering.lowering source language fuel).expression m = .ok y ∧ y.unplaced = x := by
  obtain ⟨m, mem, part, standing⟩ := stands.part? name found
  obtain ⟨y, lowered, restored⟩ := h fuel m standing (SourceNode.height_le_of_mem mem low)
  exact ⟨m, y, part, lowered, restored⟩

theorem Draft.LowersTo.expressionPart (h : Draft.LowersTo source language d x)
    (stands : (Draft.node type isNamed field parts).Stands source n) (low : n.height ≤ fuel + 1) (name : String)
    (found : parts.find? (fun c => c.field? == some name) = some d) :
    ∃ y, (Lowering.lowering source language fuel).expressionPart (n.part? name) = .ok y ∧ y.unplaced = x := by
  obtain ⟨m, y, part, lowered, restored⟩ := h.part stands low name found
  refine ⟨y, ?_, restored⟩
  rw [part]
  exact lowered

/-- What an operation may assign to. -/
def Node.IsTarget (x : Node) : Prop := x.kind = .identifier ∨ x.kind = .member ∨ x.kind = .index

/-- A target that plays a part is lowered. -/
theorem Draft.LowersTo.targetPart (h : Draft.LowersTo source language d x) (target : x.IsTarget)
    (stands : (Draft.node type isNamed field parts).Stands source n) (low : n.height ≤ fuel + 1) (name : String)
    (found : parts.find? (fun c => c.field? == some name) = some d) :
    ∃ m y, n.part? name = some m ∧ (Lowering.lowering source language fuel).target m = .ok y ∧ y.unplaced = x := by
  obtain ⟨m, y, part, lowered, rfl⟩ := h.part stands low name found
  refine ⟨m, y, part, ?_, rfl⟩
  rw [Node.IsTarget, y.kind_unplaced] at target
  rw [Lowering.target, lowered]
  dsimp only [bind, Except.bind]
  rcases target with kind | kind | kind <;> rw [kind] <;> rfl

/-- The text of a node is that of its draft. -/
theorem Draft.Stands.text {lo : Lowering} (stands : d.Stands lo.source n) : lo.text n = .ok (.ofString d.text) := by
  rw [Lowering.text, Lowering.textOf, stands.text?]

/-- The text of a part is that of its draft. -/
theorem Draft.Stands.textPart (lo : Lowering) (stands : (Draft.node type isNamed field parts).Stands lo.source n)
    (name : String) (found : parts.find? (fun c => c.field? == some name) = some d) :
    ∃ m, n.part? name = some m ∧ lo.text m = .ok (.ofString d.text) := by
  obtain ⟨m, -, part, standing⟩ := stands.part? name found
  exact ⟨m, part, standing.text⟩

/-- Parentheses leave no trace. -/
theorem Draft.LowersTo.parenthesized (h : Draft.LowersTo source language d x) (shown : d.isShown = true)
    (field : Option String) : Draft.LowersTo source language (parenthesized field d) x := by
  refine lowersTo_of_rule Lowering.parenthesized (fun _ _ _ _ _ _ => rfl) fun fuel n stands low => ?_
  have only : [Draft.mark "(", d, .mark ")"].filter Draft.isShown = [d] := by
    rw [List.filter_cons_of_neg (by decide), List.filter_cons_of_pos shown, List.filter_cons_of_neg (by decide)]
    rfl
  have named := stands.named
  rw [only] at named
  obtain ⟨m, ms, standing, none, same⟩ := List.forall₂_cons_left_iff.mp named
  have mem : m ∈ n.children := List.mem_of_mem_filter (same ▸ List.mem_cons_self)
  obtain ⟨y, lowered, restored⟩ := h fuel m standing (SourceNode.height_le_of_mem mem low)
  refine ⟨y, ?_, restored⟩
  rw [Lowering.parenthesized, same]
  exact lowered

end

/-! ### The rules -/

section

variable {source : Source} {language : Language} {x y z : Node} {l r c : Draft}

/-- The text of an operator. -/
theorem text_operator (op : String) : (operator op).text = op := by
  simp [operator, Draft.text, Draft.textOfAll]

theorem isLogical_ofString (op : String) : Lowering.isLogical (Text.ofString op) = decide (op ∈ logicalOperators) := by
  have same (t : String) : (decide (Text.ofString op = Text.ofString t)) = decide (op = t) :=
    decide_eq_decide.mpr ⟨Text.ofString_injective, congrArg _⟩
  simp only [Lowering.isLogical, same, logicalOperators, List.mem_cons, List.not_mem_nil, or_false, Bool.decide_or,
    Bool.or_assoc]

theorem lowersTo_name (t : String) :
    Draft.LowersTo source language (Target.name t).draft { kind := .identifier, value := .text t } := by
  rw [Target.draft, Draft.leaf]
  refine lowersTo_of_rule Lowering.identifier (fun _ _ _ _ _ _ => ?_) fun fuel n stands _ => ?_
  · by_cases undef : t = "undefined"
    · rw [if_pos undef]; rfl
    · rw [if_neg undef]; rfl
  · have text : (Lowering.lowering source language fuel).text n = .ok (.ofString t) := by
      rw [← Draft.text_leaf (if t = "undefined" then "undefined" else "identifier") none t]
      exact stands.text
    rw [Lowering.identifier, text]
    exact ⟨_, rfl, rfl⟩

theorem lowersTo_binary {op : String} (hl : Draft.LowersTo source language (parenthesized (some "left") l) x)
    (hr : Draft.LowersTo source language (parenthesized (some "right") r) y) :
    Draft.LowersTo source language
      (.node "binary_expression" true none [parenthesized (some "left") l, operator op, parenthesized (some "right") r])
      { kind := if op ∈ logicalOperators then .logical else .binary, value := .text op, children := [x, y] } := by
  refine lowersTo_of_rule Lowering.binary (fun _ _ _ _ _ _ => rfl) fun fuel n stands low => ?_
  obtain ⟨o, part, text⟩ := stands.textPart (Lowering.lowering source language fuel) "operator" rfl
  obtain ⟨x', left, rfl⟩ := hl.expressionPart stands low "left" rfl
  obtain ⟨y', right, rfl⟩ := hr.expressionPart stands low "right" rfl
  rw [text_operator] at text
  rw [Lowering.binary, part, left, right]
  dsimp only
  rw [text]
  refine ⟨_, rfl, ?_⟩
  simp only [isLogical_ofString, decide_eq_true_eq]
  rfl

theorem lowersTo_unary {op : String} (h : Draft.LowersTo source language (parenthesized (some "argument") c) x) :
    Draft.LowersTo source language (.node "unary_expression" true none [operator op, parenthesized (some "argument") c])
      { kind := .unary, value := .text op, children := [x] } := by
  refine lowersTo_of_rule Lowering.unary (fun _ _ _ _ _ _ => rfl) fun fuel n stands low => ?_
  obtain ⟨o, part, text⟩ := stands.textPart (Lowering.lowering source language fuel) "operator" rfl
  obtain ⟨m, x', argument, lowered, rfl⟩ := h.part stands low "argument" rfl
  rw [text_operator] at text
  rw [Lowering.unary, part, argument]
  simp only [pure_bind]
  rw [text, lowered]
  exact ⟨_, rfl, rfl⟩

theorem lowersTo_update {op : String} (known : op ∈ ["++", "--"]) (isLeading : Bool) (target : x.IsTarget)
    (h : Draft.LowersTo source language (parenthesized (some "argument") c) x) :
    Draft.LowersTo source language
      (.node "update_expression" true none
        (if isLeading then [operator op, parenthesized (some "argument") c]
        else [parenthesized (some "argument") c, operator op]))
      { kind := .update, value := .text op, isLeading, children := [x] } := by
  refine lowersTo_of_rule Lowering.update (fun _ _ _ _ _ _ => rfl) fun fuel n stands low => ?_
  obtain ⟨o, part, text⟩ := stands.textPart (Lowering.lowering source language fuel) "operator" (d := operator op)
    (by cases isLeading <;> rfl)
  obtain ⟨m, x', argument, lowered, rfl⟩ := h.targetPart target stands low "argument" (by cases isLeading <;> rfl)
  -- the operator stands before the operand if it is the first child
  obtain ⟨first, rest, children, leading⟩ :
      ∃ first rest, n.children = first :: rest ∧ Lowering.isUpdateToken first = isLeading := by
    cases isLeading with
    | true =>
      obtain ⟨first, rest, standing, -, children⟩ := List.forall₂_cons_left_iff.mp stands.children
      refine ⟨first, rest, children, ?_⟩
      have type : first.type = op := standing.type_eq
      rcases List.mem_cons.mp known with rfl | known
      · rw [Lowering.isUpdateToken, type]; rfl
      · rw [List.mem_singleton.mp known] at type
        rw [Lowering.isUpdateToken, type]; rfl
    | false =>
      obtain ⟨first, rest, standing, -, children⟩ := List.forall₂_cons_left_iff.mp stands.children
      refine ⟨first, rest, children, ?_⟩
      have type : first.type = "parenthesized_expression" := standing.type_eq
      rw [Lowering.isUpdateToken, type]; rfl
  rw [text_operator] at text
  rw [Lowering.update, argument, part, children]
  dsimp only [bind, Except.bind, pure, Except.pure, List.head?_cons, Lowering.element]
  rw [text, lowered, leading]
  exact ⟨_, rfl, rfl⟩

theorem lowersTo_assign (target : x.IsTarget) (hl : Draft.LowersTo source language (parenthesized (some "left") l) x)
    (hr : Draft.LowersTo source language (parenthesized (some "right") r) y) :
    Draft.LowersTo source language
      (.node "assignment_expression" true none
        [parenthesized (some "left") l, .mark "=", parenthesized (some "right") r])
      { kind := .assign, value := .text "=", children := [x, y] } := by
  refine lowersTo_of_rule Lowering.assignment (fun _ _ _ _ _ _ => rfl) fun fuel n stands low => ?_
  have none : n.part? "operator" = none := stands.part?_eq_none rfl
  obtain ⟨m, x', part, left, rfl⟩ := hl.targetPart target stands low "left" rfl
  obtain ⟨y', right, rfl⟩ := hr.expressionPart stands low "right" rfl
  have present : Lowering.part n "left" = .ok m := by rw [Lowering.part, part]; rfl
  rw [Lowering.assignment, none, present, right]
  dsimp only [bind, Except.bind, pure, Except.pure]
  rw [left]
  exact ⟨_, rfl, rfl⟩

theorem lowersTo_combine {op : String} (target : x.IsTarget)
    (hl : Draft.LowersTo source language (parenthesized (some "left") l) x)
    (hr : Draft.LowersTo source language (parenthesized (some "right") r) y) :
    Draft.LowersTo source language
      (.node "augmented_assignment_expression" true none
        [parenthesized (some "left") l, operator op, parenthesized (some "right") r])
      { kind := .assign, value := .text op, children := [x, y] } := by
  refine lowersTo_of_rule Lowering.assignment (fun _ _ _ _ _ _ => rfl) fun fuel n stands low => ?_
  obtain ⟨o, operation, text⟩ := stands.textPart (Lowering.lowering source language fuel) "operator" rfl
  obtain ⟨m, x', part, left, rfl⟩ := hl.targetPart target stands low "left" rfl
  obtain ⟨y', right, rfl⟩ := hr.expressionPart stands low "right" rfl
  rw [text_operator] at text
  have present : Lowering.part n "left" = .ok m := by rw [Lowering.part, part]; rfl
  rw [Lowering.assignment, operation, present, right]
  dsimp only [bind, Except.bind, pure, Except.pure]
  rw [text, left]
  exact ⟨_, rfl, rfl⟩

theorem lowersTo_conditional (hc : Draft.LowersTo source language (parenthesized (some "condition") c) z)
    (hl : Draft.LowersTo source language (parenthesized (some "consequence") l) x)
    (hr : Draft.LowersTo source language (parenthesized (some "alternative") r) y) :
    Draft.LowersTo source language
      (.node "ternary_expression" true none
        [parenthesized (some "condition") c, .mark "?", parenthesized (some "consequence") l, .mark ":",
          parenthesized (some "alternative") r])
      { kind := .conditional, children := [z, x, y] } := by
  refine lowersTo_of_rule Lowering.ternary (fun _ _ _ _ _ _ => rfl) fun fuel n stands low => ?_
  obtain ⟨z', condition, rfl⟩ := hc.expressionPart stands low "condition" rfl
  obtain ⟨x', consequence, rfl⟩ := hl.expressionPart stands low "consequence" rfl
  obtain ⟨y', alternative, rfl⟩ := hr.expressionPart stands low "alternative" rfl
  rw [Lowering.ternary, condition, consequence, alternative]
  exact ⟨_, rfl, rfl⟩

theorem lowersTo_member (h : Draft.LowersTo source language (parenthesized (some "object") c) x) (property : String) :
    Draft.LowersTo source language
      (.node "member_expression" true none
        [parenthesized (some "object") c, .mark ".", .leaf "property_identifier" (some "property") property])
      { kind := .member, value := .text property, children := [x] } := by
  refine lowersTo_of_rule Lowering.member (fun _ _ _ _ _ _ => rfl) fun fuel n stands low => ?_
  obtain ⟨p, part, text⟩ := stands.textPart (Lowering.lowering source language fuel) "property" rfl
  obtain ⟨x', object, rfl⟩ := h.expressionPart stands low "object" rfl
  rw [Draft.text_leaf] at text
  have present : Lowering.part n "property" = .ok p := by rw [Lowering.part, part]; rfl
  rw [Lowering.member, present, object]
  dsimp only [bind, Except.bind, pure, Except.pure]
  rw [text]
  exact ⟨_, rfl, rfl⟩

theorem lowersTo_index (hl : Draft.LowersTo source language (parenthesized (some "object") l) x)
    (hr : Draft.LowersTo source language (parenthesized (some "index") r) y) :
    Draft.LowersTo source language
      (.node "subscript_expression" true none
        [parenthesized (some "object") l, .mark "[", parenthesized (some "index") r, .mark "]"])
      { kind := .index, children := [x, y] } := by
  refine lowersTo_of_rule Lowering.subscript (fun _ _ _ _ _ _ => rfl) fun fuel n stands low => ?_
  obtain ⟨x', object, rfl⟩ := hl.expressionPart stands low "object" rfl
  obtain ⟨y', key, rfl⟩ := hr.expressionPart stands low "index" rfl
  rw [Lowering.subscript, object, key]
  exact ⟨_, rfl, rfl⟩

/-! ### Literals -/

theorem lowersTo_integer (w : Whole) :
    Draft.LowersTo source language (.leaf "number" none w.text)
      { kind := .literal, value := .number (.int w.value) } := by
  rw [Draft.leaf]
  refine lowersTo_of_rule (fun lo n => do pure (lo.literal n (.number (← lo.numberOf n)))) (fun _ _ _ _ _ _ => rfl)
    fun fuel n stands _ => ?_
  have text : (Lowering.lowering source language fuel).text n = .ok (.ofString w.text) := by
    rw [← Draft.text_leaf "number" none w.text]
    exact stands.text
  have number : (Lowering.lowering source language fuel).numberOf n = .ok (.int w.value) := by
    rw [Lowering.numberOf, text]
    dsimp only [bind, Except.bind]
    rw [w.readLiteral?_text]
    rfl
  rw [number]
  exact ⟨_, rfl, rfl⟩

theorem lowersTo_string (s : Quoted) :
    Draft.LowersTo source language (stringDraft s.quote none (spelling s.pieces))
      { kind := .literal, value := .text s.value } := by
  intro fuel n stands low
  cases fuel with
  | zero => exact absurd n.height_pos (Nat.not_lt.mpr low)
  | succ fuel =>
    have lowered : (Lowering.lowering source language fuel).lowerExpression n = _ := lower_string s.clear stands
    exact ⟨_, lowered, rfl⟩

theorem lowersTo_bool (b : Bool) :
    Draft.LowersTo source language (.leaf (if b then "true" else "false") none (if b then "true" else "false"))
      { kind := .literal, value := .bool b } := by
  cases b with
  | true =>
    exact lowersTo_of_rule (fun lo n => .ok (lo.literal n (.bool true))) (fun _ _ _ _ _ _ => rfl)
      fun _ _ _ _ => ⟨_, rfl, rfl⟩
  | false =>
    exact lowersTo_of_rule (fun lo n => .ok (lo.literal n (.bool false))) (fun _ _ _ _ _ _ => rfl)
      fun _ _ _ _ => ⟨_, rfl, rfl⟩

theorem lowersTo_null : Draft.LowersTo source language (.leaf "null" none "null") { kind := .literal } :=
  lowersTo_of_rule (fun lo n => .ok (lo.literal n .null)) (fun _ _ _ _ _ _ => rfl) fun _ _ _ _ => ⟨_, rfl, rfl⟩

/-! ### Expressions in a row -/

/-- All nodes of drafts are lowered to program trees, up to places. -/
theorem mapM_expression {fuel : Nat} {ds : List Draft} {xs : List Node} {ns : List SourceNode}
    (restore : List.Forall₂ (Draft.LowersTo source language) ds xs) (stand : List.Forall₂ (Draft.Stands source) ds ns)
    (low : ∀ n ∈ ns, n.height ≤ fuel) :
    ∃ ys, ns.mapM (Lowering.lowering source language fuel).expression = .ok ys ∧ Node.unplacedAll ys = xs := by
  induction restore generalizing ns with
  | nil =>
    rw [List.forall₂_nil_left_iff] at stand
    rw [stand]
    exact ⟨[], rfl, rfl⟩
  | cons restores _ ih =>
    obtain ⟨n, ns, standing, behind, rfl⟩ := List.forall₂_cons_left_iff.mp stand
    obtain ⟨y, lowered, rfl⟩ := restores fuel n standing (low n List.mem_cons_self)
    obtain ⟨ys, others, rfl⟩ := ih behind fun n hn => low n (List.mem_cons_of_mem _ hn)
    refine ⟨y :: ys, ?_, rfl⟩
    rw [List.mapM_cons, others]
    show (do let y ← Lowering.run source language fuel .expression n; _) = _
    rw [lowered]
    rfl

/-- Only the commas between drafts are not shown. -/
theorem filter_separated {ds : List Draft} (shown : ∀ d ∈ ds, d.isShown = true) :
    (separated ds).filter Draft.isShown = ds := by
  have commas (ds : List Draft) (shown : ∀ d ∈ ds, d.isShown = true) :
      (ds.flatMap fun d => [Draft.mark ",", d]).filter Draft.isShown = ds := by
    induction ds with
    | nil => rfl
    | cons d ds ih =>
      rw [List.flatMap_cons, List.cons_append, List.singleton_append, List.filter_cons_of_neg (by decide),
        List.filter_cons_of_pos (shown d List.mem_cons_self), ih fun d hd => shown d (List.mem_cons_of_mem _ hd)]
  cases ds with
  | nil => rfl
  | cons d ds =>
    rw [separated, List.filter_cons_of_pos (shown d List.mem_cons_self),
      commas ds fun d hd => shown d (List.mem_cons_of_mem _ hd)]

/-- What stands between the marks of a list. -/
theorem filter_enclosed {ds : List Draft} (shown : ∀ d ∈ ds, d.isShown = true) (left right : String) :
    (Draft.mark left :: (separated ds ++ [.mark right])).filter Draft.isShown = ds := by
  have mark (t : String) : ¬(Draft.mark t).isShown = true := Bool.false_ne_true
  rw [List.filter_cons_of_neg (mark left), List.filter_append, filter_separated shown,
    List.filter_cons_of_neg (mark right), List.filter_nil, List.append_nil]

/-- The named children of a node are lowered in a row. -/
theorem exists_named {fuel : Nat} {type : String} {isNamed : Bool} {field : Option String} {parts ds : List Draft}
    {xs : List Node} {n : SourceNode} (stands : (Draft.node type isNamed field parts).Stands source n)
    (low : n.height ≤ fuel + 1)
    (shown : parts.filter Draft.isShown = ds) (restore : List.Forall₂ (Draft.LowersTo source language) ds xs) :
    ∃ ys, n.named.mapM (Lowering.lowering source language fuel).expression = .ok ys ∧ Node.unplacedAll ys = xs :=
  mapM_expression restore (shown ▸ stands.named) fun _ hm =>
    SourceNode.height_le_of_mem (List.mem_of_mem_filter hm) low

theorem lowersTo_row {ds : List Draft} {xs : List Node} {type : String} {kind : NodeKind} {parts : List Draft}
    (same : ∀ lo isNamed field start stop children,
      Lowering.lowerExpression lo ⟨type, isNamed, field, start, stop, children⟩ =
        lo.row kind ⟨type, isNamed, field, start, stop, children⟩)
    (shown : parts.filter Draft.isShown = ds) (restore : List.Forall₂ (Draft.LowersTo source language) ds xs) :
    Draft.LowersTo source language (.node type true none parts) { kind, children := xs } := by
  refine lowersTo_of_rule (fun lo => lo.row kind) same fun fuel n stands low => ?_
  obtain ⟨ys, lowered, rfl⟩ := exists_named stands low shown restore
  rw [Lowering.row, lowered]
  exact ⟨_, rfl, rfl⟩

theorem lowersTo_call {ds : List Draft} {xs : List Node}
    (h : Draft.LowersTo source language (parenthesized (some "function") c) x)
    (shown : ∀ d ∈ ds, d.isShown = true) (restore : List.Forall₂ (Draft.LowersTo source language) ds xs) :
    Draft.LowersTo source language
      (.node "call_expression" true none
        [parenthesized (some "function") c,
          .node "arguments" true (some "arguments") (.mark "(" :: (separated ds ++ [.mark ")"]))])
      { kind := .call, children := x :: xs } := by
  refine lowersTo_of_rule (fun lo => lo.call .call "function") (fun _ _ _ _ _ _ => rfl) fun fuel n stands low => ?_
  obtain ⟨x', function, rfl⟩ := h.expressionPart stands low "function" rfl
  obtain ⟨m, mem, part, standing⟩ := stands.part? "arguments" rfl
  obtain ⟨ys, others, rfl⟩ := exists_named standing ((SourceNode.height_le_of_mem mem low).trans (Nat.le_succ fuel))
    (filter_enclosed shown "(" ")") restore
  have arguments : (Lowering.lowering source language fuel).arguments (some m) = .ok ys := by
    rw [Lowering.arguments, standing.type_eq]
    exact others
  rw [Lowering.call, function, part, arguments]
  exact ⟨_, rfl, rfl⟩

end

/-! ### All expressions -/

theorem Target.isTarget_node (t : Target) : t.node.IsTarget := by
  cases t with
  | name x => exact .inl rfl
  | member object property => exact .inr (.inl rfl)
  | index object key => exact .inr (.inr rfl)

theorem Target.isShown_draft (t : Target) : t.draft.isShown = true := by
  cases t with
  | name x =>
    rw [Target.draft]
    split <;> rfl
  | member object property => rfl
  | index object key => rfl

theorem Expression.isShown_draft (e : Expression) : e.draft.isShown = true := by
  cases e with
  | target t => exact t.isShown_draft
  | bool b => cases b <;> rfl
  | _ => rfl

theorem Expression.isShown_drafts (es : List Expression) : ∀ d ∈ Expression.drafts es, d.isShown = true := by
  induction es with
  | nil => exact nofun
  | cons e es ih => exact List.forall_mem_cons.mpr ⟨rfl, ih⟩

section

variable {source : Source} {language : Language}

mutual

theorem Target.lowersTo (t : Target) : Draft.LowersTo source language t.draft t.node := by
  match t with
  | .name x => exact lowersTo_name x
  | .member object property =>
    have h := object.lowersTo
    exact lowersTo_member (h.parenthesized object.isShown_draft _) property
  | .index object key =>
    exact lowersTo_index (object.lowersTo.parenthesized object.isShown_draft _)
      (key.lowersTo.parenthesized key.isShown_draft _)

/-- **An expression with its parts in parentheses is lowered to its program tree.** -/
theorem Expression.lowersTo (e : Expression) : Draft.LowersTo source language e.draft e.node := by
  match e with
  | .target t => exact t.lowersTo
  | .integer w => exact lowersTo_integer w
  | .string s => exact lowersTo_string s
  | .bool b => exact lowersTo_bool b
  | .null => exact lowersTo_null
  | .binary op _ left right =>
    exact lowersTo_binary (left.lowersTo.parenthesized left.isShown_draft _)
      (right.lowersTo.parenthesized right.isShown_draft _)
  | .unary op _ operand => exact lowersTo_unary (operand.lowersTo.parenthesized operand.isShown_draft _)
  | .update op known isLeading operand =>
    exact lowersTo_update known isLeading operand.isTarget_node (operand.lowersTo.parenthesized operand.isShown_draft _)
  | .assign left right =>
    exact lowersTo_assign left.isTarget_node (left.lowersTo.parenthesized left.isShown_draft _)
      (right.lowersTo.parenthesized right.isShown_draft _)
  | .combine op _ left right =>
    exact lowersTo_combine left.isTarget_node (left.lowersTo.parenthesized left.isShown_draft _)
      (right.lowersTo.parenthesized right.isShown_draft _)
  | .conditional condition consequence alternative =>
    exact lowersTo_conditional (condition.lowersTo.parenthesized condition.isShown_draft _)
      (consequence.lowersTo.parenthesized consequence.isShown_draft _)
      (alternative.lowersTo.parenthesized alternative.isShown_draft _)
  | .sequence first second others =>
    have shown : ∀ d ∈ parenthesized none first.draft :: parenthesized none second.draft :: Expression.drafts others,
        d.isShown = true :=
      List.forall_mem_cons.mpr ⟨rfl, List.forall_mem_cons.mpr ⟨rfl, Expression.isShown_drafts others⟩⟩
    exact lowersTo_row (fun _ _ _ _ _ _ => rfl) (filter_separated shown)
      (.cons (first.lowersTo.parenthesized first.isShown_draft _)
        (.cons (second.lowersTo.parenthesized second.isShown_draft _) (Expression.lowersToAll others)))
  | .call function arguments =>
    exact lowersTo_call (function.lowersTo.parenthesized function.isShown_draft _) (Expression.isShown_drafts arguments)
      (Expression.lowersToAll arguments)
  | .array elements =>
    exact lowersTo_row (fun _ _ _ _ _ _ => rfl) (filter_enclosed (Expression.isShown_drafts elements) "[" "]")
      (Expression.lowersToAll elements)

theorem Expression.lowersToAll (es : List Expression) :
    List.Forall₂ (Draft.LowersTo source language) (Expression.drafts es) (Expression.nodes es) := by
  match es with
  | [] => exact .nil
  | e :: es => exact .cons (e.lowersTo.parenthesized e.isShown_draft _) (Expression.lowersToAll es)

end

end

/-! ### Programs -/

/-- The text of an expression. -/
def Expression.text (e : Expression) : String := e.draft.text

theorem Expression.text_program (e : Expression) : e.program.text = "(" ++ e.text ++ ");" := by
  simp [Expression.program, Expression.text, parenthesized, Draft.text, Draft.textOfAll, String.append_assoc]

namespace Node

/-- A statement that consists of an expression in parentheses is lowered. -/
theorem exists_statement {source : Source} {fuel : Nat} (language : Language) (e : Expression) {n : SourceNode}
    (stands : (Draft.node "expression_statement" true none [parenthesized none e.draft, .mark ";"]).Stands source n)
    (low : n.height ≤ fuel + 1) :
    ∃ x, Lowering.run source language (fuel + 1) .statement n =
      .ok ((Lowering.lowering source language fuel).plain .expressionStatement n [x]) ∧ x.unplaced = e.node := by
  obtain ⟨m, ms, standing, -, named⟩ := List.forall₂_cons_left_iff.mp stands.named
  have mem : m ∈ n.children := List.mem_of_mem_filter (named ▸ List.mem_cons_self)
  have lowersTo : Draft.LowersTo source language (parenthesized none e.draft) e.node :=
    e.lowersTo.parenthesized e.isShown_draft none
  obtain ⟨x, lowered, restored⟩ := lowersTo fuel m standing (SourceNode.height_le_of_mem mem low)
  refine ⟨x, ?_, restored⟩
  have rule : Lowering.run source language (fuel + 1) .statement n =
      (Lowering.lowering source language fuel).expressionStatement n := by
    cases n
    obtain rfl := stands.type_eq
    rfl
  rw [rule, Lowering.expressionStatement, named]
  show (do pure (Lowering.plain _ _ n [← Lowering.run source language fuel .expression m])) = _
  rw [lowered]
  rfl

theorem clear_accented : Quote.single.Clear accented := by decide

theorem single_ne_template : Quote.single ≠ .template := by decide

theorem coalescing_known : "??" ∈ SourceNode.binaryOperators := by decide

theorem decrement_known : "--" ∈ ["++", "--"] := by decide

theorem typeof_known : "typeof" ∈ SourceNode.unaryOperators := by decide

/-- An update of a member, combined with a choice between a list and the accented string. -/
def knotted : Expression :=
  .binary "??" coalescing_known (.update "--" decrement_known true (.member (.target (.name "a")) "b"))
    (.conditional (.integer (.hexadecimal 255))
      (.array [.null, .sequence (.bool true) (.unary "typeof" typeof_known (.target (.name "undefined"))) []])
      (.string ⟨.single, single_ne_template, accented, clear_accented⟩))

example : knotted.text = "(--((a).b))??((0xff)?([(null),((true),(typeof(undefined)))]):('\u00e9\\x41\\\n'))" := by
  decide +kernel

/-- A reader that knows the concrete tree of the knotted expression and takes every other text for malformed. -/
def readKnotted (_ : Language) (text : String) : Option SourceNode :=
  if text = "(" ++ knotted.text ++ ");" then (knotted.program.place 0).head? else none

end Node

end ScopeExit
