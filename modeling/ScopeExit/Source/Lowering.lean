import ScopeExit.Number.Literal
import ScopeExit.Source.Concrete
import ScopeExit.Source.Escape
/-!
From concrete syntax to program trees.

Each type of concrete node has a rule.  A rule gets the lowering of statements and of expressions as
a parameter and uses it on parts of its node, so the recursion is tied in one place, `Lowering.run`,
and stops at the latest when the height of the tree is used up.  Comments, parentheses, type
annotations and declarations of types leave no trace; a type without a rule is unsupported syntax at
the span of the node.

Trees may come from outside and lack parts: the use of a part that is missing is a failure of the
surrounding program.
-/
namespace ScopeExit

/-- The label that defers a statement. -/
def deferLabel : Text := "defer"

/-- The label that defers a statement which is awaited. -/
def deferAwaitLabel : Text := "deferAwait"

/-- The name of functions without a name. -/
def anonymousName : Text := "<anonymous>"

/-- The result of lowering. -/
abbrev Lowered (α : Type) := Except Failure α

/-- The lowering of statements and of expressions, for the rules to use on parts of their node. -/
structure Lowering where
  source : Source
  language : Language
  statement : SourceNode → Lowered Node
  expression : SourceNode → Lowered Node

namespace Lowering

variable (lo : Lowering)

/-! ### Parts of nodes -/

/-- The span of a node. -/
def span (n : SourceNode) : Span := lo.source.span n.start n.stop

/-- A part that has to be there. -/
def present : Option SourceNode → Lowered SourceNode
  | some n => .ok n
  | none => .error (.host .attribute)

/-- An element that has to be there. -/
def element : Option SourceNode → Lowered SourceNode
  | some n => .ok n
  | none => .error (.host .index)

/-- A part of a node that has to be there. -/
def part (n : SourceNode) (field : String) : Lowered SourceNode := present (n.part? field)

/-- The source text of a stretch of bytes. -/
def textOf (start stop : Nat) : Lowered Text :=
  match lo.source.text? start stop with
  | some t => .ok t
  | none => .error (.host .decoding)

/-- The source text of a node. -/
def text (n : SourceNode) : Lowered Text := lo.textOf n.start n.stop

/-- Unsupported syntax. -/
def unsupported {α : Type} (n : SourceNode) (what : String) : Lowered α :=
  .error (.single (.contract (.source (.unsupported what) (lo.span n))))

/-- The lowering of an expression that has to be there. -/
def expressionPart (n : Option SourceNode) : Lowered Node := do lo.expression (← present n)

/-- The lowering of a statement that has to be there. -/
def statementPart (n : Option SourceNode) : Lowered Node := do lo.statement (← present n)

/-- A node without content of its own. -/
def plain (kind : NodeKind) (n : SourceNode) (children : List Node) : Node :=
  { kind, children, span := lo.span n }

/-! ### Statements -/

/-- The statements of a block, without those that leave no trace. -/
def statements (n : SourceNode) : Lowered (List Node) := do
  let lowered ← (n.children.filter SourceNode.isNamed).mapM lo.statement
  pure (lowered.filter fun s => !s.isEmpty)

/-- A block. -/
def block (n : SourceNode) : Lowered Node := do
  pure (lo.plain .block n (← lo.statements n))

/-- An expression used as a statement. -/
def expressionStatement (n : SourceNode) : Lowered Node :=
  match n.named with
  | [] => .ok .emptyNode
  | e :: _ => do pure (lo.plain .expressionStatement n [← lo.expression e])

/-- The first expression of a node, if there is one. -/
def optionalFirst (n : SourceNode) : Lowered (List Node) :=
  match n.named with
  | [] => .ok []
  | e :: _ => do pure [← lo.expression e]

/-- A `return` statement. -/
def returnStatement (n : SourceNode) : Lowered Node := do
  pure (lo.plain .return n (← lo.optionalFirst n))

/-- A `throw` statement. -/
def throwStatement (n : SourceNode) : Lowered Node := do
  if n.named.isEmpty then lo.unsupported n "throw without a value"
  else pure (lo.plain .throw n (← lo.optionalFirst n))

/-- The label of a jump. -/
def jumpLabel (n : SourceNode) : Lowered (Option Text) :=
  match n.part? "label" with
  | some l => do pure (some (← lo.text l))
  | none => .ok none

/-- A `break` or `continue` statement. -/
def jump (kind : NodeKind) (n : SourceNode) : Lowered Node := do
  let label ← lo.jumpLabel n
  pure { kind, label, span := lo.span n }

/-- The statement after `else`. -/
def alternative (n : SourceNode) : Lowered Node :=
  match n.named with
  | s :: _ => if n.type == "else_clause" then lo.statement s else lo.statement n
  | [] => lo.statement n

/-- An `if` statement. -/
def ifStatement (n : SourceNode) : Lowered Node := do
  let condition ← lo.expressionPart (n.part? "condition")
  let consequence ← lo.statementPart (n.part? "consequence")
  let otherwise ← match n.part? "alternative" with
    | some a => do pure [← lo.alternative a]
    | none => pure []
  pure (lo.plain .conditionalStatement n (condition :: consequence :: otherwise))

/-- A `while` loop. -/
def whileStatement (n : SourceNode) : Lowered Node := do
  let condition ← lo.expressionPart (n.part? "condition")
  let body ← lo.statementPart (n.part? "body")
  pure (lo.plain .whileLoop n [condition, body])

/-- A `do` loop. -/
def doStatement (n : SourceNode) : Lowered Node := do
  let body ← lo.statementPart (n.part? "body")
  let condition ← lo.expressionPart (n.part? "condition")
  pure (lo.plain .doWhileLoop n [body, condition])

/-- A part of a loop head that is left out. -/
def isBlankPart (n : SourceNode) : Bool := n.type == "empty_statement" || n.type == ";"

/-- The condition in the head of a `for` loop. -/
def loopCondition : Option SourceNode → Lowered Node
  | none => .ok .emptyNode
  | some n =>
    if isBlankPart n then .ok .emptyNode
    else if n.type == "expression_statement" then
      match n.named with
      | e :: _ => lo.expression e
      | [] => .ok .emptyNode
    else lo.expression n

/-- A label with its statement; two labels defer the statement. -/
def labeledStatement (n : SourceNode) : Lowered Node := do
  let label ← lo.text (← part n "label")
  let body ← lo.statementPart (n.part? "body")
  if label = deferLabel || label = deferAwaitLabel then
    pure { kind := .defer, children := [body], isAsync := label = deferAwaitLabel,
           span := lo.span n }
  else pure { kind := .labeled, label := some label, children := [body], span := lo.span n }

/-- A variable of a declaration. -/
def declarator (n : SourceNode) : Lowered Node := do
  let name ← part n "name"
  if name.type != "identifier" then lo.unsupported name "destructuring declaration"
  else
    let name ← lo.text name
    let initial ← match n.part? "value" with
      | some v => do pure [← lo.expression v]
      | none => pure []
    pure { kind := .declarator, value := .text name, children := initial, span := lo.span n }

/-- A declaration of variables. -/
def declaration (n : SourceNode) : Lowered Node := do
  let kind ← element n.children.head?
  let declarators ← (n.children.filter fun c => c.type == "variable_declarator").mapM lo.declarator
  pure { kind := .declaration, value := .text kind.type, children := declarators, span := lo.span n }

/-- The variable of a loop over elements, inside at most `fuel` declarations. -/
def loopVariable : Nat → SourceNode → Lowered Text
  | 0, n => lo.unsupported n "destructuring loop variable"
  | fuel + 1, n =>
    if n.type == "identifier" then lo.text n
    else if n.type == "lexical_declaration" || n.type == "variable_declaration" then
      match n.children.find? fun c => c.type == "variable_declarator" with
      | some d => do loopVariable fuel (← part d "name")
      | none => lo.unsupported n "destructuring loop variable"
    else lo.unsupported n "destructuring loop variable"

/-- A loop over elements. -/
def forOfStatement (n : SourceNode) : Lowered Node := do
  let isOf ← match n.part? "operator" with
    | some o => do pure ((← lo.text o) == "of")
    | none => pure false
  if !isOf then lo.unsupported n "for...in loop"
  else if n.hasToken "await" then lo.unsupported n "for await...of loop"
  else
    let left ← part n "left"
    let name ← lo.loopVariable left.height left
    let iterable ← lo.expressionPart (n.part? "right")
    let body ← lo.statementPart (n.part? "body")
    pure { kind := .forOfLoop, value := .text name, children := [iterable, body], span := lo.span n }

/-- The statements of a clause of a `switch`. -/
def clauseStatements (n : SourceNode) : Lowered (List Node) := do
  let lowered ← ((n.parts "body").filter fun s => !s.isComment).mapM lo.statement
  pure (lowered.filter fun s => !s.isEmpty)

/-- A clause of a `switch`. -/
def switchClause (n : SourceNode) : Lowered Node := do
  let body ← lo.clauseStatements n
  if n.type == "switch_default" then pure (lo.plain .default n body)
  else
    let test ← lo.expressionPart (n.part? "value")
    pure (lo.plain .case n (test :: body))

/-- A `switch` statement. -/
def switchStatement (n : SourceNode) : Lowered Node := do
  let body ← part n "body"
  let clauses ← body.named.mapM lo.switchClause
  let discriminant ← lo.expressionPart (n.part? "value")
  pure (lo.plain .switch n (discriminant :: clauses))

/-- A `catch` clause. -/
def catchClause (n : SourceNode) : Lowered Node := do
  let value ← match n.part? "parameter" with
    | some p =>
      if p.type != "identifier" then lo.unsupported p "destructuring catch parameter"
      else do pure (Datum.text (← lo.text p))
    | none => pure Datum.null
  let body ← lo.block (← part n "body")
  pure { kind := .catch, value, children := [body], span := lo.span n }

/-- A `try` statement. -/
def tryStatement (n : SourceNode) : Lowered Node := do
  let handler ← match n.part? "handler" with
    | some c => lo.catchClause c
    | none => pure .emptyNode
  let finalizer ← match n.part? "finalizer" with
    | some f => do lo.block (← part f "body")
    | none => pure .emptyNode
  let body ← lo.block (← part n "body")
  pure (lo.plain .try n [body, handler, finalizer])

/-! ### Expressions -/

/-- A name. -/
def identifier (n : SourceNode) : Lowered Node := do
  pure { kind := .identifier, value := .text (← lo.text n), span := lo.span n }

/-- An expression in parentheses. -/
def parenthesized (n : SourceNode) : Lowered Node :=
  match n.named with
  | [] => lo.unsupported n "empty parentheses"
  | e :: _ => lo.expression e

/-- The operators that may leave their right operand out. -/
def isLogical (op : Text) : Bool := op = "&&" || op = "||" || op = "??"

/-- A binary operation. -/
def binary (n : SourceNode) : Lowered Node := do
  let op ← match n.part? "operator" with
    | some o => lo.text o
    | none => do lo.text (← element n.children[1]?)
  let left ← lo.expressionPart (n.part? "left")
  let right ← lo.expressionPart (n.part? "right")
  pure { kind := if isLogical op then .logical else .binary, value := .text op,
         children := [left, right], span := lo.span n }

/-- A unary operation. -/
def unary (n : SourceNode) : Lowered Node := do
  let (op, operand) ← match n.part? "operator", n.part? "argument" with
    | some o, some a => pure (o, a)
    | _, _ => do pure (← element n.children.head?, ← element n.children.getLast?)
  let op ← lo.text op
  pure { kind := .unary, value := .text op, children := [← lo.expression operand],
         span := lo.span n }

/-- The two update operators. -/
def isUpdateToken (n : SourceNode) : Bool := n.type == "++" || n.type == "--"

/-- What stands on the left of an assignment. -/
def target (n : SourceNode) : Lowered Node := do
  let t ← lo.expression n
  match t.kind with
  | .identifier | .member | .index => pure t
  | _ => lo.unsupported n ("assignment to " ++ n.type)

/-- An element that is searched for and has to be there. -/
def sought : Option SourceNode → Lowered SourceNode
  | some n => .ok n
  | none => .error (.host .stopIteration)

/-- An update. -/
def update (n : SourceNode) : Lowered Node := do
  let operand ← match n.part? "argument" with
    | some a => pure a
    | none => sought (n.children.find? SourceNode.isNamed)
  let op ← match n.part? "operator" with
    | some o => lo.text o
    | none => do pure (Text.ofString (← sought (n.children.find? isUpdateToken)).type)
  let first ← element n.children.head?
  pure { kind := .update, value := .text op, isLeading := isUpdateToken first,
         children := [← lo.target operand], span := lo.span n }

/-- An assignment, simple or combined with an operator. -/
def assignment (n : SourceNode) : Lowered Node := do
  let op ← match n.part? "operator" with
    | some o => lo.text o
    | none => pure "="
  let left ← lo.target (← part n "left")
  let right ← lo.expressionPart (n.part? "right")
  pure { kind := .assign, value := .text op, children := [left, right], span := lo.span n }

/-- The arguments of a call. -/
def arguments : Option SourceNode → Lowered (List Node)
  | none => .ok []
  | some n =>
    if n.type != "arguments" then lo.unsupported n "tagged template call"
    else n.named.mapM lo.expression

/-- A call, or the creation of an object, which differ in the part that is called. -/
def call (kind : NodeKind) (field : String) (n : SourceNode) : Lowered Node := do
  let callee ← lo.expressionPart (n.part? field)
  let arguments ← lo.arguments (n.part? "arguments")
  pure (lo.plain kind n (callee :: arguments))

/-- The use of a property by name. -/
def member (n : SourceNode) : Lowered Node := do
  let name ← lo.text (← part n "property")
  let object ← lo.expressionPart (n.part? "object")
  pure { kind := .member, value := .text name, children := [object], span := lo.span n }

/-- The use of a property by a computed key. -/
def subscript (n : SourceNode) : Lowered Node := do
  let object ← lo.expressionPart (n.part? "object")
  let key ← lo.expressionPart (n.part? "index")
  pure (lo.plain .index n [object, key])

/-- A choice between two expressions. -/
def ternary (n : SourceNode) : Lowered Node := do
  let condition ← lo.expressionPart (n.part? "condition")
  let consequence ← lo.expressionPart (n.part? "consequence")
  let alternative ← lo.expressionPart (n.part? "alternative")
  pure (lo.plain .conditional n [condition, consequence, alternative])

/-- Expressions in a row: the elements of an array, or the parts of a comma expression. -/
def row (kind : NodeKind) (n : SourceNode) : Lowered Node := do
  pure (lo.plain kind n (← n.named.mapM lo.expression))

/-- An `await` expression. -/
def awaitExpression (n : SourceNode) : Lowered Node := do
  pure (lo.plain .await n [← lo.expression (← element n.named.head?)])

/-- A `yield` expression. -/
def yieldExpression (n : SourceNode) : Lowered Node := do
  if n.hasToken "*" then lo.unsupported n "yield* delegation"
  else pure (lo.plain .yield n (← lo.optionalFirst n))

/-- A literal. -/
def literal (n : SourceNode) (value : Datum) : Node := { kind := .literal, value, span := lo.span n }

/-- The number of a numeric literal. -/
def numberOf (n : SourceNode) : Lowered Number := do
  match Number.readLiteral? (← lo.text n) with
  | some x => pure x
  | none => throw (.host .value)

/-- The text of a piece of a string literal. -/
def stringPiece (n : SourceNode) : Lowered Text :=
  if n.type == "string_fragment" then lo.text n
  else if n.type == "escape_sequence" then do Source.decodeEscape (← lo.text n)
  else .ok .empty

/-- The text of a string literal. -/
def stringValue (n : SourceNode) : Lowered Text := do
  pure (Text.concat (← n.children.mapM lo.stringPiece))

/-- A stretch of raw text of a template literal, with the span of the node next to it. -/
def chunk (start stop : Nat) (near : SourceNode) : Lowered (List Node) := do
  if start < stop then pure [lo.literal near (.text (← lo.textOf start stop))] else pure []

/-- The pieces of a template literal from a place on, each after the raw text before it. -/
def templatePieces (whole : SourceNode) : Nat → List SourceNode → Lowered (List Node)
  | place, [] => lo.chunk place (whole.stop - 1) whole
  | place, c :: rest =>
    if c.type == "escape_sequence" then do
      let before ← lo.chunk place c.start c
      let value ← Source.decodeEscape (← lo.text c)
      let after ← templatePieces whole c.stop rest
      pure (before ++ lo.literal c (.text value) :: after)
    else if c.type == "template_substitution" then do
      let before ← lo.chunk place c.start c
      let value ← lo.expression (← element c.named.head?)
      let after ← templatePieces whole c.stop rest
      pure (before ++ value :: after)
    else templatePieces whole place rest

/-- A template literal. -/
def template (n : SourceNode) : Lowered Node := do
  pure (lo.plain .template n (← lo.templatePieces n (n.start + 1) n.children))

/-! ### Functions and objects -/

/-- A parameter, with its default value if it has one. -/
def plainParameter (n : SourceNode) : Lowered Node := do
  if n.type == "identifier" then
    pure { kind := .param, value := .text (← lo.text n), span := lo.span n }
  else if n.type == "assignment_pattern" then
    let left ← part n "left"
    if left.type != "identifier" then lo.unsupported left "destructuring parameter"
    else
      let name ← lo.text left
      let default ← lo.expressionPart (n.part? "right")
      pure { kind := .param, value := .text name, children := [default], span := lo.span n }
  else lo.unsupported n ("parameter " ++ n.type)

/-- A parameter with a type annotation. -/
def typedParameter (n : SourceNode) : Lowered Node := do
  let name? := match n.part? "pattern" with
    | some p => some p
    | none => n.children.find? fun c => c.type == "identifier"
  match name? with
  | some name =>
    if name.type != "identifier" then lo.unsupported n "destructuring parameter"
    else
      let name ← lo.text name
      let default ← match n.part? "value" with
        | some d => do pure [← lo.expression d]
        | none => pure []
      pure { kind := .param, value := .text name, children := default, span := lo.span n }
  | none => lo.unsupported n "destructuring parameter"

/-- A parameter. -/
def parameter (n : SourceNode) : Lowered Node :=
  if lo.language = .typescript && (n.type == "required_parameter" || n.type == "optional_parameter")
  then lo.typedParameter n
  else lo.plainParameter n

/-- The parameters of a function: one without parentheses, or a list. -/
def parameters (n : SourceNode) : Lowered (List Node) :=
  match n.part? "parameter", n.part? "parameters" with
  | some p, _ => do pure [← lo.parameter p]
  | none, some ps => ps.named.mapM lo.parameter
  | none, none => .ok []

/-- A function of either kind.  Its body comes before its parameters when both are unsupported. -/
def function (kind : NodeKind) (n : SourceNode) : Lowered Node := do
  let name ← match n.part? "name" with
    | some m => lo.text m
    | none => pure anonymousName
  let bodyNode ← part n "body"
  let body ←
    if bodyNode.type == "statement_block" then lo.block bodyNode else lo.expression bodyNode
  let params ← lo.parameters n
  pure { kind, value := .text name, params, children := [body], isAsync := n.hasToken "async",
         isGenerator := n.hasToken "*", span := lo.span n }

/-- The key of a property. -/
def propertyKey (n : SourceNode) : Lowered Text :=
  if n.type == "string" then lo.stringValue n
  else if n.type == "number" then do
    match (← lo.numberOf n).literal with
    | .ok t => pure t
    | .error e => throw (.ofNumberError e)
  else if n.type == "computed_property_name" then lo.unsupported n "computed property name"
  else lo.text n

/-- The value of a member of an object literal and the node of its key. -/
def memberValue (n : SourceNode) : Lowered (Option SourceNode × Node) :=
  if n.type == "pair" then do
    pure (n.part? "key", ← lo.expressionPart (n.part? "value"))
  else if n.type == "shorthand_property_identifier" then do pure (some n, ← lo.identifier n)
  else if n.type == "method_definition" then do
    pure (n.part? "name", ← lo.function .functionExpression n)
  else lo.unsupported n ("object member " ++ n.type)

/-- A member of an object literal. -/
def objectMember (n : SourceNode) : Lowered Node := do
  let (key, value) ← lo.memberValue n
  let key ← lo.propertyKey (← present key)
  pure { kind := .property, value := .text key, children := [value], span := lo.span n }

/-- An object literal. -/
def object (n : SourceNode) : Lowered Node := do
  pure (lo.plain .object n (← n.named.mapM lo.objectMember))

/-! ### The rules -/

/-- Types of nodes that stand for statements. -/
def isStatementType (language : Language) : String → Bool
  | "expression_statement" | "lexical_declaration" | "variable_declaration" | "return_statement"
  | "if_statement" | "while_statement" | "do_statement" | "for_statement" | "for_in_statement"
  | "function_declaration" | "generator_function_declaration" | "throw_statement"
  | "statement_block" | "empty_statement" | "break_statement" | "continue_statement"
  | "try_statement" | "switch_statement" | "labeled_statement" => true
  | "interface_declaration" | "type_alias_declaration" | "ambient_declaration" =>
    language = .typescript
  | _ => false

/-- The start of a `for` loop. -/
def loopStart : Option SourceNode → Lowered Node
  | none => .ok .emptyNode
  | some n =>
    if isBlankPart n then .ok .emptyNode
    else if isStatementType lo.language n.type then lo.statement n
    else do pure (lo.plain .expressionStatement n [← lo.expression n])

/-- A `for` loop with a head of three parts. -/
def forStatement (n : SourceNode) : Lowered Node := do
  let start ← lo.loopStart (n.part? "initializer")
  let condition ← lo.loopCondition (n.part? "condition")
  let step ← match (n.part? "increment").or (n.part? "update") with
    | some u => lo.expression u
    | none => pure .emptyNode
  let body ← lo.statementPart (n.part? "body")
  pure (lo.plain .forLoop n [start, condition, step, body])

/-- The rule of a type of statement. -/
def statementRule (n : SourceNode) : Lowered Node :=
  match n.type with
  | "expression_statement" => lo.expressionStatement n
  | "lexical_declaration" | "variable_declaration" => lo.declaration n
  | "return_statement" => lo.returnStatement n
  | "if_statement" => lo.ifStatement n
  | "while_statement" => lo.whileStatement n
  | "do_statement" => lo.doStatement n
  | "for_statement" => lo.forStatement n
  | "for_in_statement" => lo.forOfStatement n
  | "function_declaration" | "generator_function_declaration" => lo.function .function n
  | "throw_statement" => lo.throwStatement n
  | "statement_block" => lo.block n
  | "break_statement" => lo.jump .break n
  | "continue_statement" => lo.jump .continue n
  | "try_statement" => lo.tryStatement n
  | "switch_statement" => lo.switchStatement n
  | "labeled_statement" => lo.labeledStatement n
  | _ => .ok .emptyNode

/-- A statement: by its rule, nothing at all, or an expression in its place. -/
def lowerStatement (n : SourceNode) : Lowered Node :=
  if n.isComment || n.type == "\n" then .ok .emptyNode
  else if isStatementType lo.language n.type then lo.statementRule n
  else do pure (lo.plain .expressionStatement n [← lo.expression n])

/-- A wrapper that only adds a type to an expression. -/
def typed (e : Option SourceNode) : Lowered Node := do lo.expression (← element e)

/-- An expression: by the rule of its type. -/
def lowerExpression (n : SourceNode) : Lowered Node :=
  match n.type with
  | "identifier" | "undefined" => lo.identifier n
  | "number" => do pure (lo.literal n (.number (← lo.numberOf n)))
  | "string" => do pure (lo.literal n (.text (← lo.stringValue n)))
  | "template_string" => lo.template n
  | "true" => .ok (lo.literal n (.bool true))
  | "false" => .ok (lo.literal n (.bool false))
  | "null" => .ok (lo.literal n .null)
  | "binary_expression" => lo.binary n
  | "unary_expression" => lo.unary n
  | "update_expression" => lo.update n
  | "call_expression" => lo.call .call "function" n
  | "new_expression" => lo.call .new "constructor" n
  | "member_expression" => lo.member n
  | "subscript_expression" => lo.subscript n
  | "parenthesized_expression" => lo.parenthesized n
  | "array" => lo.row .array n
  | "object" => lo.object n
  | "assignment_expression" | "augmented_assignment_expression" => lo.assignment n
  | "arrow_function" | "function" | "function_expression" | "generator_function" =>
    lo.function .functionExpression n
  | "ternary_expression" => lo.ternary n
  | "await_expression" => lo.awaitExpression n
  | "yield_expression" => lo.yieldExpression n
  | "sequence_expression" => lo.row .sequence n
  | type =>
    if lo.language = .typescript then
      match type with
      | "as_expression" | "non_null_expression" | "satisfies_expression" => lo.typed n.named.head?
      | "type_assertion" => lo.typed n.named.getLast?
      | _ => lo.unsupported n type
    else lo.unsupported n type

/-- Statements or expressions. -/
inductive Role where
  | statement | expression

/-- The lowering of a node in a role.  Without steps left nothing is lowered. -/
def run (source : Source) (language : Language) : Nat → Role → SourceNode → Lowered Node
  | 0, _, _ => .error (.host .recursion)
  | fuel + 1, role, n =>
    let lo : Lowering :=
      { source, language, statement := run source language fuel .statement,
        expression := run source language fuel .expression }
    match role with
    | .statement => lo.lowerStatement n
    | .expression => lo.lowerExpression n

end Lowering

/-- The program tree of a concrete syntax tree.  A statement may be an expression in its place, so a
node takes up to two steps. -/
def SourceNode.lower (root : SourceNode) (source : Source) (language : Language) : Lowered Node := do
  let fuel := 2 * root.height
  let lo : Lowering :=
    { source, language, statement := Lowering.run source language fuel .statement,
      expression := Lowering.run source language fuel .expression }
  pure (lo.plain .program root (← lo.statements root))

end ScopeExit
