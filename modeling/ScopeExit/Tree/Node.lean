import ScopeExit.Datum
import ScopeExit.Span
/-!
Program trees.

A `Node` has a kind, which fixes the meaning of its children by position:

    program, block              statements...
    expressionStatement         [expression]
    declaration (value: kind)   declarators...
    declarator (value: name)    [initial value?]
    conditionalStatement        [condition, consequence, alternative?]
    whileLoop                   [condition, body]
    doWhileLoop                 [body, condition]
    forLoop                     [start, condition, update, body], `empty` where absent
    forOfLoop (value: name)     [iterable, body]
    switch                      [discriminant, case or default clauses...]
    case                        [test, statements...]
    default                     statements...
    break, continue             label: the target, if one is named
    return, throw               [expression?]
    try                         [block, catch or `empty`, block or `empty`]
    catch (value: name)         [block]
    function (value: name)      params, [body]
    labeled (label: name)       [statement]
    defer (isAsync)             [body]
    param (value: name)         [default?]

Trees may come from outside, so nothing in the type says that a node has the children that its kind
asks for.
-/
namespace ScopeExit

/-- What a node is. -/
inductive NodeKind where
  | program | block | expressionStatement | declaration | declarator | conditionalStatement
  | whileLoop | doWhileLoop | forLoop | forOfLoop | switch | case | default | break | continue
  | return | throw | try | catch | function | labeled | defer | empty
  | identifier | literal | template | binary | logical | unary | update | assign | call | member
  | index | array | object | property | functionExpression | new | await | yield | conditional
  | sequence
  | param
  deriving DecidableEq, Inhabited

namespace NodeKind

/-- All kinds. -/
def all : List NodeKind :=
  [.program, .block, .expressionStatement, .declaration, .declarator, .conditionalStatement,
    .whileLoop, .doWhileLoop, .forLoop, .forOfLoop, .switch, .case, .default, .break, .continue,
    .return, .throw, .try, .catch, .function, .labeled, .defer, .empty, .identifier, .literal,
    .template, .binary, .logical, .unary, .update, .assign, .call, .member, .index, .array, .object,
    .property, .functionExpression, .new, .await, .yield, .conditional, .sequence, .param]

/-- The name of a kind in tree files and messages. -/
def name : NodeKind → String
  | .program => "PROGRAM"
  | .block => "BLOCK"
  | .expressionStatement => "EXPRESSION_STATEMENT"
  | .declaration => "DECLARATION"
  | .declarator => "DECLARATOR"
  | .conditionalStatement => "IF"
  | .whileLoop => "WHILE"
  | .doWhileLoop => "DO_WHILE"
  | .forLoop => "FOR"
  | .forOfLoop => "FOR_OF"
  | .switch => "SWITCH"
  | .case => "CASE"
  | .default => "DEFAULT"
  | .break => "BREAK"
  | .continue => "CONTINUE"
  | .return => "RETURN"
  | .throw => "THROW"
  | .try => "TRY"
  | .catch => "CATCH"
  | .function => "FUNCTION"
  | .labeled => "LABELED"
  | .defer => "DEFER"
  | .empty => "EMPTY"
  | .identifier => "IDENTIFIER"
  | .literal => "LITERAL"
  | .template => "TEMPLATE"
  | .binary => "BINARY"
  | .logical => "LOGICAL"
  | .unary => "UNARY"
  | .update => "UPDATE"
  | .assign => "ASSIGN"
  | .call => "CALL"
  | .member => "MEMBER"
  | .index => "INDEX"
  | .array => "ARRAY"
  | .object => "OBJECT"
  | .property => "PROPERTY"
  | .functionExpression => "FUNCTION_EXPR"
  | .new => "NEW"
  | .await => "AWAIT"
  | .yield => "YIELD"
  | .conditional => "CONDITIONAL"
  | .sequence => "SEQUENCE"
  | .param => "PARAM"

/-- The kind of a name. -/
def ofName? (s : String) : Option NodeKind := all.find? fun k => k.name == s

/-- The name of a kind in listings. -/
def listingName (k : NodeKind) : String :=
  String.ofList (k.name.toList.map Char.toLower)

/-- Loops. -/
def isLoop : NodeKind → Bool
  | .whileLoop | .doWhileLoop | .forLoop | .forOfLoop => true
  | _ => false

/-- Functions, as statements and as expressions. -/
def isFunction : NodeKind → Bool
  | .function | .functionExpression => true
  | _ => false

theorem ofName?_name (k : NodeKind) : ofName? k.name = some k := by
  cases k <;> decide +kernel

end NodeKind

/-- A node of a program tree. -/
structure Node where
  kind : NodeKind
  /-- The name, literal, operator or kind of declaration; `null` if there is none. -/
  value : Datum := .null
  /-- The target of a jump or the label of a statement. -/
  label : Option Text := none
  params : List Node := []
  children : List Node := []
  isAsync : Bool := false
  isGenerator : Bool := false
  /-- An update operator that stands before its operand. -/
  isLeading : Bool := false
  span : Span := .unknown
  deriving Inhabited

namespace Node

/-- The node that fills a place without content. -/
def emptyNode : Node := { kind := .empty }

/-- A node that only fills a place. -/
def isEmpty (n : Node) : Bool := n.kind == .empty

/-- The child at a position, unless it is missing or only fills the place. -/
def child? (n : Node) (i : Nat) : Option Node :=
  match n.children[i]? with
  | some c => if c.isEmpty then none else some c
  | none => none

mutual

/-- The node and all its descendants: a node, then its parameters, then its children. -/
def walk : Node → List Node
  | ⟨kind, value, label, params, children, a, g, l, span⟩ =>
    ⟨kind, value, label, params, children, a, g, l, span⟩ :: (walkAll params ++ walkAll children)

/-- The nodes of several trees, one tree after the other. -/
def walkAll : List Node → List Node
  | [] => []
  | n :: ns => walk n ++ walkAll ns

end

theorem walk_eq (n : Node) : n.walk = n :: (walkAll n.params ++ walkAll n.children) := by
  cases n; rfl

end Node

end ScopeExit
