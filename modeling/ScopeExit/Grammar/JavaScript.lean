import ScopeExit.Grammar.JavaScript.Literal
import ScopeExit.Grammar.JavaScript.Statement
/-!
The grammar of the language without types.

The common part is what it shares with the language with types; on top of that it has declarations of
resources and takes `await` for a name where nothing is awaited.
-/
namespace ScopeExit.Grammar

namespace JavaScript

open Rule

/-- The rules that both languages share. -/
def commonRules : List (String × Rule) :=
  moduleRules ++ statementRules ++ expressionRules ++ markupRules ++ functionRules ++
    operatorRules ++ literalRules ++ memberRules

/-- The tokens that depend on the context. -/
def contextTokens : List (String × ContextToken) := [
  ("_automatic_semicolon", .lineEnd), ("_template_chars", .templateText),
  ("_ternary_qmark", .questionMark), ("html_comment", .markupComment), ("jsx_text", .markupText)]

/-- The families of rules. -/
def families : List String := ["statement", "declaration", "expression", "primary_expression", "pattern"]

/-- The rules that are put in the place of their name. -/
def inlinedRules : List String := [
  "_call_signature", "_formal_parameter", "_expressions", "_semicolon", "_identifier",
  "_reserved_identifier", "_jsx_attribute", "_jsx_element_name", "_jsx_child", "_jsx_element",
  "_jsx_attribute_name", "_jsx_attribute_value"]

/-- The orders of strengths. -/
def orders : List (List Rank) := [
  [.strength "member", .strength "template_call", .strength "call", .rule "update_expression",
    .strength "unary_void", .strength "binary_exp", .strength "binary_times",
    .strength "binary_plus", .strength "binary_shift", .strength "binary_compare",
    .strength "binary_relation", .strength "binary_equality", .strength "bitwise_and",
    .strength "bitwise_xor", .strength "bitwise_or", .strength "logical_and",
    .strength "logical_or", .strength "ternary", .rule "sequence_expression",
    .rule "arrow_function"],
  [.strength "assign", .rule "primary_expression"],
  [.strength "member", .strength "template_call", .strength "new", .strength "call",
    .rule "expression"],
  [.strength "declare", .strength "literal"],
  [.rule "primary_expression", .rule "statement_block", .strength "object"],
  [.rule "meta_property", .rule "import"],
  [.rule "import_statement", .rule "import"],
  [.rule "export_statement", .rule "primary_expression"],
  [.rule "lexical_declaration", .rule "primary_expression"]]

/-- Adds an alternative to a rule. -/
def withAlternative (name : String) (r : Rule) (rules : List (String × Rule)) :
    List (String × Rule) :=
  rules.map fun (n, body) => if n == name then (n, .either body r) else (n, body)

/-- The declaration of variables that are released at the end of their block. -/
def usingDeclaration : Rule :=
  seq [part "kind" (choice ["using", seq ["await", "using"]]),
    commaSeparated (ref "variable_declarator"), ref "_semicolon"]

/-- The rules of the language without types. -/
def rules : List (String × Rule) :=
  withAlternative "declaration" (ref "using_declaration")
    (withAlternative "_reserved_identifier" "await" commonRules) ++
  [("using_declaration", usingDeclaration)]

end JavaScript

/-- The grammar of the language without types. -/
def javascript : Grammar where
  rules := JavaScript.rules
  contextTokens := JavaScript.contextTokens
  extras := ["comment", "html_comment"]
  families := JavaScript.families
  inlined := JavaScript.inlinedRules
  orders := JavaScript.orders

end ScopeExit.Grammar
