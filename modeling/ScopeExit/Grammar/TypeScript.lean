import ScopeExit.Grammar.JavaScript
import ScopeExit.Grammar.TypeScript.Type
/-!
The grammar of the language with types.

It takes the common rules, changes some of them and adds declarations, annotations and types.  Markup
elements are not among its expressions.
-/
namespace ScopeExit.Grammar

namespace TypeScript

open Rule

/-- Puts a rule in the place of the one with its name. -/
def replaceRule (rules : List (String × Rule)) (changed : String × Rule) : List (String × Rule) :=
  rules.map fun r => if r.1 == changed.1 then changed else r

/-- The rules of the language with types. -/
def rules : List (String × Rule) :=
  let common := changedRules.foldl replaceRule JavaScript.commonRules
  let extended :=
    JavaScript.withAlternative "declaration" moreDeclarations <|
    JavaScript.withAlternative "export_statement" moreExports <|
    JavaScript.withAlternative "primary_expression" (ref "non_null_expression") <|
    JavaScript.withAlternative "_lhs_expression" (ref "non_null_expression") <|
    JavaScript.withAlternative "_augmented_assignment_lhs" (ref "non_null_expression") <|
    common.map fun (name, body) =>
      if name == "export_specifier" then (name, .both typeWords body) else (name, body)
  extended ++ memberRules ++ declarationRules ++ annotationRules ++ queryRules ++ compositeRules

/-- The orders of strengths that join those of the language without types. -/
def orders : List (List Rank) := [
  [.strength "call", .strength "instantiation", .strength "unary", .strength "binary",
    .rule "await_expression", .rule "arrow_function"],
  [.strength "extends", .strength "instantiation"],
  [.rule "intersection_type", .rule "union_type", .rule "conditional_type",
    .rule "function_type", .strength "binary", .rule "type_predicate", .rule "readonly_type"],
  [.rule "mapped_type_clause", .rule "primary_expression"],
  [.rule "accessibility_modifier", .rule "primary_expression"],
  [.strength "unary_void", .rule "expression"],
  [.rule "extends_clause", .rule "primary_expression"],
  [.strength "unary", .strength "assign"],
  [.strength "declare", .rule "expression"],
  [.rule "predefined_type", .rule "unary_expression"],
  [.rule "type", .rule "flow_maybe_type"],
  [.rule "tuple_type", .rule "array_type", .rule "pattern", .rule "type"],
  [.rule "readonly_type", .rule "pattern"],
  [.rule "readonly_type", .rule "primary_expression"],
  [.rule "type_query", .rule "subscript_expression", .rule "expression"],
  [.rule "type_query", .rule "_type_query_subscript_expression"],
  [.rule "nested_type_identifier", .rule "generic_type", .rule "primary_type",
    .rule "lookup_type", .rule "index_type_query", .rule "type"],
  [.rule "as_expression", .rule "satisfies_expression", .rule "primary_type"],
  [.rule "_type_query_member_expression", .rule "member_expression"],
  [.rule "member_expression", .rule "_type_query_member_expression_in_type_annotation"],
  [.rule "_type_query_member_expression", .rule "primary_expression"],
  [.rule "_type_query_subscript_expression", .rule "subscript_expression"],
  [.rule "_type_query_subscript_expression", .rule "primary_expression"],
  [.rule "_type_query_call_expression", .rule "primary_expression"],
  [.rule "_type_query_instantiation_expression", .rule "primary_expression"],
  [.rule "type_query", .rule "primary_expression"],
  [.rule "override_modifier", .rule "primary_expression"],
  [.rule "decorator_call_expression", .rule "decorator"],
  [.rule "literal_type", .rule "pattern"],
  [.rule "predefined_type", .rule "pattern"],
  [.rule "call_expression", .rule "_type_query_call_expression"],
  [.rule "call_expression", .rule "_type_query_call_expression_in_type_annotation"],
  [.rule "new_expression", .rule "primary_expression"],
  [.rule "meta_property", .rule "primary_expression"],
  [.rule "construct_signature", .rule "_property_name"]]

end TypeScript

/-- The grammar of the language with types. -/
def typescript : Grammar where
  rules := TypeScript.rules
  contextTokens := JavaScript.contextTokens ++ [
    ("_function_signature_automatic_semicolon", .signatureEnd)]
  extras := ["comment", "html_comment"]
  families := JavaScript.families ++ ["type", "primary_type"]
  inlined := (JavaScript.inlinedRules.filter fun n =>
      n != "_formal_parameter" && n != "_call_signature") ++ ["_type_identifier"]
  orders := JavaScript.orders ++ TypeScript.orders

end ScopeExit.Grammar
