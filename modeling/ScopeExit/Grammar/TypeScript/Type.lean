import ScopeExit.Grammar.TypeScript.Declaration
/-!
Types.
-/
namespace ScopeExit.Grammar.TypeScript

open Rule

/-- A node of a query of the type of an expression, under the name of the expression. -/
def queried (name : String) : Rule :=
  named name (ref ("_type_query_" ++ name))

/-- The same where the word `typeof` is missing. -/
def queriedInType (name : String) : Rule :=
  named name (ref ("_type_query_" ++ name ++ "_in_type_annotation"))

/-- The property of a member. -/
def propertyName : Rule := choice [
  ref "private_property_identifier", named "property_identifier" (ref "identifier")]

/-- What a member of a queried expression may be taken of. -/
def queriedObject : Rule := choice [
  ref "identifier", ref "this", queried "subscript_expression", queried "member_expression",
  queried "call_expression"]

/-- What may be called, or given types, in a queried expression. -/
def queriedFunction : Rule := choice [
  ref "import", ref "identifier", queried "member_expression", queried "subscript_expression"]

/-- Annotations, and types as such. -/
def annotationRules : List (String × Rule) := [
  ("omitting_type_annotation", seq ["-?:", ref "type"]),
  ("adding_type_annotation", seq ["+?:", ref "type"]),
  ("opting_type_annotation", seq ["?:", ref "type"]),
  ("type_annotation", seq [":", ref "type"]),
  ("_type_query_member_expression_in_type_annotation", seq [
    part "object" (choice [
      ref "import", queriedInType "member_expression", queriedInType "call_expression"]),
    ".",
    part "property" propertyName]),
  ("_type_query_call_expression_in_type_annotation", seq [
    part "function" (choice [ref "import", queriedInType "member_expression"]),
    part "arguments" (ref "arguments")]),
  ("asserts", seq ["asserts", choice [ref "type_predicate", ref "identifier", ref "this"]]),
  ("asserts_annotation", seq [":", ref "asserts"]),
  ("type", choice [
    ref "primary_type", ref "function_type", ref "readonly_type", ref "constructor_type",
    ref "infer_type",
    ranked (.level (-1)) none (queriedInType "member_expression"),
    ranked (.level (-1)) none (queriedInType "call_expression")]),
  ("tuple_parameter", seq [
    part "name" (choice [ref "identifier", ref "rest_pattern"]),
    part "type" (ref "type_annotation")]),
  ("optional_tuple_parameter", seq [
    part "name" (ref "identifier"), "?", part "type" (ref "type_annotation")]),
  ("optional_type", seq [ref "type", "?"]),
  ("rest_type", seq ["...", ref "type"]),
  ("_tuple_type_member", choice [
    named "required_parameter" (ref "tuple_parameter"),
    named "optional_parameter" (ref "optional_tuple_parameter"),
    ref "optional_type", ref "rest_type", ref "type"]),
  ("constructor_type", groupLeft (seq [maybe "abstract", "new",
    maybePart "type_parameters" "type_parameters",
    part "parameters" (ref "formal_parameters"),
    "=>",
    part "type" (ref "type")])),
  ("primary_type", choice [
    ref "parenthesized_type", ref "predefined_type", ref "_type_identifier",
    ref "nested_type_identifier", ref "generic_type", ref "object_type", ref "array_type",
    ref "tuple_type", ref "flow_maybe_type", ref "type_query", ref "index_type_query",
    named "this_type" (ref "this"), ref "existential_type", ref "literal_type",
    ref "lookup_type", ref "conditional_type", ref "template_literal_type",
    ref "intersection_type", ref "union_type", "const"]),
  ("template_type", seq ["$\x7b", choice [ref "primary_type", ref "infer_type"], closeBrace]),
  ("template_literal_type", seq ["\x60",
    many (choice [named "string_fragment" (ref "_template_chars"), ref "template_type"]),
    "\x60"]),
  ("infer_type", groupRight (seq ["infer", ref "_type_identifier",
    maybe (seq ["extends", ref "type"])])),
  ("conditional_type", groupRight (seq [
    part "left" (ref "type"), "extends", part "right" (ref "type"),
    renamed "?" false (ref "_ternary_qmark"),
    part "consequence" (ref "type"), ":", part "alternative" (ref "type")])),
  ("generic_type", strong "call" (seq [
    part "name" (choice [ref "_type_identifier", ref "nested_type_identifier"]),
    part "type_arguments" (ref "type_arguments")])),
  ("type_predicate", seq [
    part "name" (choice [
      ref "identifier", ref "this", named "identifier" (ref "predefined_type")]),
    "is",
    part "type" (ref "type")]),
  ("type_predicate_annotation", seq [":", ref "type_predicate"])]

/-- Types of expressions. -/
def queryRules : List (String × Rule) := [
  ("_type_query_member_expression", seq [
    part "object" queriedObject, choice [".", "?."], part "property" propertyName]),
  ("_type_query_subscript_expression", seq [
    part "object" queriedObject, maybe "?.", "[",
    part "index" (choice [ref "predefined_type", ref "string", ref "number"]), "]"]),
  ("_type_query_call_expression", seq [
    part "function" queriedFunction, part "arguments" (ref "arguments")]),
  ("_type_query_instantiation_expression", seq [
    part "function" queriedFunction, part "type_arguments" (ref "type_arguments")]),
  ("type_query", groupRight (seq ["typeof",
    choice [
      queried "subscript_expression", queried "member_expression", queried "call_expression",
      queried "instantiation_expression", ref "identifier", ref "this"]])),
  ("index_type_query", seq ["keyof", ref "primary_type"]),
  ("lookup_type", groupLeft (seq [ref "primary_type", "[", ref "type", "]"])),
  ("mapped_type_clause", seq [
    part "name" (ref "_type_identifier"), "in", part "type" (ref "type"),
    maybe (seq ["as", part "alias" (ref "type")])])]

/-- Literals, objects, functions and combinations of types. -/
def compositeRules : List (String × Rule) := [
  ("literal_type", choice [
    named "unary_expression" (ref "_number"), ref "number", ref "string", ref "true",
    ref "false", ref "null", ref "undefined"]),
  ("_number", ranked (.level 1) (some .left) (seq [
    part "operator" (choice ["-", "+"]), part "argument" (ref "number")])),
  ("existential_type", "*"),
  ("flow_maybe_type", groupRight (seq ["?", ref "primary_type"])),
  ("parenthesized_type", seq ["(", ref "type", ")"]),
  ("predefined_type", choice [
    "any", "number", "boolean", "string", "symbol",
    renamed "unique symbol" false (seq ["unique", "symbol"]),
    "void", "unknown", "never", "object"]),
  ("type_arguments", seq ["<", commaSeparated (ref "type"), maybe ",", ">"]),
  ("object_type", seq [
    choice [openBrace, "\x7b|"],
    maybe (seq [
      maybe (choice [",", ";"]),
      separated (choice [",", ref "_semicolon"]) (choice [
        ref "export_statement", ref "property_signature", ref "call_signature",
        ref "construct_signature", ref "index_signature", ref "method_signature"]),
      maybe (choice [",", ref "_semicolon"])]),
    choice [closeBrace, "|\x7d"]]),
  ("call_signature", ref "_call_signature"),
  ("property_signature", seq (memberWords ++ [
    part "name" (ref "_property_name"), maybe "?", maybePart "type" "type_annotation"])),
  ("type_parameters", seq ["<", commaSeparated (ref "type_parameter"), maybe ",", ">"]),
  ("type_parameter", seq [maybe "const",
    part "name" (ref "_type_identifier"),
    maybePart "constraint" "constraint",
    maybePart "value" "default_type"]),
  ("default_type", seq ["=", ref "type"]),
  ("constraint", seq [choice ["extends", ":"], ref "type"]),
  ("construct_signature", seq [maybe "abstract", "new",
    maybePart "type_parameters" "type_parameters",
    part "parameters" (ref "formal_parameters"),
    maybePart "type" "type_annotation"]),
  ("index_signature", seq [
    maybe (seq [part "sign" (maybe (choice ["-", "+"])), "readonly"]),
    "[",
    choice [
      seq [
        part "name" (choice [
          ref "identifier", named "identifier" (ref "_reserved_identifier")]),
        ":",
        part "index_type" (ref "type")],
      ref "mapped_type_clause"],
    "]",
    part "type" (choice [
      ref "type_annotation", ref "omitting_type_annotation", ref "adding_type_annotation",
      ref "opting_type_annotation"])]),
  ("array_type", seq [ref "primary_type", "[", "]"]),
  ("tuple_type", seq ["[", maybe (commaSeparated (ref "_tuple_type_member")), maybe ",", "]"]),
  ("readonly_type", seq ["readonly", ref "type"]),
  ("union_type", groupLeft (seq [maybe (ref "type"), "|", ref "type"])),
  ("intersection_type", groupLeft (seq [maybe (ref "type"), "&", ref "type"])),
  ("function_type", groupLeft (seq [
    maybePart "type_parameters" "type_parameters",
    part "parameters" (ref "formal_parameters"),
    "=>",
    part "return_type" (choice [ref "type", ref "asserts", ref "type_predicate"])])),
  ("_type_identifier", named "type_identifier" (ref "identifier"))]

end ScopeExit.Grammar.TypeScript
