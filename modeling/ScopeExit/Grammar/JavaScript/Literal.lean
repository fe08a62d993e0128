import ScopeExit.Grammar.JavaScript.Expression
/-!
Literals, names, and the parts of calls, classes and patterns.
-/
namespace ScopeExit.Grammar.JavaScript

open Rule

/-- Literals and names. -/
def literalRules : List (String × Rule) := [
  ("string", choice [
    seq ["\"",
      many (choice [
        named "string_fragment" (ref "unescaped_double_string_fragment"), ref "escape_sequence"]),
      "\""],
    seq ["'",
      many (choice [
        named "string_fragment" (ref "unescaped_single_string_fragment"), ref "escape_sequence"]),
      "'"]]),
  ("unescaped_double_string_fragment", lexeme (.fragment '"')),
  ("unescaped_single_string_fragment", lexeme (.fragment '\'')),
  ("escape_sequence", lexeme .escape),
  ("comment", lexeme .comment),
  ("template_string", seq ["\x60",
    many (choice [
      named "string_fragment" (ref "_template_chars"), ref "escape_sequence",
      ref "template_substitution"]),
    "\x60"]),
  ("template_substitution", seq ["$\x7b", ref "_expressions", closeBrace]),
  ("regex", seq ["/",
    part "pattern" (ref "regex_pattern"),
    lexeme .regexEnd,
    maybe (part "flags" (ref "regex_flags"))]),
  ("regex_pattern", lexeme .regexBody),
  ("regex_flags", lexeme .regexFlags),
  ("number", lexeme .number),
  ("_identifier", choice [ref "undefined", ref "identifier"]),
  ("identifier", lexeme .name),
  ("private_property_identifier", lexeme .privateName),
  ("meta_property", choice [seq ["new", ".", "target"], seq ["import", ".", "meta"]]),
  ("this", "this"),
  ("super", "super"),
  ("true", "true"),
  ("false", "false"),
  ("null", "null"),
  ("undefined", "undefined")]

/-- The words in front of the name of a method. -/
def methodWords : Rule := maybe (choice ["get", "set", "*"])

/-- The parts of calls, classes and patterns. -/
def memberRules : List (String × Rule) := [
  ("arguments", seq ["(", commaList (choice [ref "expression", ref "spread_element"]), ")"]),
  ("decorator", seq ["@",
    choice [
      ref "identifier",
      named "member_expression" (ref "decorator_member_expression"),
      named "call_expression" (ref "decorator_call_expression")]]),
  ("decorator_member_expression", strong "member" (seq [
    part "object" (choice [
      ref "identifier", named "member_expression" (ref "decorator_member_expression")]),
    ".",
    part "property" (named "property_identifier" (ref "identifier"))])),
  ("decorator_call_expression", strong "call" (seq [
    part "function" (choice [
      ref "identifier", named "member_expression" (ref "decorator_member_expression")]),
    part "arguments" (ref "arguments")])),
  ("class_body", seq [openBrace,
    many (choice [
      seq [part "member" (ref "method_definition"), maybe ";"],
      seq [part "member" (ref "field_definition"), ref "_semicolon"],
      part "member" (ref "class_static_block"),
      ";"]),
    closeBrace]),
  ("field_definition", seq [
    many (part "decorator" (ref "decorator")), maybe "static",
    part "property" (ref "_property_name"),
    maybe (ref "_initializer")]),
  ("formal_parameters", seq ["(",
    maybe (seq [commaSeparated (ref "_formal_parameter"), maybe ","]), ")"]),
  ("class_static_block", seq ["static", part "body" (ref "statement_block")]),
  ("pattern", weighted (-1) (choice [ref "_lhs_expression", ref "rest_pattern"])),
  ("rest_pattern", groupRight (seq ["...", ref "_lhs_expression"])),
  ("method_definition", seq [
    many (part "decorator" (ref "decorator")),
    maybe (choice ["static", renamed "static get" false (lexeme .staticGet)]),
    maybe "async",
    methodWords,
    part "name" (ref "_property_name"),
    part "parameters" (ref "formal_parameters"),
    part "body" (ref "statement_block")]),
  ("pair", seq [part "key" (ref "_property_name"), ":", part "value" (ref "expression")]),
  ("pair_pattern", seq [part "key" (ref "_property_name"), ":",
    part "value" (choice [ref "pattern", ref "assignment_pattern"])]),
  ("_property_name", choice [
    named "property_identifier" anyName,
    ref "private_property_identifier", ref "string", ref "number", ref "computed_property_name"]),
  ("computed_property_name", seq ["[", ref "expression", "]"]),
  ("_reserved_identifier", choice ["get", "set", "async", "static", "export", "let"]),
  ("_semicolon", choice [ref "_automatic_semicolon", ";"])]

end ScopeExit.Grammar.JavaScript
