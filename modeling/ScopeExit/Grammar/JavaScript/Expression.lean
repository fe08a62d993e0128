import ScopeExit.Grammar.Rule
/-!
Expressions of the language without types.
-/
namespace ScopeExit.Grammar.JavaScript

open Rule

/-- A name, or a word of the language that may be one. -/
def anyName : Rule := choice [ref "identifier", ref "_reserved_identifier"]

/-- The families of expressions, objects and arrays. -/
def expressionRules : List (String × Rule) := [
  ("parenthesized_expression", seq ["(", ref "_expressions", ")"]),
  ("_expressions", choice [ref "expression", ref "sequence_expression"]),
  ("expression", choice [
    ref "primary_expression", ref "_jsx_element", ref "assignment_expression",
    ref "augmented_assignment_expression", ref "await_expression", ref "unary_expression",
    ref "binary_expression", ref "ternary_expression", ref "update_expression",
    ref "new_expression", ref "yield_expression"]),
  ("primary_expression", choice [
    ref "subscript_expression", ref "member_expression", ref "parenthesized_expression",
    ref "_identifier", named "identifier" (ref "_reserved_identifier"), ref "this", ref "super",
    ref "number", ref "string", ref "template_string", ref "regex", ref "true", ref "false",
    ref "null", ref "object", ref "array", ref "function_expression", ref "arrow_function",
    ref "generator_function", ref "class", ref "meta_property", ref "call_expression"]),
  ("yield_expression", groupRight (seq ["yield",
    choice [seq ["*", ref "expression"], maybe (ref "expression")]])),
  ("object", strong "object" (seq [openBrace,
    commaList (choice [
      ref "pair", ref "spread_element", ref "method_definition",
      named "shorthand_property_identifier" anyName]),
    closeBrace])),
  ("object_pattern", strong "object" (seq [openBrace,
    commaList (choice [
      ref "pair_pattern", ref "rest_pattern", ref "object_assignment_pattern",
      named "shorthand_property_identifier_pattern" anyName]),
    closeBrace])),
  ("assignment_pattern", seq [part "left" (ref "pattern"), "=", part "right" (ref "expression")]),
  ("object_assignment_pattern", seq [
    part "left" (choice [
      named "shorthand_property_identifier_pattern"
        (choice [ref "_reserved_identifier", ref "identifier"]),
      ref "_destructuring_pattern"]),
    "=",
    part "right" (ref "expression")]),
  ("array", seq ["[", commaList (choice [ref "expression", ref "spread_element"]), "]"]),
  ("array_pattern", seq ["[", commaList (choice [ref "pattern", ref "assignment_pattern"]), "]"])]

/-- Markup elements inside expressions. -/
def markupRules : List (String × Rule) := [
  ("_jsx_element", choice [ref "jsx_element", ref "jsx_self_closing_element"]),
  ("jsx_element", seq [
    part "open_tag" (ref "jsx_opening_element"),
    many (ref "_jsx_child"),
    part "close_tag" (ref "jsx_closing_element")]),
  ("html_character_reference", lexeme .reference),
  ("jsx_expression", seq [openBrace,
    maybe (choice [ref "expression", ref "sequence_expression", ref "spread_element"]),
    closeBrace]),
  ("_jsx_child", choice [
    ref "jsx_text", ref "html_character_reference", ref "_jsx_element", ref "jsx_expression"]),
  ("jsx_opening_element", weighted (-1) (seq ["<",
    maybe (seq [
      part "name" (ref "_jsx_element_name"),
      many (part "attribute" (ref "_jsx_attribute"))]),
    ">"])),
  ("jsx_identifier", lexeme .tagName),
  ("_jsx_identifier", choice [named "identifier" (ref "jsx_identifier"), ref "identifier"]),
  ("nested_identifier", strong "member" (seq [
    part "object" (choice [
      ref "identifier", named "member_expression" (ref "nested_identifier")]),
    ".",
    part "property" (named "property_identifier" (ref "identifier"))])),
  ("jsx_namespace_name", seq [ref "_jsx_identifier", ":", ref "_jsx_identifier"]),
  ("_jsx_element_name", choice [
    ref "_jsx_identifier", named "member_expression" (ref "nested_identifier"),
    ref "jsx_namespace_name"]),
  ("jsx_closing_element", seq ["</", maybe (part "name" (ref "_jsx_element_name")), ">"]),
  ("jsx_self_closing_element", seq ["<",
    part "name" (ref "_jsx_element_name"),
    many (part "attribute" (ref "_jsx_attribute")),
    "/>"]),
  ("_jsx_attribute", choice [ref "jsx_attribute", ref "jsx_expression"]),
  ("_jsx_attribute_name", choice [
    named "property_identifier" (ref "_jsx_identifier"), ref "jsx_namespace_name"]),
  ("jsx_attribute", seq [ref "_jsx_attribute_name", maybe (seq ["=", ref "_jsx_attribute_value"])]),
  ("_jsx_string", choice [
    seq ["\"",
      many (choice [
        named "string_fragment" (ref "unescaped_double_jsx_string_fragment"),
        ref "html_character_reference"]),
      "\""],
    seq ["'",
      many (choice [
        named "string_fragment" (ref "unescaped_single_jsx_string_fragment"),
        ref "html_character_reference"]),
      "'"]]),
  ("unescaped_double_jsx_string_fragment", lexeme (.attributeText '"')),
  ("unescaped_single_jsx_string_fragment", lexeme (.attributeText '\'')),
  ("_jsx_attribute_value", choice [
    named "string" (ref "_jsx_string"), ref "jsx_expression", ref "_jsx_element"])]

/-- Classes and functions. -/
def functionRules : List (String × Rule) := [
  ("class", strong "literal" (seq [
    many (part "decorator" (ref "decorator")), "class",
    part "name" (maybe (ref "identifier")),
    maybe (ref "class_heritage"),
    part "body" (ref "class_body")])),
  ("class_declaration", strong "declare" (seq [
    many (part "decorator" (ref "decorator")), "class",
    part "name" (ref "identifier"),
    maybe (ref "class_heritage"),
    part "body" (ref "class_body"),
    maybe (ref "_automatic_semicolon")])),
  ("class_heritage", seq ["extends", ref "expression"]),
  ("function_expression", strong "literal" (seq [maybe "async", "function",
    part "name" (maybe (ref "identifier")),
    ref "_call_signature",
    part "body" (ref "statement_block")])),
  ("function_declaration", strongRight "declare" (seq [maybe "async", "function",
    part "name" (ref "identifier"),
    ref "_call_signature",
    part "body" (ref "statement_block"),
    maybe (ref "_automatic_semicolon")])),
  ("generator_function", strong "literal" (seq [maybe "async", "function", "*",
    part "name" (maybe (ref "identifier")),
    ref "_call_signature",
    part "body" (ref "statement_block")])),
  ("generator_function_declaration", strongRight "declare" (seq [maybe "async", "function", "*",
    part "name" (ref "identifier"),
    ref "_call_signature",
    part "body" (ref "statement_block"),
    maybe (ref "_automatic_semicolon")])),
  ("arrow_function", seq [maybe "async",
    choice [
      part "parameter" (choice [
        named "identifier" (ref "_reserved_identifier"), ref "identifier"]),
      ref "_call_signature"],
    "=>",
    part "body" (choice [ref "expression", ref "statement_block"])]),
  ("_call_signature", part "parameters" (ref "formal_parameters")),
  ("_formal_parameter", choice [ref "pattern", ref "assignment_pattern"])]

/-- The operators of two operands with their strengths.  Only powers group to the right. -/
def binaryOperators : List (String × String) := [
  ("&&", "logical_and"), ("||", "logical_or"), (">>", "binary_shift"), (">>>", "binary_shift"),
  ("<<", "binary_shift"), ("&", "bitwise_and"), ("^", "bitwise_xor"), ("|", "bitwise_or"),
  ("+", "binary_plus"), ("-", "binary_plus"), ("*", "binary_times"), ("/", "binary_times"),
  ("%", "binary_times"), ("**", "binary_exp"), ("<", "binary_relation"),
  ("<=", "binary_relation"), ("==", "binary_equality"), ("===", "binary_equality"),
  ("!=", "binary_equality"), ("!==", "binary_equality"), (">=", "binary_relation"),
  (">", "binary_relation"), ("??", "ternary"), ("instanceof", "binary_relation"),
  ("in", "binary_relation")]

/-- The rule of an operator of two operands. -/
def binaryRule (operator strength : String) : Rule :=
  let left :=
    if operator == "in" then choice [ref "expression", ref "private_property_identifier"]
    else ref "expression"
  let body := seq [
    part "left" left, part "operator" (.word operator), part "right" (ref "expression")]
  if operator == "**" then strongRight strength body else strongLeft strength body

/-- Operators, calls and assignments. -/
def operatorRules : List (String × Rule) := [
  ("optional_chain", "?."),
  ("call_expression", choice [
    strong "call" (seq [
      part "function" (choice [ref "expression", ref "import"]),
      part "arguments" (ref "arguments")]),
    strong "template_call" (seq [
      part "function" (choice [ref "primary_expression", ref "new_expression"]),
      part "arguments" (ref "template_string")]),
    strong "member" (seq [
      part "function" (ref "primary_expression"),
      part "optional_chain" (ref "optional_chain"),
      part "arguments" (ref "arguments")])]),
  ("new_expression", strongRight "new" (seq ["new",
    part "constructor" (choice [ref "primary_expression", ref "new_expression"]),
    part "arguments" (maybe (weighted 1 (ref "arguments")))])),
  ("await_expression", strong "unary_void" (seq ["await", ref "expression"])),
  ("member_expression", strong "member" (seq [
    part "object" (choice [ref "expression", ref "primary_expression", ref "import"]),
    choice [".", part "optional_chain" (ref "optional_chain")],
    part "property" (choice [
      ref "private_property_identifier", named "property_identifier" (ref "identifier")])])),
  ("subscript_expression", strongRight "member" (seq [
    part "object" (choice [ref "expression", ref "primary_expression"]),
    maybe (part "optional_chain" (ref "optional_chain")),
    "[", part "index" (ref "_expressions"), "]"])),
  ("_lhs_expression", choice [
    ref "member_expression", ref "subscript_expression", ref "_identifier",
    named "identifier" (ref "_reserved_identifier"), ref "_destructuring_pattern"]),
  ("assignment_expression", strongRight "assign" (seq [
    part "left" (choice [ref "parenthesized_expression", ref "_lhs_expression"]),
    "=",
    part "right" (ref "expression")])),
  ("_augmented_assignment_lhs", choice [
    ref "member_expression", ref "subscript_expression",
    named "identifier" (ref "_reserved_identifier"), ref "identifier",
    ref "parenthesized_expression"]),
  ("augmented_assignment_expression", strongRight "assign" (seq [
    part "left" (ref "_augmented_assignment_lhs"),
    part "operator" (choice ["+=", "-=", "*=", "/=", "%=", "^=", "&=", "|=", ">>=", ">>>=", "<<=",
      "**=", "&&=", "||=", "??="]),
    part "right" (ref "expression")])),
  ("_initializer", seq ["=", part "value" (ref "expression")]),
  ("_destructuring_pattern", choice [ref "object_pattern", ref "array_pattern"]),
  ("spread_element", seq ["...", ref "expression"]),
  ("ternary_expression", strongRight "ternary" (seq [
    part "condition" (ref "expression"),
    renamed "?" false (ref "_ternary_qmark"),
    part "consequence" (ref "expression"),
    ":",
    part "alternative" (ref "expression")])),
  ("binary_expression", choice (binaryOperators.map fun (operator, strength) =>
    binaryRule operator strength)),
  ("unary_expression", strongLeft "unary_void" (seq [
    part "operator" (choice ["!", "~", "-", "+", "typeof", "void", "delete"]),
    part "argument" (ref "expression")])),
  ("update_expression", groupLeft (choice [
    seq [part "argument" (ref "expression"), part "operator" (choice ["++", "--"])],
    seq [part "operator" (choice ["++", "--"]), part "argument" (ref "expression")]])),
  ("sequence_expression", groupRight (commaSeparated (ref "expression")))]

end ScopeExit.Grammar.JavaScript
