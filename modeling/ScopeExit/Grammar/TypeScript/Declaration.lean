import ScopeExit.Grammar.JavaScript.Literal
/-!
Declarations, classes and expressions of the language with types.
-/
namespace ScopeExit.Grammar.TypeScript

open Rule

/-- A part that may be missing. -/
def maybePart (field name : String) : Rule := part field (maybe (ref name))

/-- A name, or the word `type` used as one, in an import. -/
def importName : Rule := ref "_import_identifier"

/-- The words that mark an import or export of types. -/
def typeWords : Rule := maybe (choice ["type", "typeof"])

/-- Words that stand before the name of a member of a class or of an interface. -/
def memberWords : List Rule := [
  maybe (ref "accessibility_modifier"), maybe "static", maybe (ref "override_modifier"),
  maybe "readonly"]

/-- Rules that stand in the place of those of the language without types. -/
def changedRules : List (String × Rule) := [
  ("catch_clause", seq ["catch",
    maybe (seq ["(",
      part "parameter" (choice [ref "identifier", ref "_destructuring_pattern"]),
      maybe (part "type" (ref "type_annotation")), ")"]),
    part "body" (ref "statement_block")]),
  ("call_expression", choice [
    strong "call" (seq [
      part "function" (choice [ref "expression", ref "import"]),
      maybePart "type_arguments" "type_arguments",
      part "arguments" (ref "arguments")]),
    strong "template_call" (seq [
      part "function" (choice [ref "primary_expression", ref "new_expression"]),
      part "arguments" (ref "template_string")]),
    strong "member" (seq [
      part "function" (ref "primary_expression"), "?.",
      maybePart "type_arguments" "type_arguments",
      part "arguments" (ref "arguments")])]),
  ("new_expression", strongRight "new" (seq ["new",
    part "constructor" (ref "primary_expression"),
    maybePart "type_arguments" "type_arguments",
    maybePart "arguments" "arguments"])),
  ("assignment_expression", strongRight "assign" (seq [maybe "using",
    part "left" (choice [ref "parenthesized_expression", ref "_lhs_expression"]),
    "=",
    part "right" (ref "expression")])),
  ("expression", choice [
    ref "as_expression", ref "satisfies_expression", ref "instantiation_expression",
    ref "internal_module", ref "type_assertion", ref "primary_expression",
    ref "assignment_expression", ref "augmented_assignment_expression", ref "await_expression",
    ref "unary_expression", ref "binary_expression", ref "ternary_expression",
    ref "update_expression", ref "new_expression", ref "yield_expression"]),
  ("import_specifier", seq [typeWords,
    choice [
      part "name" importName,
      seq [
        part "name" (choice [ref "_module_export_name", wordAs "identifier" "type"]),
        "as",
        part "alias" importName]]]),
  ("import_clause", choice [
    ref "namespace_import",
    ref "named_imports",
    seq [importName,
      maybe (seq [",", choice [ref "namespace_import", ref "named_imports"]])]]),
  ("import_statement", seq ["import", typeWords,
    choice [
      seq [ref "import_clause", ref "_from_clause"],
      ref "import_require_clause",
      part "source" (ref "string")],
    maybe (ref "import_attribute"),
    ref "_semicolon"]),
  ("variable_declarator", choice [
    seq [
      part "name" (choice [ref "identifier", ref "_destructuring_pattern"]),
      maybePart "type" "type_annotation",
      maybe (ref "_initializer")],
    strong "declare" (seq [
      part "name" (ref "identifier"), "!", part "type" (ref "type_annotation")])]),
  ("parenthesized_expression", seq ["(",
    choice [
      seq [ref "expression", maybePart "type" "type_annotation"],
      ref "sequence_expression"],
    ")"]),
  ("_formal_parameter", choice [ref "required_parameter", ref "optional_parameter"]),
  ("decorator", seq ["@",
    choice [
      ref "identifier",
      named "member_expression" (ref "decorator_member_expression"),
      named "call_expression" (ref "decorator_call_expression"),
      named "parenthesized_expression" (ref "decorator_parenthesized_expression")]]),
  ("decorator_call_expression", strong "call" (seq [
    part "function" (choice [
      ref "identifier", named "member_expression" (ref "decorator_member_expression")]),
    maybe (part "type_arguments" (ref "type_arguments")),
    part "arguments" (ref "arguments")])),
  ("class_body", seq [openBrace,
    many (choice [
      seq [many (part "decorator" (ref "decorator")), ref "method_definition",
        maybe (ref "_semicolon")],
      seq [ref "method_signature", choice [ref "_function_signature_automatic_semicolon", ","]],
      ref "class_static_block",
      seq [
        choice [
          ref "abstract_method_signature", ref "index_signature", ref "method_signature",
          ref "public_field_definition"],
        choice [ref "_semicolon", ","]],
      ";"]),
    closeBrace]),
  ("method_definition", groupLeft (seq (memberWords ++ [
    maybe "async", JavaScript.methodWords,
    part "name" (ref "_property_name"), maybe "?",
    ref "_call_signature",
    part "body" (ref "statement_block")]))),
  ("class_heritage", choice [
    seq [ref "extends_clause", maybe (ref "implements_clause")],
    ref "implements_clause"]),
  ("class", strong "literal" (seq [
    many (part "decorator" (ref "decorator")), "class",
    part "name" (maybe (ref "_type_identifier")),
    maybePart "type_parameters" "type_parameters",
    maybe (ref "class_heritage"),
    part "body" (ref "class_body")])),
  ("class_declaration", strongLeft "declare" (seq [
    many (part "decorator" (ref "decorator")), "class",
    part "name" (ref "_type_identifier"),
    maybePart "type_parameters" "type_parameters",
    maybe (ref "class_heritage"),
    part "body" (ref "class_body"),
    maybe (ref "_automatic_semicolon")])),
  ("_call_signature", seq [
    maybePart "type_parameters" "type_parameters",
    part "parameters" (ref "formal_parameters"),
    part "return_type" (maybe (choice [
      ref "type_annotation", ref "asserts_annotation", ref "type_predicate_annotation"]))]),
  ("_reserved_identifier", choice [
    "declare", "namespace", "type", "public", "private", "protected", "override", "readonly",
    "module", "any", "number", "boolean", "string", "symbol", "export", "object", "new", "get",
    "set", "async", "static", "let"])]

/-- The declarations that join those of the language without types. -/
def moreDeclarations : Rule := choice [
  ref "function_signature", ref "abstract_class_declaration", ref "module",
  strong "declare" (ref "internal_module"), ref "type_alias_declaration", ref "enum_declaration",
  ref "interface_declaration", ref "import_alias", ref "ambient_declaration"]

/-- The exports that join those of the language without types. -/
def moreExports : Rule := choice [
  seq ["export", "type", ref "export_clause", maybe (ref "_from_clause"), ref "_semicolon"],
  seq ["export", "import", ref "import_alias"],
  seq ["export", "=", ref "expression", ref "_semicolon"],
  seq ["export", "as", "namespace", ref "identifier", ref "_semicolon"]]

/-- The words in front of a field of a class. -/
def fieldWords : List Rule := [
  maybe (choice [
    seq ["declare", maybe (ref "accessibility_modifier")],
    seq [ref "accessibility_modifier", maybe "declare"]]),
  choice [
    seq [maybe "static", maybe (ref "override_modifier"), maybe "readonly"],
    seq [maybe "abstract", maybe "readonly"],
    seq [maybe "readonly", maybe "abstract"],
    maybe "accessor"]]

/-- Rules of expressions and members that the language without types does not have. -/
def memberRules : List (String × Rule) := [
  ("public_field_definition", seq ([many (part "decorator" (ref "decorator"))] ++ fieldWords ++ [
    part "name" (ref "_property_name"),
    maybe (choice ["?", "!"]),
    maybePart "type" "type_annotation",
    maybe (ref "_initializer")])),
  ("_import_identifier", choice [ref "identifier", wordAs "identifier" "type"]),
  ("non_null_expression", strongLeft "unary" (seq [ref "expression", "!"])),
  ("method_signature", seq (memberWords ++ [
    maybe "async", JavaScript.methodWords,
    part "name" (ref "_property_name"), maybe "?",
    ref "_call_signature"])),
  ("abstract_method_signature", seq [
    maybe (ref "accessibility_modifier"), "abstract", maybe (ref "override_modifier"),
    JavaScript.methodWords,
    part "name" (ref "_property_name"), maybe "?",
    ref "_call_signature"]),
  ("function_signature", seq [maybe "async", "function",
    part "name" (ref "identifier"),
    ref "_call_signature",
    choice [ref "_semicolon", ref "_function_signature_automatic_semicolon"]]),
  ("decorator_parenthesized_expression", seq ["(",
    choice [
      ref "identifier",
      named "member_expression" (ref "decorator_member_expression"),
      named "call_expression" (ref "decorator_call_expression")],
    ")"]),
  ("type_assertion", strongLeft "unary" (seq [ref "type_arguments", ref "expression"])),
  ("as_expression", strongLeft "binary" (seq [
    ref "expression", "as", choice ["const", ref "type"]])),
  ("satisfies_expression", strongLeft "binary" (seq [ref "expression", "satisfies", ref "type"])),
  ("instantiation_expression", strong "instantiation" (seq [
    ref "expression", part "type_arguments" (ref "type_arguments")]))]

/-- Rules of declarations that the language without types does not have. -/
def declarationRules : List (String × Rule) := [
  ("import_require_clause", seq [
    ref "identifier", "=", "require", "(", part "source" (ref "string"), ")"]),
  ("extends_clause", seq ["extends", commaSeparated (ref "_extends_clause_single")]),
  ("_extends_clause_single", strong "extends" (seq [
    part "value" (ref "expression"), maybePart "type_arguments" "type_arguments"])),
  ("implements_clause", seq ["implements", commaSeparated (ref "type")]),
  ("ambient_declaration", seq ["declare",
    choice [
      ref "declaration",
      seq ["global", ref "statement_block"],
      seq ["module", ".", named "property_identifier" (ref "identifier"), ":", ref "type",
        ref "_semicolon"]]]),
  ("abstract_class_declaration", strong "declare" (seq [
    many (part "decorator" (ref "decorator")), "abstract", "class",
    part "name" (ref "_type_identifier"),
    maybePart "type_parameters" "type_parameters",
    maybe (ref "class_heritage"),
    part "body" (ref "class_body")])),
  ("module", seq ["module", ref "_module"]),
  ("internal_module", seq ["namespace", ref "_module"]),
  ("_module", groupRight (seq [
    part "name" (choice [ref "string", ref "identifier", ref "nested_identifier"]),
    maybePart "body" "statement_block"])),
  ("import_alias", seq ["import", ref "identifier", "=",
    choice [ref "identifier", ref "nested_identifier"], ref "_semicolon"]),
  ("nested_type_identifier", strong "member" (seq [
    part "module" (choice [ref "identifier", ref "nested_identifier"]), ".",
    part "name" (ref "_type_identifier")])),
  ("interface_declaration", seq ["interface",
    part "name" (ref "_type_identifier"),
    maybePart "type_parameters" "type_parameters",
    maybe (ref "extends_type_clause"),
    part "body" (named "interface_body" (ref "object_type"))]),
  ("extends_type_clause", seq ["extends",
    commaSeparated (part "type" (choice [
      ref "_type_identifier", ref "nested_type_identifier", ref "generic_type"]))]),
  ("enum_declaration", seq [maybe "const", "enum",
    part "name" (ref "identifier"), part "body" (ref "enum_body")]),
  ("enum_body", seq [openBrace,
    maybe (seq [
      commaSeparated (choice [part "name" (ref "_property_name"), ref "enum_assignment"]),
      maybe ","]),
    closeBrace]),
  ("enum_assignment", seq [part "name" (ref "_property_name"), ref "_initializer"]),
  ("type_alias_declaration", seq ["type",
    part "name" (ref "_type_identifier"),
    maybePart "type_parameters" "type_parameters",
    "=",
    part "value" (ref "type"),
    ref "_semicolon"]),
  ("accessibility_modifier", choice ["public", "private", "protected"]),
  ("override_modifier", "override"),
  ("required_parameter", seq [ref "_parameter_name",
    maybePart "type" "type_annotation", maybe (ref "_initializer")]),
  ("optional_parameter", seq [ref "_parameter_name", "?",
    maybePart "type" "type_annotation", maybe (ref "_initializer")]),
  ("_parameter_name", seq [
    many (part "decorator" (ref "decorator")),
    maybe (ref "accessibility_modifier"), maybe (ref "override_modifier"), maybe "readonly",
    part "pattern" (choice [ref "pattern", ref "this"])])]

end ScopeExit.Grammar.TypeScript
