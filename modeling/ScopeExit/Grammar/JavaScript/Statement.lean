import ScopeExit.Grammar.Rule
/-!
Statements of the language without types.
-/
namespace ScopeExit.Grammar.JavaScript

open Rule

/-- Programs, modules and their parts. -/
def moduleRules : List (String × Rule) := [
  ("program", seq [maybe (ref "hash_bang_line"), many (ref "statement")]),
  ("hash_bang_line", lexeme .runLine),
  ("export_statement", choice [
    seq ["export",
      choice [
        seq ["*", ref "_from_clause"],
        seq [ref "namespace_export", ref "_from_clause"],
        seq [ref "export_clause", ref "_from_clause"],
        ref "export_clause"],
      ref "_semicolon"],
    seq [many (part "decorator" (ref "decorator")), "export",
      choice [
        part "declaration" (ref "declaration"),
        seq ["default",
          choice [
            part "declaration" (ref "declaration"),
            seq [part "value" (ref "expression"), ref "_semicolon"]]]]]]),
  ("namespace_export", seq ["*", "as", ref "_module_export_name"]),
  ("export_clause", seq [openBrace,
    maybe (commaSeparated (ref "export_specifier")), maybe ",", closeBrace]),
  ("export_specifier", seq [
    part "name" (ref "_module_export_name"),
    maybe (seq ["as", part "alias" (ref "_module_export_name")])]),
  ("_module_export_name", choice [ref "identifier", ref "string", "default"]),
  ("declaration", choice [
    ref "function_declaration", ref "generator_function_declaration", ref "class_declaration",
    ref "lexical_declaration", ref "variable_declaration"]),
  ("import", "import"),
  ("import_statement", seq ["import",
    choice [
      seq [ref "import_clause", ref "_from_clause"],
      part "source" (ref "string")],
    maybe (ref "import_attribute"),
    ref "_semicolon"]),
  ("import_clause", choice [
    ref "namespace_import",
    ref "named_imports",
    seq [ref "identifier",
      maybe (seq [",", choice [ref "namespace_import", ref "named_imports"]])]]),
  ("_from_clause", seq ["from", part "source" (ref "string")]),
  ("namespace_import", seq ["*", "as", ref "identifier"]),
  ("named_imports", seq [openBrace,
    maybe (commaSeparated (ref "import_specifier")), maybe ",", closeBrace]),
  ("import_specifier", choice [
    part "name" (ref "identifier"),
    seq [part "name" (ref "_module_export_name"), "as", part "alias" (ref "identifier")]]),
  ("import_attribute", seq ["with", ref "object"])]

/-- Statements. -/
def statementRules : List (String × Rule) := [
  ("statement", choice [
    ref "export_statement", ref "import_statement", ref "debugger_statement",
    ref "expression_statement", ref "declaration", ref "statement_block", ref "if_statement",
    ref "switch_statement", ref "for_statement", ref "for_in_statement", ref "while_statement",
    ref "do_statement", ref "try_statement", ref "with_statement", ref "break_statement",
    ref "continue_statement", ref "return_statement", ref "throw_statement",
    ref "empty_statement", ref "labeled_statement"]),
  ("expression_statement", seq [ref "_expressions", ref "_semicolon"]),
  ("variable_declaration", seq ["var", commaSeparated (ref "variable_declarator"), ref "_semicolon"]),
  ("lexical_declaration", seq [
    part "kind" (choice ["let", "const"]),
    commaSeparated (ref "variable_declarator"),
    ref "_semicolon"]),
  ("variable_declarator", seq [
    part "name" (choice [ref "identifier", ref "_destructuring_pattern"]),
    maybe (ref "_initializer")]),
  ("statement_block", groupRight (seq [
    openBrace, many (ref "statement"), closeBrace, maybe (ref "_automatic_semicolon")])),
  ("else_clause", seq ["else", ref "statement"]),
  ("if_statement", groupRight (seq ["if",
    part "condition" (ref "parenthesized_expression"),
    part "consequence" (ref "statement"),
    maybe (part "alternative" (ref "else_clause"))])),
  ("switch_statement", seq ["switch",
    part "value" (ref "parenthesized_expression"),
    part "body" (ref "switch_body")]),
  ("for_statement", seq ["for", "(",
    choice [
      part "initializer" (choice [ref "lexical_declaration", ref "variable_declaration"]),
      seq [part "initializer" (ref "_expressions"), ";"],
      part "initializer" (ref "empty_statement")],
    choice [
      seq [part "condition" (ref "_expressions"), ";"],
      part "condition" (ref "empty_statement")],
    part "increment" (maybe (ref "_expressions")),
    ")",
    part "body" (ref "statement")]),
  ("for_in_statement", seq ["for", maybe "await", ref "_for_header", part "body" (ref "statement")]),
  ("_for_header", seq ["(",
    choice [
      part "left" (choice [ref "_lhs_expression", ref "parenthesized_expression"]),
      seq [part "kind" "var",
        part "left" (choice [ref "identifier", ref "_destructuring_pattern"]),
        maybe (ref "_initializer")],
      seq [part "kind" (choice ["let", "const"]),
        part "left" (choice [ref "identifier", ref "_destructuring_pattern"]),
        maybe (ref "_automatic_semicolon")]],
    part "operator" (choice ["in", "of"]),
    part "right" (ref "_expressions"),
    ")"]),
  ("while_statement", seq ["while",
    part "condition" (ref "parenthesized_expression"), part "body" (ref "statement")]),
  ("do_statement", groupRight (seq ["do", part "body" (ref "statement"), "while",
    part "condition" (ref "parenthesized_expression"), maybe (ref "_semicolon")])),
  ("try_statement", seq ["try", part "body" (ref "statement_block"),
    maybe (part "handler" (ref "catch_clause")),
    maybe (part "finalizer" (ref "finally_clause"))]),
  ("with_statement", seq ["with",
    part "object" (ref "parenthesized_expression"), part "body" (ref "statement")]),
  ("break_statement", seq ["break",
    part "label" (maybe (named "statement_identifier" (ref "identifier"))), ref "_semicolon"]),
  ("continue_statement", seq ["continue",
    part "label" (maybe (named "statement_identifier" (ref "identifier"))), ref "_semicolon"]),
  ("debugger_statement", seq ["debugger", ref "_semicolon"]),
  ("return_statement", seq ["return", maybe (ref "_expressions"), ref "_semicolon"]),
  ("throw_statement", seq ["throw", ref "_expressions", ref "_semicolon"]),
  ("empty_statement", ";"),
  ("labeled_statement", weighted (-1) (seq [
    part "label" (named "statement_identifier" (choice [
      ref "identifier", ref "_reserved_identifier"])),
    ":",
    part "body" (ref "statement")])),
  ("switch_body", seq [
    openBrace, many (choice [ref "switch_case", ref "switch_default"]), closeBrace]),
  ("switch_case", seq ["case", part "value" (ref "_expressions"), ":",
    part "body" (many (ref "statement"))]),
  ("switch_default", seq ["default", ":", part "body" (many (ref "statement"))]),
  ("catch_clause", seq ["catch",
    maybe (seq ["(",
      part "parameter" (choice [ref "identifier", ref "_destructuring_pattern"]), ")"]),
    part "body" (ref "statement_block")]),
  ("finally_clause", seq ["finally", part "body" (ref "statement_block")])]

end ScopeExit.Grammar.JavaScript
