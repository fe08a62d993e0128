import ScopeExit.Grammar.Reading
import ScopeExit.Grammar.TypeScript
import ScopeExit.Source.Lowering
/-!
Programs: from a source text to its concrete syntax tree, and on to its program tree.
-/
namespace ScopeExit

namespace Grammar

/-- The grammar of a language. -/
def ofLanguage : Language → Grammar
  | .javascript => javascript
  | .typescript => typescript

/-- A grammar prepared for reading texts. -/
structure Prepared where
  tables : Tables
  lexicon : Lexicon
  deriving Inhabited

/-- The prepared grammar of a language. -/
def prepare (language : Language) : Prepared :=
  let tables := Tables.ofGrammar (ofLanguage language)
  { tables, lexicon := .ofTables language tables }

/-- The language without types, prepared when it is first needed. -/
def preparedJavaScript : Thunk Prepared := Thunk.mk fun _ => prepare .javascript

/-- The language with types, prepared when it is first needed. -/
def preparedTypeScript : Thunk Prepared := Thunk.mk fun _ => prepare .typescript

/-- The prepared grammar of a language. -/
def prepared : Language → Prepared
  | .javascript => preparedJavaScript.get
  | .typescript => preparedTypeScript.get

end Grammar

open Grammar

/-- The concrete syntax tree of a source text, if it is well-formed. -/
def SourceNode.ofText? (language : Language) (text : String) : Option SourceNode :=
  let p := prepared language
  (Derivation.ofText? p.tables p.lexicon text.toList).bind (Derivation.toSource? p.tables)

/-- The program tree of a source text. -/
def Node.ofText (language : Language) (text : String) : Lowered Node :=
  match SourceNode.ofText? language text with
  | some root => root.lower (Source.ofString text) language
  | none =>
    .error (.single (.contract (.source (.malformed (Text.ofString language.name)) .unknown)))

end ScopeExit
