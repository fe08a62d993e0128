import ScopeExit.Grammar.Lexeme
/-!
Rules of a grammar.

A rule says what stands in its place: a token, another rule by its name, or rules put together.  On
top of that it says how the tree is built: which part a child plays in its parent, under which name
a child appears, and how strongly the parts of a rule hold together where several readings of a text
are possible.

A rule whose name starts with an underscore leaves no node of its own: its parts become parts of the
node around it.
-/
namespace ScopeExit

namespace Grammar

/-- How strongly a rule binds: not at all, by a number, or by a name that is ordered among others. -/
inductive Precedence where
  | unstated
  | level (n : Int)
  | named (name : String)
  deriving DecidableEq, Hashable, Inhabited

/-- The side on which equally strong rules are grouped first. -/
inductive Side where
  | left | right
  deriving DecidableEq, Hashable

/-- What may stand in the place of a rule. -/
inductive Rule where
  /-- Nothing. -/
  | blank
  /-- A token with a fixed spelling. -/
  | word (text : String)
  /-- A token of a class. -/
  | lexeme (kind : Lexeme)
  /-- What the rule of the given name says. -/
  | ref (name : String)
  | both (first second : Rule)
  | either (first second : Rule)
  /-- One or more of the same. -/
  | repeated (body : Rule)
  /-- The body plays a part in the node around it. -/
  | part (field : String) (body : Rule)
  /-- The body appears under another name, as a node with a name or as a plain token. -/
  | renamed (name : String) (isNamed : Bool) (body : Rule)
  /-- The body binds with the given strength. -/
  | ranked (precedence : Precedence) (side : Option Side) (body : Rule)
  /-- A reading of the text with this body is preferred by the given weight. -/
  | weighted (weight : Int) (body : Rule)
  deriving DecidableEq

instance : Coe String Rule := ⟨.word⟩

namespace Rule

/-- One after the other. -/
def seq : List Rule → Rule
  | [] => .blank
  | [r] => r
  | r :: rest => .both r (seq rest)

/-- One of several. -/
def choice : List Rule → Rule
  | [] => .blank
  | [r] => r
  | r :: rest => .either r (choice rest)

/-- The rule or nothing. -/
def maybe (r : Rule) : Rule := .either r .blank

/-- Any number of the same. -/
def many (r : Rule) : Rule := .either (.repeated r) .blank

/-- At least one, with separators between them. -/
def separated (separator r : Rule) : Rule := .both r (many (.both separator r))

/-- At least one, with commas between them. -/
def commaSeparated (r : Rule) : Rule := separated "," r

/-- Items with commas between them, where items may be missing. -/
def commaList (r : Rule) : Rule := maybe (commaSeparated (maybe r))

/-- The opening brace. -/
def openBrace : Rule := "\x7b"

/-- The closing brace. -/
def closeBrace : Rule := "\x7d"

/-- A named part of a rule that may be missing. -/
def named (name : String) (r : Rule) : Rule := .renamed name true r

/-- A rule that binds by a named strength. -/
def strong (name : String) (r : Rule) : Rule := .ranked (.named name) none r

/-- A rule that binds by a named strength and groups to the left. -/
def strongLeft (name : String) (r : Rule) : Rule := .ranked (.named name) (some .left) r

/-- A rule that binds by a named strength and groups to the right. -/
def strongRight (name : String) (r : Rule) : Rule := .ranked (.named name) (some .right) r

/-- A token that appears under the name of another rule. -/
def wordAs (name text : String) : Rule := .renamed name true (.word text)

/-- A rule that groups to the left. -/
def groupLeft (r : Rule) : Rule := .ranked (.level 0) (some .left) r

/-- A rule that groups to the right. -/
def groupRight (r : Rule) : Rule := .ranked (.level 0) (some .right) r

end Rule

/-- An entry of an order of strengths: a strength by its name, or all rules without a stated
strength that build a node of the given name. -/
inductive Rank where
  | strength (name : String)
  | rule (name : String)

/-- Tokens that a spelling does not decide: whether one stands at a place depends on what the parser
expects there. -/
inductive ContextToken where
  /-- A semicolon that is left out. -/
  | lineEnd
  /-- Raw text of a template. -/
  | templateText
  /-- The question mark of a choice. -/
  | questionMark
  /-- A comment in the style of markup. -/
  | markupComment
  /-- Raw text between markup elements. -/
  | markupText
  /-- The end of a function that is declared without a body. -/
  | signatureEnd
  deriving DecidableEq

end Grammar

open Grammar

/-- A grammar.  Its first rule is the one of whole programs. -/
structure Grammar where
  rules : List (String × Rule)
  /-- The tokens that depend on the context, by their names. -/
  contextTokens : List (String × ContextToken)
  /-- The tokens that may stand everywhere. -/
  extras : List String
  /-- Rules that stand for one of several others and leave no node of their own. -/
  families : List String
  /-- Rules that are put in the place of their name. -/
  inlined : List String
  /-- Orders of strengths, strongest first. -/
  orders : List (List Rank)

end ScopeExit
