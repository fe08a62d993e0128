import ScopeExit.Grammar.LineEnd
import ScopeExit.Grammar.Tables
/-!
Tokens.

Which token stands at a place depends on what the parser expects there.  Tokens that depend on the
context go first; then come the lexemes that continue the token before them; then blanks are passed
over and the longest of the remaining tokens is taken.  A word of the grammar that is not expected is
a name.
-/
namespace ScopeExit.Grammar

open Std (HashMap)

/-- A token of a text. -/
structure Token where
  symbol : Symbol
  /-- The first byte. -/
  start : Nat
  /-- The place behind the token. -/
  behind : Place
  /-- It is a word that may also stand as a name. -/
  isKeyword : Bool := false

/-- The tokens of a language with their symbols. -/
structure Lexicon where
  language : Language
  /-- Tokens with a fixed spelling that is no name. -/
  marks : List (List Char × Symbol)
  keywords : HashMap String Symbol
  /-- Lexemes that continue the token before them. -/
  attached : List (Lexeme × Symbol)
  /-- The other lexemes, without names. -/
  detached : List (Lexeme × Symbol)
  context : List (ContextToken × Symbol)
  /-- The operator whose presence says that operators are expected. -/
  operator : Terminals
  /-- The lexemes among which blanks count. -/
  verbatim : Terminals
  deriving Inhabited

namespace Lexicon

/-- The symbol of names. -/
def name : Symbol := 1

/-- A spelling that is a name. -/
def isWord (chars : List Char) : Bool := startsWith isNameStart chars && chars.all isNamePart

/-- The lexicon of a language. -/
def ofTables (language : Language) (t : Tables) : Lexicon :=
  let terminals := t.terminals.toList.zipIdx
  let words := terminals.filterMap fun (t, s) =>
    match t with
    | .word text => some (text.toList, s)
    | _ => none
  let lexemes := terminals.filterMap fun (t, s) =>
    match t with
    | .lexeme .name => none
    | .lexeme kind => some (kind, s)
    | _ => none
  let only (p : Terminal → Bool) : Terminals :=
    terminals.foldl (fun set (t, s) => if p t then set ||| Terminals.single s else set) 0
  { language
    marks := words.filter fun (text, _) => !isWord text
    keywords := HashMap.ofList <| (words.filter fun (text, _) => isWord text).map fun (text, s) =>
      (String.ofList text, s)
    attached := lexemes.filter fun (kind, _) => kind.isAttached
    detached := lexemes.filter fun (kind, _) => !kind.isAttached
    context := terminals.filterMap fun (t, s) =>
      match t with
      | .context token => some (token, s)
      | _ => none
    operator := only (· == .word "||")
    verbatim := only fun t => t == .lexeme .escape || t == .lexeme .regexBody }

/-! ### Tokens that depend on the context -/

/-- The place behind the raw text of a template. -/
def templateText? : Bool → Nat → List Char → Option Place
  | found, offset, '$' :: '\x7b' :: rest =>
    if found then some ⟨offset, '$' :: '\x7b' :: rest⟩ else none
  | found, offset, c :: rest =>
    if isNull c then none
    else if c = '\x60' || c = '\\' then (if found then some ⟨offset, c :: rest⟩ else none)
    else templateText? true (offset + c.utf8Size) rest
  | _, _, [] => none

/-- The place behind the raw text between markup elements.  Line breaks and the blanks behind them are
no text of their own. -/
def markupText? : (found indented : Bool) → Nat → List Char → Option Place
  | found, indented, offset, c :: rest =>
    if isNull c || "<>\x7b\x7d&".toList.contains c then
      if found then some ⟨offset, c :: rest⟩ else none
    else
      let indented := c = '\n' || (indented && isSpace c)
      markupText? (found || !indented) indented (offset + c.utf8Size) rest
  | found, _, offset, [] => if found then some ⟨offset, []⟩ else none

/-- The places before and behind a comment in the style of markup, which runs to the end of its line.
-/
def markupComment? (here : Place) : Option (Place × Place) :=
  let first := here.pass isSpace
  if first.rest.take 4 == "<!--".toList || first.rest.take 3 == "-->".toList then
    some (first, first.pass fun c => !isLineBreak c && !isNull c)
  else none

variable (lex : Lexicon) (valid : Terminals)

/-- A token that depends on the context is expected. -/
def expects (t : ContextToken) : Bool :=
  match lex.context.lookup t with
  | some s => valid.has s
  | none => false

/-- A token that depends on the context. -/
def contextual (t : ContextToken) (start : Nat) (behind : Place) : Token :=
  ⟨(lex.context.lookup t).getD 0, start, behind, false⟩

/-- The question mark of a choice. -/
def choiceMark? (here : Place) : Option Token :=
  (questionMark? lex.language here).map fun (mark, behind) =>
    lex.contextual .questionMark mark.offset behind

/-- The end of a statement, or the question mark of a choice where the search for the end stopped. -/
def lineEnd? (size : Nat) (here : Place) : Option Token :=
  let signature := lex.expects valid .signatureEnd
  let e := LineEnd.search lex.language (valid &&& lex.operator != 0) signature size here
  if e.found then some (lex.contextual .lineEnd here.offset here)
  else if !e.reached.sawComment && lex.expects valid .questionMark && e.reached.place.has (· = '?')
  then lex.choiceMark? e.reached.place
  else none

/-- The token that depends on the context at a place. -/
def contextToken? (size : Nat) (here : Place) : Option Token :=
  if lex.expects valid .templateText then
    if lex.expects valid .lineEnd then none
    else
      (templateText? false here.offset here.rest).map
        (lex.contextual .templateText here.offset)
  else
    let text := if lex.expects valid .markupText then
        (markupText? false false here.offset here.rest).map (lex.contextual .markupText here.offset)
      else none
    if text.isSome then text
    else if lex.expects valid .lineEnd || lex.expects valid .signatureEnd then
      lex.lineEnd? valid size here
    else if lex.expects valid .questionMark then lex.choiceMark? here
    else if valid &&& (lex.operator ||| lex.verbatim) != 0 then none
    else
      (markupComment? here).map fun (first, behind) =>
        lex.contextual .markupComment first.offset behind

/-! ### Tokens that are spelled -/

/-- A token with the given spelling. -/
def spelled (here : Place) (symbol : Symbol) (s : Scanned) : Token :=
  ⟨symbol, here.offset, here.after s, false⟩

/-- The lexeme that continues the token before it. -/
def attached? (here : Place) : Option Token :=
  lex.attached.findSome? fun (kind, s) =>
    if valid.has s then (kind.scan here.rest).map (spelled here s) else none

/-- The name or the expected word at a place. -/
def word? (here : Place) : Option Token :=
  (scanName here.rest).bind fun (taken, rest) =>
    let keyword := match lex.keywords.get? (String.ofList taken) with
      | some s => if valid.has s then some s else none
      | none => none
    match keyword with
    | some s => some { spelled here s (taken, rest) with isKeyword := true }
    | none => if valid.has name then some (spelled here name (taken, rest)) else none

/-- The mark with the given spelling, if it stands at a place. -/
def mark? (here : Place) (text : List Char) (s : Symbol) : Option Token :=
  if text.isPrefixOf here.rest then some (spelled here s (text, here.rest.drop text.length))
  else none

/-- The tokens that stand at a place. -/
def candidates (here : Place) : List Token :=
  let marks := lex.marks.filterMap fun (text, s) =>
    if valid.has s then mark? here text s else none
  let lexemes := lex.detached.filterMap fun (kind, s) =>
    if valid.has s then (kind.scan here.rest).map (spelled here s) else none
  marks ++ (lex.word? valid here).toList ++ lexemes

/-- The longer of two tokens. -/
def longer (best : Option Token) (t : Token) : Option Token :=
  match best with
  | some b => if b.behind.offset < t.behind.offset then some t else best
  | none => some t

end Lexicon

/-- The token that the parser finds at a place where it expects some terminals, in a text of at most
`size` characters. -/
def Token.next? (lex : Lexicon) (size : Nat) (valid : Terminals) (here : Place) : Option Token :=
  match lex.contextToken? valid size here with
  | some t => some t
  | none =>
    match lex.attached? valid here with
    | some t => some t
    | none =>
      let first := here.pass isBlank
      if first.rest.isEmpty then some ⟨0, first.offset, first, false⟩
      else (lex.candidates valid first).foldl Lexicon.longer none

end ScopeExit.Grammar
