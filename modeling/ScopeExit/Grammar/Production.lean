import Std.Data.HashMap
import ScopeExit.Grammar.Rule
/-!
Productions: the rules of a grammar as sequences of symbols.

Repetitions become rules of their own, which stand for one element or for two repetitions.  Tokens
become terminal symbols; a rule that is nothing but a token used nowhere else gives the token its
name.  All other rules become nonterminal symbols with a production for each choice.
-/
namespace ScopeExit.Grammar

open Std (HashMap)

/-! ### Repetitions -/

/-- The repetitions that were found so far: their content, and the names of their rules. -/
abbrev Repetitions := List (Rule × String)

/-- A rule in which every repetition is replaced by the name of its rule.  Repetitions of the same
content share a rule; `name` and the number of repetitions found so far name a new one. -/
def Rule.lift (name : String) : Rule → Repetitions → Rule × Repetitions
  | .both a b, found =>
    let (a, found) := a.lift name found
    let (b, found) := b.lift name found
    (.both a b, found)
  | .either a b, found =>
    let (a, found) := a.lift name found
    let (b, found) := b.lift name found
    (.either a b, found)
  | .repeated r, found =>
    let (r, found) := r.lift name found
    match found.lookup r with
    | some known => (.ref known, found)
    | none =>
      let fresh := name ++ " " ++ Nat.repr found.length
      (.ref fresh, found ++ [(r, fresh)])
  | .part field r, found =>
    let (r, found) := r.lift name found
    (.part field r, found)
  | .renamed as isNamed r, found =>
    let (r, found) := r.lift name found
    (.renamed as isNamed r, found)
  | .ranked precedence side r, found =>
    let (r, found) := r.lift name found
    (.ranked precedence side r, found)
  | .weighted weight r, found =>
    let (r, found) := r.lift name found
    (.weighted weight r, found)
  | r, found => (r, found)

/-- The rules of a grammar without repetitions, and the rules of the repetitions. -/
def liftRules : List (String × Rule) → Repetitions → List (String × Rule) × Repetitions
  | [], found => ([], found)
  | (name, r) :: rest, found =>
    let (r, found) := r.lift name found
    let (rest, found) := liftRules rest found
    ((name, r) :: rest, found)

/-- The rule of a repetition. -/
def repetitionRule (content : Rule) (name : String) : String × Rule :=
  (name, .either (.both (.ref name) (.ref name)) content)

/-! ### Symbols -/

/-- A symbol, terminal or not, by its number. -/
abbrev Symbol := Nat

/-- What a terminal symbol matches. -/
inductive Terminal where
  /-- The end of the text. -/
  | finish
  | word (text : String)
  | lexeme (kind : Lexeme)
  | context (token : ContextToken)
  deriving DecidableEq

/-- How a symbol appears in a tree. -/
structure SymbolInfo where
  name : String
  isNamed : Bool := true
  /-- It leaves no node of its own. -/
  isHidden : Bool := false
  /-- It stands for a repetition. -/
  isRepetition : Bool := false
  deriving Inhabited

/-- The tokens of a rule in the order of their appearance, with repetitions. -/
def Rule.tokens : Rule → List Terminal
  | .word text => [.word text]
  | .lexeme kind => [.lexeme kind]
  | .both a b | .either a b => a.tokens ++ b.tokens
  | .repeated r | .part _ r | .renamed _ _ r | .ranked _ _ r | .weighted _ r => r.tokens
  | .blank | .ref _ => []

/-- The token that a rule is, if it is nothing else. -/
def Rule.token? : Rule → Option Terminal
  | .word text => some (.word text)
  | .lexeme kind => some (.lexeme kind)
  | _ => none

/-- Each element of a list once, in the order of the first appearances. -/
def distinct {α : Type} [BEq α] (xs : List α) : List α :=
  (xs.foldl (fun seen x => if seen.contains x then seen else x :: seen) []).reverse

/-- A token without a name of its own in a tree. -/
def Terminal.info : Terminal → SymbolInfo
  | .finish => { name := "end" }
  | .word text => { name := text, isNamed := false }
  | .lexeme .regexEnd => { name := "/", isNamed := false }
  | .lexeme _ => { name := "token", isNamed := false }
  | .context _ => { name := "token", isNamed := false }

/-- The rules of a grammar sorted into terminal and nonterminal symbols. -/
structure Alphabet where
  terminals : List Terminal
  /-- The names that rules give to tokens. -/
  tokenNames : List (String × Terminal)
  /-- The rules of the nonterminal symbols. -/
  rules : List (String × Rule)
  /-- The names of the rules that stand for repetitions. -/
  repetitions : List String

/-- The rules that are nothing but a token used nowhere else. -/
def tokenRules (rules : List (String × Rule)) (tokens : List Terminal) : List (String × Terminal) :=
  (rules.drop 1).filterMap fun (name, r) => do
    let t ← r.token?
    if tokens.count t = 1 then some (name, t) else none

/-- The alphabet of a grammar.  Names come first among the terminals. -/
def Alphabet.ofGrammar (g : Grammar) : Alphabet :=
  let (rules, found) := liftRules g.rules []
  let tokens := rules.flatMap fun (_, r) => r.tokens
  let tokenNames := tokenRules rules tokens
  let named := tokenNames.map Prod.fst
  { terminals :=
      distinct ([.finish, .lexeme .name] ++ tokens) ++ g.contextTokens.map fun (_, t) => .context t
    tokenNames := tokenNames ++ g.contextTokens.map fun (name, t) => (name, .context t)
    rules := rules.filter (fun (name, _) => !named.contains name) ++
      found.map fun (content, name) => repetitionRule content name
    repetitions := found.map Prod.snd }

/-- The appearance of the terminals. -/
def Alphabet.terminalInfo (a : Alphabet) (t : Terminal) : SymbolInfo :=
  match a.tokenNames.find? fun (_, u) => u == t with
  | some (name, _) => { name, isHidden := name.startsWith "_" }
  | none => t.info

/-- The appearance of all symbols. -/
def Alphabet.symbols (a : Alphabet) (g : Grammar) : Array SymbolInfo :=
  let rules := a.rules.map fun ((name, _) : String × Rule) =>
    let isRepetition := a.repetitions.contains name
    let isHidden := isRepetition || name.startsWith "_" || g.families.contains name
    ({ name, isRepetition, isHidden } : SymbolInfo)
  (a.terminals.map a.terminalInfo ++ rules).toArray

/-! ### Productions -/

/-- A symbol of a production with what the rule says about it. -/
structure Step where
  symbol : Symbol
  precedence : Precedence
  side : Option Side
  field : Option String
  /-- The name under which it appears, and whether that is a name or a plain token. -/
  renamed : Option (String × Bool)
  deriving DecidableEq, Hashable, Inhabited

/-- One choice of a nonterminal symbol. -/
structure Production where
  owner : Symbol
  weight : Int
  steps : List Step
  deriving DecidableEq, Hashable, Inhabited

/-- What the rules around a symbol say about it. -/
structure Surrounding where
  precedence : Precedence := .unstated
  side : Option Side := none
  field : Option String := none
  renamed : Option (String × Bool) := none

/-- A part of a production: its steps and its weight. -/
abbrev Draft := List Step × Int

/-- The weight that counts of two: the one further from zero. -/
def heavier (a b : Int) : Int := if b.natAbs > a.natAbs then b else a

/-- A list with another last element. -/
def modifyLast {α : Type} (f : α → α) : List α → List α
  | [] => []
  | [a] => [f a]
  | a :: rest => a :: modifyLast f rest

/-- A draft in which a rule with a strength is followed by others: what comes behind its last symbol
binds by the strength of the surrounding. -/
def Draft.followed (outer : Surrounding) (precedence : Precedence) (side : Option Side)
    (d : Draft) : Draft :=
  (modifyLast (fun s => { s with
    precedence := if precedence = .unstated then s.precedence else outer.precedence
    side := if side.isNone then s.side else outer.side }) d.1, d.2)

/-- The choices of a rule.  `token` and `ref` give the numbers of symbols; `isLast` says that nothing
follows the rule in the production. -/
def Rule.drafts (token : Terminal → Symbol) (ref : String → Symbol) (s : Surrounding)
    (isLast : Bool) : Rule → List Draft
  | .blank => [([], 0)]
  | .word text => [([⟨token (.word text), s.precedence, s.side, s.field, s.renamed⟩], 0)]
  | .lexeme kind => [([⟨token (.lexeme kind), s.precedence, s.side, s.field, s.renamed⟩], 0)]
  | .ref name => [([⟨ref name, s.precedence, s.side, s.field, s.renamed⟩], 0)]
  | .both a b =>
    let second := b.drafts token ref s isLast
    (a.drafts token ref s false).flatMap fun x =>
      second.map fun y => (x.1 ++ y.1, heavier x.2 y.2)
  | .either a b => a.drafts token ref s isLast ++ b.drafts token ref s isLast
  | .repeated r => r.drafts token ref s isLast
  | .part field r => r.drafts token ref { s with field := some field } isLast
  | .renamed name isNamed r => r.drafts token ref { s with renamed := some (name, isNamed) } isLast
  | .ranked precedence side r =>
    let inner := { s with
      precedence := if precedence = .unstated then s.precedence else precedence
      side := side.or s.side }
    let drafts := r.drafts token ref inner isLast
    if isLast then drafts else drafts.map (Draft.followed s precedence side)
  | .weighted weight r =>
    (r.drafts token ref s isLast).map fun d => (d.1, heavier weight d.2)

/-- The numbers of the names and tokens of an alphabet. -/
structure Numbering where
  tokens : List (Terminal × Symbol)
  names : HashMap String Symbol

/-- The numbering of an alphabet: terminals first. -/
def Alphabet.numbering (a : Alphabet) : Numbering :=
  let tokens := a.terminals.zipIdx
  let named := a.tokenNames.filterMap fun (name, t) => (tokens.lookup t).map fun n => (name, n)
  let count := a.terminals.length
  let ruled := a.rules.zipIdx.map fun ((name, _), i) => (name, count + i)
  ⟨tokens, HashMap.ofList (named ++ ruled)⟩

/-- The number of a token. -/
def Numbering.token (n : Numbering) (t : Terminal) : Symbol := (n.tokens.lookup t).getD 0

/-- The number of a name. -/
def Numbering.ref (n : Numbering) (name : String) : Symbol := n.names.getD name 0

/-- The productions of a rule. -/
def productionsOf (n : Numbering) (owner : Symbol) (r : Rule) : List Production :=
  (r.drafts n.token n.ref {} true).map fun (steps, weight) => ⟨owner, weight, steps⟩

/-- The productions of all rules, each once. -/
def Alphabet.productions (a : Alphabet) (n : Numbering) : List Production :=
  a.rules.flatMap fun (name, r) => productionsOf n (n.ref name) r

end ScopeExit.Grammar
