import ScopeExit.Grammar.Production
/-!
Tables: what a grammar says about its productions taken together.

An item is a production with a place in it, up to which a text has been read.  Two items that go on in
the same way and build the same node are one, whatever they have read.  The tables hold the items,
what each nonterminal symbol may start with, and which items a symbol leads to where a nonterminal
symbol is expected.
-/
namespace ScopeExit.Grammar

open Std (HashMap)

/-! ### Sets of terminals -/

/-- A set of terminal symbols: one bit for each. -/
abbrev Terminals := Nat

/-- The set of one terminal. -/
def Terminals.single (t : Symbol) : Terminals := 1 <<< t

/-- A terminal is in a set. -/
def Terminals.has (s : Terminals) (t : Symbol) : Bool := s.testBit t

theorem Terminals.has_single (s t : Symbol) : (single t).has s = decide (s = t) := by
  simp [single, has, Nat.one_shiftLeft, Nat.testBit_two_pow, eq_comm]

theorem Terminals.has_or (a b : Terminals) (s : Symbol) :
    Terminals.has (a ||| b) s = (a.has s || b.has s) := by
  simp [has, Nat.testBit_or]

/-! ### Items -/

/-- A production with a place in it. -/
structure Item where
  production : Production
  place : Nat
  /-- The symbol that is expected next; none at the end. -/
  next : Option Symbol
  /-- What the symbol behind the next one may start with; none if there is no such symbol. -/
  follow : Option Terminals
  /-- The items after the next symbol. -/
  successors : List Nat
  deriving Inhabited

namespace Item

/-- The step in front of the place. -/
def lastStep? (i : Item) : Option Step :=
  if i.place = 0 then none else i.production.steps[i.place - 1]?

/-- How strongly the item binds: as its last step does. -/
def precedence (i : Item) : Precedence :=
  match i.lastStep? with
  | some s => s.precedence
  | none => .unstated

/-- The side on which the item groups. -/
def side (i : Item) : Option Side := i.lastStep?.bind Step.side

/-- The whole production has been read. -/
def isComplete (i : Item) : Bool := i.next.isNone

end Item

/-- What tells items apart: what they build, how they bind, the parts read so far play, and what is
still to come. -/
structure ItemKey where
  owner : Symbol
  weight : Int
  precedence : Precedence
  side : Option Side
  read : List (Option String × Option (String × Bool))
  rest : List Step
  deriving DecidableEq, Hashable

/-- The key of a place in a production. -/
def Production.key (p : Production) (place : Nat) : ItemKey :=
  let last := if place = 0 then none else p.steps[place - 1]?
  { owner := p.owner, weight := p.weight
    precedence := (last.map Step.precedence).getD .unstated
    side := last.bind Step.side
    read := (p.steps.take place).map fun s => (s.field, s.renamed)
    rest := p.steps.drop place }

/-! ### What symbols start with -/

/-- A symbol at the start of a production, and the one behind it. -/
structure Corner where
  symbol : Symbol
  behind : Option Symbol
  deriving DecidableEq, Hashable

/-- The different starts of the productions of a symbol. -/
def cornersOf (productions : List Production) : List Corner :=
  distinct (productions.filterMap fun p =>
    match p.steps with
    | [] => none
    | [s] => some ⟨s.symbol, none⟩
    | s :: t :: _ => some ⟨s.symbol, some t.symbol⟩)

/-- The terminals that a symbol may start with, after one more round. -/
def firstOf (first : Array Terminals) (symbol : Symbol) (corners : List Corner) : Terminals :=
  corners.foldl (fun s c => s ||| first.getD c.symbol 0) (first.getD symbol 0)

/-- One round over all symbols. -/
def firstRound (corners : Array (List Corner)) (first : Array Terminals) : Array Terminals :=
  corners.size.fold (fun symbol _ first =>
    first.setIfInBounds symbol (firstOf first symbol (corners.getD symbol []))) first

/-- Rounds until nothing changes. -/
def firstSets (corners : Array (List Corner)) : Nat → Array Terminals → Array Terminals
  | 0, first => first
  | fuel + 1, first =>
    let next := firstRound corners first
    if next == first then first else firstSets corners fuel next

/-- A nonterminal symbol that may stand at the start of another one. -/
structure Reach where
  symbol : Symbol
  /-- What may follow it there. -/
  follow : Terminals
  /-- What follows the other symbol may follow it too. -/
  inherits : Bool

/-- What is known of the symbols at the start of one: the terminals that may follow each of them, and
whether it may end the symbol. -/
abbrev Spread := HashMap Symbol (Terminals × Bool)

/-- Follows the starts of productions until nothing new is found. -/
def spreadFrom (count : Nat) (corners : Array (List Corner)) (first : Array Terminals) :
    Nat → List Reach → Spread → Spread
  | 0, _, found => found
  | _, [], found => found
  | fuel + 1, r :: rest, found =>
    let known := found.get? r.symbol
    let (follow, inherits) := known.getD (0, false)
    let follow' := follow ||| r.follow
    let inherits' := inherits || r.inherits
    if known.isSome && follow' == follow && inherits' == inherits then
      spreadFrom count corners first fuel rest found
    else
      let more := (corners.getD r.symbol []).filterMap fun c =>
        if c.symbol < count then none
        else
          match c.behind with
          | some t => some ⟨c.symbol, first.getD t 0, false⟩
          | none => some ⟨c.symbol, follow', inherits'⟩
      spreadFrom count corners first fuel (more ++ rest) (found.insert r.symbol (follow', inherits'))

/-! ### Tables -/

/-- A grammar prepared for parsing.  Symbols below `terminalCount` are terminal. -/
structure Tables where
  symbols : Array SymbolInfo
  terminals : Array Terminal
  first : Array Terminals
  /-- The symbols at the start of each symbol. -/
  reach : Array (Array Reach)
  items : Array Item
  /-- The items behind each symbol at the start of a production, with the owner of that production. -/
  starting : Array (Array (Symbol × Nat))
  /-- The productions without steps. -/
  empty : List Production
  /-- The items before the first symbol. -/
  start : List Nat
  /-- The symbol of a whole text, which owns the production of the start. -/
  root : Symbol
  orders : List (List Rank)
  /-- The terminals that may stand everywhere. -/
  extras : Terminals
  /-- Hidden symbols whose productions of one step leave no trace. -/
  passing : Array Bool
  deriving Inhabited

namespace Tables

/-- The number of terminal symbols. -/
def terminalCount (t : Tables) : Nat := t.terminals.size

/-- The symbol with a number. -/
def info (t : Tables) (s : Symbol) : SymbolInfo := t.symbols.getD s default

/-- An item by its number. -/
def item (t : Tables) (i : Nat) : Item := t.items.getD i default

end Tables

/-! ### Building the tables -/

/-- The items found so far. -/
structure Items where
  items : Array Item := #[]
  index : HashMap ItemKey Nat := {}

/-- What is needed to find items. -/
structure ItemRules where
  first : Array Terminals
  /-- The productions of the symbols that are put in the place of their name. -/
  inlined : HashMap Symbol (List Production)

/-- A production with the steps of another one in the place of a step.  They take over what the step
says: its part and its name, and its strength where the last of them states none. -/
def Production.substitute (p : Production) (place : Nat) (q : Production) : Production :=
  match p.steps[place]? with
  | none => p
  | some old =>
    let inserted := q.steps.map fun s => { s with
      renamed := old.renamed.or s.renamed, field := old.field.or s.field }
    let inserted := modifyLast (fun s => { s with
      precedence := if s.precedence = .unstated then old.precedence else s.precedence
      side := s.side.or old.side }) inserted
    { p with
      steps := p.steps.take place ++ inserted ++ p.steps.drop (place + 1)
      weight := heavier p.weight q.weight }

/-- The productions that a production stands for when the symbol at a place is put in. -/
def ItemRules.expand (r : ItemRules) (place : Nat) : Nat → Production → List Production
  | 0, p => [p]
  | fuel + 1, p =>
    match (p.steps[place]?).bind fun s => r.inlined.get? s.symbol with
    | none => [p]
    | some qs => qs.flatMap fun q => r.expand place fuel (p.substitute place q)

/-- The most symbols that are put in for one another at one place. -/
def expansionDepth : Nat := 8

/-- The numbers of the items at a place of a production, and the items with those that follow. -/
def ItemRules.itemsAt (r : ItemRules) : Nat → Production → Nat → Items → List Nat × Items
  | 0, _, _, found => ([], found)
  | fuel + 1, p, place, found =>
    (r.expand place expansionDepth p).foldl (fun (ids, found) q =>
      let key := q.key place
      match found.index.get? key with
      | some i => (i :: ids, found)
      | none =>
        let next := (q.steps[place]?).map Step.symbol
        let (successors, found) :=
          if next.isNone then ([], found) else r.itemsAt fuel q (place + 1) found
        let follow := (q.steps[place + 1]?).map fun s => r.first.getD s.symbol 0
        let i := found.items.size
        (i :: ids,
          { items := found.items.push { production := q, place, next, follow, successors }
            index := found.index.insert key i })) ([], found)

/-- The most steps of a production. -/
def productionDepth : Nat := 64

/-- Adds the items behind the first symbol of the productions of a symbol. -/
def ItemRules.addStarting (r : ItemRules) (productions : List Production)
    (state : Array (Array (Symbol × Nat)) × Items) : Array (Array (Symbol × Nat)) × Items :=
  productions.foldl (fun state p =>
    (r.expand 0 expansionDepth p).foldl (fun (starting, found) q =>
      match q.steps with
      | [] => (starting, found)
      | s :: _ =>
        let (ids, found) := r.itemsAt productionDepth q 1 found
        let starting := starting.modify s.symbol fun known =>
          ids.foldl (fun known i =>
            if known.contains (q.owner, i) then known else known.push (q.owner, i)) known
        (starting, found)) state) state

/-- The tables of a grammar. -/
def Tables.ofGrammar (g : Grammar) : Tables :=
  let a := Alphabet.ofGrammar g
  let n := a.numbering
  let symbols := a.symbols g
  let terminals := a.terminals.toArray
  let count := terminals.size
  let root := symbols.size
  let rules := a.rules.map fun ((name, r) : String × Rule) => productionsOf n (n.ref name) r
  let productions := (List.replicate count [] ++ rules).toArray
  let corners := productions.map cornersOf
  let single := (Array.range root).map fun s => if s < count then Terminals.single s else 0
  let first := firstSets corners root single
  let isInlined (s : Symbol) : Bool := g.inlined.contains (symbols.getD s default).name
  let reach := (Array.range root).map fun s =>
    let found := spreadFrom count corners first (root * root) [⟨s, 0, true⟩] {}
    (found.toList.filterMap fun (s, follow, inherits) =>
      if s < count || isInlined s then none else some ⟨s, follow, inherits⟩).toArray
  let inlined := HashMap.ofList <| (List.range root).filterMap fun s =>
    if s ≥ count && isInlined s then some (s, productions.getD s []) else none
  let r : ItemRules := { first, inlined }
  let visible := productions.toList.filter fun ps =>
    match ps with
    | p :: _ => !isInlined p.owner
    | [] => false
  let (starting, found) := visible.foldl (fun state ps => r.addStarting ps state)
    (Array.replicate root #[], {})
  let whole : Production := ⟨root, 0, [⟨count, .unstated, none, none, none⟩]⟩
  let (start, found) := r.itemsAt productionDepth whole 0 found
  let renamed := rules.flatten.flatMap fun p =>
    p.steps.filterMap fun s => s.renamed.map fun _ => s.symbol
  let passing := (Array.range root).map fun s =>
    let info := symbols.getD s default
    s ≥ count && info.isHidden && !g.families.contains info.name && !renamed.contains s
  { symbols, terminals, first, reach, starting, start, root, passing
    items := found.items
    empty := productions.toList.flatten.filter fun p => p.steps.isEmpty
    orders := g.orders
    extras := g.extras.foldl (fun s name => s ||| Terminals.single (n.ref name)) 0 }

end ScopeExit.Grammar
