import ScopeExit.Grammar.Tables
/-!
The automaton of a grammar.

A state is a set of items, each with the terminals that may follow its production.  States are made
when they are first entered, so a text only pays for the part of the automaton that it visits.

Where a state allows more than one action for a terminal, the strengths of the rules decide; what
they leave open is tried side by side.
-/
namespace ScopeExit.Grammar

open Std (HashMap)

/-! ### States -/

/-- The items of a state that have been begun, by number, with what may follow them. -/
abbrev Kernel := Array (Nat × Terminals)

/-- A state of the automaton. -/
structure ParseState where
  kernel : Kernel
  /-- What may follow each symbol at the start of which the state stands; empty for the others. -/
  expected : Array Terminals
  /-- The terminals for which the state has an action. -/
  valid : Terminals
  deriving Inhabited

/-- What may follow the symbols at whose start an item stands. -/
def expectItem (t : Tables) (expected : Array Terminals) (entry : Nat × Terminals) :
    Array Terminals :=
  let i := t.item entry.1
  match i.next with
  | none => expected
  | some s =>
    let follow := i.follow.getD entry.2
    (t.reach.getD s #[]).foldl (fun expected r =>
      expected.modify r.symbol fun known =>
        known ||| r.follow ||| (if r.inherits then follow else 0)) expected

/-- The terminals for which an item has an action. -/
def validFor (t : Tables) (entry : Nat × Terminals) : Terminals :=
  match (t.item entry.1).next with
  | none => entry.2
  | some s => t.first.getD s 0

/-- The state of a kernel. -/
def ParseState.ofKernel (t : Tables) (kernel : Kernel) : ParseState :=
  let expected := kernel.foldl (expectItem t) (Array.replicate t.symbols.size 0)
  let empty := t.empty.foldl (fun s p => s ||| expected.getD p.owner 0) 0
  let valid := kernel.foldl (fun s entry => s ||| validFor t entry) (t.extras ||| empty)
  { kernel, expected, valid }

/-- A list in increasing order with one more entry; entries of the same item are joined. -/
def insertEntry (entry : Nat × Terminals) : List (Nat × Terminals) → List (Nat × Terminals)
  | [] => [entry]
  | e :: rest =>
    if entry.1 < e.1 then entry :: e :: rest
    else if entry.1 = e.1 then (e.1, e.2 ||| entry.2) :: rest
    else e :: insertEntry entry rest

/-- Entries in increasing order, those of the same item joined. -/
def mergeEntries (entries : List (Nat × Terminals)) : List (Nat × Terminals) :=
  (entries.mergeSort fun a b => a.1 ≤ b.1).foldr insertEntry []

/-- The kernel of the state behind a symbol. -/
def ParseState.kernelAfter (t : Tables) (state : ParseState) (s : Symbol) : Kernel :=
  let begun := state.kernel.toList.flatMap fun (i, follow) =>
    let i := t.item i
    if i.next == some s then i.successors.map fun j => (j, follow) else []
  let fresh := (t.starting.getD s #[]).toList.filterMap fun (owner, i) =>
    let follow := state.expected.getD owner 0
    if follow = 0 then none else some (i, follow)
  (mergeEntries (begun ++ fresh)).toArray

/-- The hidden symbol that a kernel does nothing but build from a single one. -/
def passedSymbol? (t : Tables) (kernel : Kernel) : Option Symbol :=
  match kernel.toList with
  | [] => none
  | entry :: rest =>
    let owner := (t.item entry.1).production.owner
    let passes (entry : Nat × Terminals) : Bool :=
      let i := t.item entry.1
      i.isComplete && i.place = 1 && i.production.owner = owner && i.production.weight = 0 &&
        i.production.steps.all fun s => s.field.isNone && s.renamed.isNone
    if t.passing.getD owner false && (entry :: rest).all passes then some owner else none

/-! ### Strengths -/

/-- An entry of an order applies to a strength or to one of several symbols. -/
def Rank.applies (t : Tables) (p : Precedence) (owners : List Symbol) : Rank → Bool
  | .strength name => p = .named name
  | .rule name => owners.any fun s => (t.info s).name == name

/-- How two strengths compare in one order: by which of them is found first, provided that both are.
-/
def compareIn (t : Tables) (p : Precedence) (ps : List Symbol) (q : Precedence) (qs : List Symbol) :
    (sawP sawQ : Bool) → List Rank → Option Ordering
  | _, _, [] => none
  | sawP, sawQ, r :: rest =>
    if r.applies t p ps then
      if sawQ then some .lt else compareIn t p ps q qs true sawQ rest
    else if r.applies t q qs then
      if sawP then some .gt else compareIn t p ps q qs sawP true rest
    else compareIn t p ps q qs sawP sawQ rest

/-- The number of a strength that has no name. -/
def Precedence.level? : Precedence → Option Int
  | .unstated => some 0
  | .level n => some n
  | .named _ => none

/-- Compares the strengths of rules for the given symbols: by their numbers if one of them differs
from zero, else by the first order that ranks both. -/
def compareStrength (t : Tables) (p : Precedence) (ps : List Symbol) (q : Precedence)
    (qs : List Symbol) : Ordering :=
  let ranked := (t.orders.findSome? (compareIn t p ps q qs false false)).getD .eq
  match p.level?, q.level? with
  | some a, some b => if a = 0 && b = 0 then ranked else compare a b
  | _, _ => ranked

/-! ### Actions -/

/-- What to do with a terminal. -/
inductive Action where
  /-- Read it and go to another state. -/
  | shift
  /-- Read it and stay. -/
  | skip
  /-- Build a node. -/
  | reduce (p : Production)
  /-- The text is complete. -/
  | accept

/-- The productions that may be built, and how strongly they bind. -/
structure Completed where
  productions : List Production := []
  precedence : Precedence := .unstated
  owners : List Symbol := []
  left : Bool := false
  right : Bool := false
  neither : Bool := false

/-- Puts in one more production. -/
def Completed.add (c : Completed) (p : Production) (precedence : Precedence) (side : Option Side) :
    Completed :=
  { productions := c.productions ++ [p]
    precedence
    owners := if c.owners.contains p.owner then c.owners else p.owner :: c.owners
    left := c.left || side = some .left
    right := c.right || side = some .right
    neither := c.neither || side.isNone }

/-- Puts in the production of an item unless a stronger one is there; a stronger one replaces the
others. -/
def Completed.offer (t : Tables) (c : Completed) (i : Item) : Completed :=
  let p := i.production
  if c.productions.isEmpty then c.add p i.precedence i.side
  else
    match compareStrength t i.precedence [p.owner] c.precedence c.owners with
    | .gt => ({} : Completed).add p i.precedence i.side
    | .eq => c.add p i.precedence i.side
    | .lt => c

/-- The order in which productions are built. -/
def Item.precedes (a b : Item) : Bool :=
  a.place < b.place ||
    (a.place = b.place && (a.production.owner < b.production.owner ||
      (a.production.owner = b.production.owner && a.production.weight ≤ b.production.weight)))

namespace ParseState

variable (t : Tables) (state : ParseState) (s : Symbol)

/-- The items that are complete before a terminal. -/
def complete : List Item :=
  let items := state.kernel.toList.filterMap fun (i, follow) =>
    let i := t.item i
    if i.isComplete && follow.has s then some i else none
  items.mergeSort Item.precedes

/-- The items in which a terminal goes on. -/
def ongoing : List Item :=
  state.kernel.toList.filterMap fun (i, _) =>
    let i := t.item i
    match i.next with
    | some next => if (t.first.getD next 0).has s then some i else none
    | none => none

/-- The terminal can be read in the state. -/
def canShift : Bool :=
  state.kernel.any (fun (i, _) => (t.item i).next == some s) ||
    (t.starting.getD s #[]).any fun (owner, _) => state.expected.getD owner 0 != 0

/-- All items are about the same repetition. -/
def isRepetition (items : List Item) : Bool :=
  match items with
  | [] => false
  | i :: rest =>
    (t.info i.production.owner).isRepetition &&
      rest.all fun j => j.production.owner = i.production.owner

/-- The actions where both reading the terminal and building a node are possible. -/
def resolve (complete : List Item) (c : Completed) : List Action :=
  let reduces := c.productions.map Action.reduce
  let ongoing := state.ongoing t s
  let orders := ongoing.map fun i =>
    compareStrength t i.precedence [i.production.owner] c.precedence c.owners
  if isRepetition t (ongoing ++ complete) then reduces
  else
    match orders.contains .gt, orders.contains .lt with
    | true, false => [.shift]
    | false, true => reduces
    | true, true => reduces ++ [.shift]
    | false, false =>
      match c.left, c.neither, c.right with
      | true, false, false => reduces
      | false, false, true => [.shift]
      | _, _, _ => reduces ++ [.shift]

/-- The productions without steps that may be built before a terminal. -/
def emptyReductions : List Action :=
  (t.empty.filter fun p => (state.expected.getD p.owner 0).has s).map .reduce

/-- The actions of a state for a terminal. -/
def actions : List Action :=
  let complete := state.complete t s
  if complete.any fun i => i.production.owner = t.root then [.accept]
  else
    let c := complete.foldl (Completed.offer t) {}
    let shifts := state.canShift t s
    let found :=
      if complete.isEmpty then state.emptyReductions t s ++ (if shifts then [.shift] else [])
      else if shifts then state.resolve t s complete c
      else c.productions.map .reduce
    if found.isEmpty && t.extras.has s then [.skip] else found

end ParseState

/-! ### The automaton -/

/-- The states that were made so far, and what is known of them. -/
structure Automaton where
  states : Array ParseState := #[]
  index : HashMap Kernel Nat := {}
  moves : HashMap Nat Nat := {}
  decisions : HashMap Nat (List Action) := {}
  deriving Inhabited

namespace Automaton

/-- The key of a state and a symbol. -/
def key (state : Nat) (s : Symbol) : Nat := state * 1024 + s

/-- The state of a kernel, made if it is new. -/
def enter (t : Tables) (a : Automaton) (kernel : Kernel) : Nat × Automaton :=
  match a.index.get? kernel with
  | some state => (state, a)
  | none =>
    let state := a.states.size
    (state, { a with
      states := a.states.push (.ofKernel t kernel), index := a.index.insert kernel state })

/-- The automaton with its first state. -/
def start (t : Tables) : Automaton :=
  (enter t {} (t.start.map fun i => (i, Terminals.single 0)).toArray).2

/-- A state by its number. -/
def state (a : Automaton) (n : Nat) : ParseState := a.states.getD n default

/-- The kernel behind a symbol; hidden symbols that are built from a single one are passed over. -/
def kernelAfter (t : Tables) (state : ParseState) : Nat → Symbol → Kernel
  | 0, s => state.kernelAfter t s
  | fuel + 1, s =>
    let kernel := state.kernelAfter t s
    match passedSymbol? t kernel with
    | some owner => kernelAfter t state fuel owner
    | none => kernel

/-- The most hidden symbols that are passed over at once. -/
def passingDepth : Nat := 16

/-- The state behind a symbol. -/
def move (t : Tables) (a : Automaton) (n : Nat) (s : Symbol) : Nat × Automaton :=
  match a.moves.get? (key n s) with
  | some target => (target, a)
  | none =>
    let (target, a) := a.enter t (kernelAfter t (a.state n) passingDepth s)
    (target, { a with moves := a.moves.insert (key n s) target })

/-- The actions of a state for a terminal. -/
def decide (t : Tables) (a : Automaton) (n : Nat) (s : Symbol) : List Action × Automaton :=
  match a.decisions.get? (key n s) with
  | some actions => (actions, a)
  | none =>
    let actions := (a.state n).actions t s
    (actions, { a with decisions := a.decisions.insert (key n s) actions })

end Automaton

end ScopeExit.Grammar
