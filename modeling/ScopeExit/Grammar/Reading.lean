import ScopeExit.Grammar.Automaton
import ScopeExit.Grammar.Stack
import ScopeExit.Grammar.Token
/-!
Readings of a text.

A reading is a head of the stack.  It takes the next token, builds the nodes that the automaton asks
for, and puts the token on top.  Where the automaton leaves several actions open, each of them becomes
a reading of its own; readings that meet again are joined, and the derivation that counts is chosen
when a node is built over them.  Readings go on in turn, so that none is far ahead of the others.
-/
namespace ScopeExit.Grammar

/-- What is needed to read a text of a language. -/
structure Reader where
  tables : Tables
  lexicon : Lexicon
  /-- The number of characters of the text. -/
  size : Nat

/-- The readings of a text. -/
structure Readings where
  automaton : Automaton
  stack : Stack
  /-- The derivation of the whole text that counts most so far. -/
  finished : Option Derivation := none
  deriving Inhabited

namespace Readings

/-- The readings at the start of a text. -/
def ofText (t : Tables) (chars : List Char) : Readings :=
  { automaton := .start t, stack := .ofText chars }

/-- Changes the stack. -/
def onStack (r : Readings) (f : Stack → Stack) : Readings := { r with stack := f r.stack }

/-- The number of heads. -/
def count (r : Readings) : Nat := r.stack.heads.size

/-! ### Building nodes -/

/-- Derivations without the extra tokens at their end, and these. -/
def splitExtras (trees : List Derivation) : List Derivation × List Derivation :=
  let extras := (trees.reverse.takeWhile Derivation.isExtra).reverse
  (trees.take (trees.length - extras.length), extras)

/-- A node over the derivations of a way, and the extra tokens behind it. -/
def nodeOver (p : Production) (offset : Nat) (trees : List Derivation) :
    Derivation × List Derivation :=
  let (children, extras) := splitExtras trees
  (.build p offset children, extras)

/-- Of several nodes over the same text, the one that counts. -/
def chooseNode (best next : Derivation × List Derivation) : Derivation × List Derivation :=
  if best.1.outweighs next.1 then next else best

/-- The most heads beyond those that go on. -/
def overflowLimit : Nat := 4

/-- Builds a node of a production on top of a node of the stack, as a new head unless another head but
`h` takes it in. -/
def buildOn (t : Tables) (h : Nat) (p : Production) (rest : List Char) (limit : Nat) (r : Readings)
    (arrival : Nat × List (List Derivation)) : Readings :=
  let (n, ways) := arrival
  let fresh := r.count
  match ways.map (nodeOver p (r.stack.node n).offset) with
  | [] => r
  | first :: others =>
    if limit < fresh then r
    else
      let (tree, extras) := others.foldl chooseNode first
      let (state, automaton) := r.automaton.move t (r.stack.node n).state p.owner
      let (top, stack) := r.stack.growAll n (tree.weighed :: extras) state
      let stack := { stack with heads := stack.heads.push { node := top, rest } }
      let others := (List.range fresh).filter (· != h)
      { r with automaton, stack := (stack.mergeAny? fresh others).getD stack }

/-- Builds nodes of a production at a head, one for each node of the stack where the ways over its
steps end. -/
def build (t : Tables) (h : Nat) (p : Production) (r : Readings) : Readings :=
  let halted := (r.stack.heads.filter fun head => head.status = .halted).size
  let limit := Stack.headLimit + overflowLimit + halted
  let head := r.stack.head h
  (r.stack.ways head.node p.steps.length).foldl (buildOn t h p head.rest limit) r

/-! ### Tokens -/

/-- The derivation of a token. -/
def leaf (token : Token) (isExtra : Bool) : Derivation :=
  .token token.symbol token.start token.behind.offset isExtra

/-- Puts a token on top of a head. -/
def shift (h : Nat) (token : Token) (state : Nat) (isExtra : Bool) (r : Readings) : Readings :=
  r.onStack fun s => s.push h (leaf token isExtra) state token.behind.rest

/-- The derivations of a whole text: the topmost one is replaced by its children, so that extra tokens
around it become parts of the text. -/
def wholeText : List Derivation → List Derivation
  | [] => []
  | .node _ _ _ _ children :: below => below.reverse ++ children
  | t :: below => wholeText below ++ [t]

/-- The production of the topmost derivation. -/
def wholeProduction : List Derivation → Production
  | [] => default
  | .node p .. :: _ => p
  | _ :: below => wholeProduction below

/-- The derivation of a whole text from those of a way. -/
def wholeDerivation (trees : List Derivation) : Derivation :=
  let down := trees.reverse
  .build (wholeProduction down) 0 (wholeText down)

/-- Keeps the derivation of a whole text that counts most. -/
def finish (r : Readings) (trees : List Derivation) : Readings :=
  let whole := wholeDerivation trees
  match r.finished with
  | none => { r with finished := some whole }
  | some old => if old.outweighs whole then { r with finished := some whole } else r

/-- Brings a head to its end: all ways below it are derivations of the whole text. -/
def accept (h : Nat) (token : Token) (r : Readings) : Readings :=
  let r := r.shift h token (r.stack.top h).state true
  let r := (r.stack.waysToBottom (r.stack.head h).node).foldl finish r
  r.onStack (·.setStatus h .halted)

/-! ### Steps of a reading -/

/-- What came of the actions of a head. -/
inductive Progress where
  /-- The token was read or the head came to its end. -/
  | done
  /-- Nodes were built; the first head that came of it, if any is left. -/
  | built (first : Option Nat)
  /-- There was nothing to do. -/
  | stuck

/-- Does the actions of a head. -/
def act (t : Tables) (h : Nat) (token : Token) : List Action → Progress → Readings →
    Progress × Readings
  | [], progress, r => (progress, r)
  | .shift :: _, _, r =>
    let (state, automaton) := r.automaton.move t (r.stack.top h).state token.symbol
    (.done, { r with automaton }.shift h token state false)
  | .skip :: _, _, r => (.done, r.shift h token (r.stack.top h).state true)
  | .accept :: _, _, r => (.done, r.accept h token)
  | .reduce p :: rest, progress, r =>
    let before := r.count
    let r := r.build t h p
    let first := if before < r.count then some before else
      match progress with
      | .built first => first
      | _ => none
    act t h token rest (.built first) r

/-- Lets a head go on with a token until it is read.  A word that cannot stand where the head has come
to is taken for a name if a name can.  `fuel` bounds the number of nodes built on the way. -/
def readToken (t : Tables) (h : Nat) : Nat → Token → Readings → Readings
  | 0, _, r => r.onStack (·.setStatus h .paused)
  | fuel + 1, token, r =>
    let state := (r.stack.top h).state
    let (actions, automaton) := r.automaton.decide t state token.symbol
    let (progress, r) := act t h token actions .stuck { r with automaton }
    match progress with
    | .done => r
    | .built (some first) => readToken t h fuel token (r.onStack (·.replace first h))
    | .built none => r.onStack (·.setStatus h .halted)
    | .stuck =>
      if token.isKeyword && token.symbol != Lexicon.name then
        readToken t h fuel { token with symbol := Lexicon.name } r
      else r.onStack (·.setStatus h .paused)

/-- The most nodes that are built before a token is read. -/
def buildingLimit (t : Tables) (r : Readings) : Nat := (r.stack.nodes.size + 1) * t.symbols.size

/-- Lets a head go on by one token. -/
def advance (reader : Reader) (h : Nat) (r : Readings) : Readings :=
  let valid := (r.automaton.state (r.stack.top h).state).valid
  match Token.next? reader.lexicon reader.size valid (r.stack.place h) with
  | none => r.onStack (·.setStatus h .paused)
  | some token => readToken reader.tables h (buildingLimit reader.tables r) token r

/-- Lets a head go on until it is ahead of the place that was reached before, or level with it if it
is not the first head.  Gives the place that is reached now. -/
def advanceHead (reader : Reader) (h : Nat) : Nat → Nat → Readings → Nat × Readings
  | 0, reached, r => (reached, r)
  | fuel + 1, reached, r =>
    if r.stack.isActive h then
      let r := r.advance reader h
      let offset := (r.stack.top h).offset
      if reached < offset || (h != 0 && reached = offset) then (offset, r)
      else advanceHead reader h fuel reached r
    else (reached, r)

/-- Lets all heads from `h` on go on, those included that come up on the way. -/
def advanceAll (reader : Reader) : Nat → (h reached : Nat) → Readings → Nat × Readings
  | 0, _, reached, r => (reached, r)
  | fuel + 1, h, reached, r =>
    if r.count ≤ h then (reached, r)
    else
      let (reached, r) := advanceHead reader h (2 * reader.size + 2) reached r
      advanceAll reader fuel (h + 1) reached r

/-- The most heads in a round. -/
def roundLimit : Nat := 1024

/-- Lets the readings go on in rounds until none is left that can.  Each round comes further in the
text. -/
def rounds (reader : Reader) : Nat → (reached : Nat) → Readings → Option Derivation
  | 0, _, _ => none
  | fuel + 1, reached, r =>
    let (reached, r) := advanceAll reader roundLimit 0 reached r
    let r := r.onStack Stack.settle
    if (r.stack.heads.any fun head => head.status = .active) then rounds reader fuel reached r
    else r.finished

end Readings

/-- The derivation of a whole text, if the text belongs to the language. -/
def Derivation.ofText? (t : Tables) (lexicon : Lexicon) (chars : List Char) : Option Derivation :=
  let reader : Reader := { tables := t, lexicon, size := chars.length }
  Readings.rounds reader (4 * chars.length + 8) 0 (.ofText t chars)

end ScopeExit.Grammar
