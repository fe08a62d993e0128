import ScopeExit.Grammar.Derivation
import ScopeExit.Grammar.LineEnd
/-!
The stack of a parser that follows several readings of a text at once.

The stack is a graph: readings that have come to the same state at the same place share their top and
go on as one, and below it a node may have several predecessors.  A reading is a way from a head down
to the bottom; the derivations on the links of that way cover the text in front of the head.
-/
namespace ScopeExit.Grammar

/-- A link from a node down to a predecessor, with the derivation between the two. -/
structure Link where
  target : Nat
  tree : Derivation
  deriving Inhabited

/-- A node of the stack. -/
structure StackNode where
  /-- The state of the automaton. -/
  state : Nat
  /-- The number of bytes that are covered. -/
  offset : Nat
  /-- The greatest weight of a way down to the bottom. -/
  weight : Int := 0
  links : Array Link := #[]
  deriving Inhabited

/-- What a reading is doing. -/
inductive Status where
  | active
  /-- The text cannot go on like this. -/
  | paused
  /-- It came to its end or went into another one. -/
  | halted
  deriving DecidableEq, Inhabited

/-- The top of readings. -/
structure Head where
  node : Nat
  /-- The text behind what is covered. -/
  rest : List Char
  status : Status := .active
  deriving Inhabited

/-- The stack. -/
structure Stack where
  nodes : Array StackNode
  heads : Array Head
  deriving Inhabited

namespace Stack

/-- The stack at the start of a text. -/
def ofText (chars : List Char) : Stack :=
  { nodes := #[{ state := 0, offset := 0 }], heads := #[{ node := 0, rest := chars }] }

/-- A node by its number. -/
def node (s : Stack) (n : Nat) : StackNode := s.nodes.getD n default

/-- A head by its place. -/
def head (s : Stack) (h : Nat) : Head := s.heads.getD h default

/-- The node on which a head stands. -/
def top (s : Stack) (h : Nat) : StackNode := s.node (s.head h).node

/-- A head is there and goes on. -/
def isActive (s : Stack) (h : Nat) : Bool := h < s.heads.size && (s.head h).status = .active

/-- The place in the text at which a head stands. -/
def place (s : Stack) (h : Nat) : Place := ⟨(s.top h).offset, (s.head h).rest⟩

/-- Puts a derivation onto a node and gives the number of the new node. -/
def grow (s : Stack) (n : Nat) (tree : Derivation) (state : Nat) : Nat × Stack :=
  let fresh : StackNode :=
    { state, offset := tree.stop, weight := (s.node n).weight + tree.weight, links := #[⟨n, tree⟩] }
  (s.nodes.size, { s with nodes := s.nodes.push fresh })

theorem size_nodes_grow (s : Stack) (n : Nat) (tree : Derivation) (state : Nat) :
    (s.grow n tree state).2.nodes.size = s.nodes.size + 1 := by
  simp [grow]

/-- Puts derivations onto a node, all in the same state. -/
def growAll (s : Stack) (n : Nat) (trees : List Derivation) (state : Nat) : Nat × Stack :=
  trees.foldl (fun (n, s) tree => grow s n tree state) (n, s)

/-- Reads a token at a head. -/
def push (s : Stack) (h : Nat) (tree : Derivation) (state : Nat) (rest : List Char) : Stack :=
  let (n, s) := s.grow (s.head h).node tree state
  { s with heads := s.heads.setIfInBounds h { node := n, rest } }

theorem size_heads_push (s : Stack) (h : Nat) (tree : Derivation) (state : Nat) (rest : List Char) :
    (s.push h tree state rest).heads.size = s.heads.size := by
  simp [push, grow]

/-- Changes what a head is doing. -/
def setStatus (s : Stack) (h : Nat) (status : Status) : Stack :=
  { s with heads := s.heads.modify h fun head => { head with status } }

/-- Takes a head away. -/
def remove (s : Stack) (h : Nat) : Stack := { s with heads := s.heads.eraseIdxIfInBounds h }

/-- Puts a head in the place of another one. -/
def replace (s : Stack) (source target : Nat) : Stack :=
  if source = target then s
  else { s with heads := (s.heads.setIfInBounds target (s.head source)).eraseIdxIfInBounds source }

/-! ### Ways down -/

/-- A way down from a head. -/
structure Descent where
  node : Nat
  /-- The derivations on the way, lowest first. -/
  trees : List Derivation := []
  /-- How many of them are no extra tokens. -/
  count : Nat := 0

/-- Goes down a link. -/
def Descent.follow (d : Descent) (l : Link) : Descent :=
  ⟨l.target, l.tree :: d.trees, if l.tree.isExtra then d.count else d.count + 1⟩

/-- The most ways that are followed at once. -/
def descentLimit : Nat := 64

/-- The ways that have come to their end, grouped by the nodes where they ended. -/
abbrev Arrivals := List (Nat × List (List Derivation))

/-- Puts in one more way. -/
def Arrivals.add (n : Nat) (trees : List Derivation) : Arrivals → Arrivals
  | [] => [(n, [trees])]
  | (m, ways) :: rest =>
    if n = m then (m, ways ++ [trees]) :: rest else (m, ways) :: Arrivals.add n trees rest

/-- One step down on each way.  `arrived` says where a way ends; `kept` and `fresh` hold the ways
after the step, in reverse. -/
def stepDown (s : Stack) (arrived : Descent → Bool) :
    List Descent → (kept fresh : List Descent) → Arrivals → List Descent × Arrivals
  | [], kept, fresh, found => (kept.reverse ++ fresh.reverse, found)
  | d :: rest, kept, fresh, found =>
    if arrived d then stepDown s arrived rest kept fresh (found.add d.node d.trees)
    else
      match (s.node d.node).links.toList with
      | [] => stepDown s arrived rest kept fresh found
      | first :: others =>
        let room := descentLimit - (kept.length + fresh.length + rest.length + 1)
        let forks := (others.take room).map d.follow
        stepDown s arrived rest (d.follow first :: kept) (forks.reverse ++ fresh) found

/-- Steps down until all ways have come to their end; `fuel` bounds their length. -/
def descend (s : Stack) (arrived : Descent → Bool) : Nat → List Descent → Arrivals → Arrivals
  | 0, _, found => found
  | _, [], found => found
  | fuel + 1, ds, found =>
    let (ds, found) := stepDown s arrived ds [] [] found
    descend s arrived fuel ds found

/-- The ways from a node down over a number of derivations that are no extra tokens. -/
def ways (s : Stack) (n : Nat) (count : Nat) : Arrivals :=
  s.descend (fun d => d.count = count) (s.nodes.size + 1) [{ node := n }] []

/-- The ways from a node down to the bottom. -/
def waysToBottom (s : Stack) (n : Nat) : List (List Derivation) :=
  (s.descend (fun d => (s.node d.node).links.isEmpty) (s.nodes.size + 1) [{ node := n }] []).flatMap
    Prod.snd

/-! ### Merging -/

/-- The most predecessors of a node. -/
def linkLimit : Nat := 8

/-- Two links cover the same text with the same symbol. -/
def isEquivalent (s : Stack) (a b : Link) : Bool :=
  a.tree.symbol = b.tree.symbol && a.tree.start = b.tree.start && a.tree.stop = b.tree.stop &&
    a.tree.children.length = b.tree.children.length && a.tree.isExtra = b.tree.isExtra &&
    (s.node a.target).offset = (s.node b.target).offset

/-- Two nodes stand for the same state at the same place. -/
def isMergeable (s : Stack) (a b : Nat) : Bool :=
  (s.node a).state = (s.node b).state && (s.node a).offset = (s.node b).offset

/-- Raises the weight of a node. -/
def raise (s : Stack) (n : Nat) (weight : Int) : Stack :=
  { s with nodes := s.nodes.modify n fun node => { node with weight := max node.weight weight } }

/-- Adds a link that no link of the node stands for already. -/
def appendLink (s : Stack) (n : Nat) (l : Link) : Stack :=
  if (s.node n).links.size < linkLimit then
    let weight := (s.node l.target).weight + l.tree.weight
    let s := { s with nodes := s.nodes.modify n fun node => { node with links := node.links.push l } }
    s.raise n weight
  else s

/-- Puts the heavier derivation onto a link of a node. -/
def improveLink (s : Stack) (n i : Nat) (l : Link) : Stack :=
  let old := (s.node n).links.getD i default
  if old.tree.weight < l.tree.weight then
    let weight := (s.node l.target).weight + l.tree.weight
    { s with nodes := s.nodes.modify n fun node =>
        { node with weight, links := node.links.setIfInBounds i l } }
  else s

/-- Adds a link to a node.  A link that covers the same text as another one joins it: where both go to
the same node, the heavier derivation stays; where both go to nodes of the same state at the same
place, the predecessors of these are joined. -/
def addLink : Nat → Nat → Link → Stack → Stack
  | 0, _, _, s => s
  | fuel + 1, n, l, s =>
    if l.target = n then s
    else
      let joins (old : Link) : Bool :=
        s.isEquivalent old l && (old.target = l.target || s.isMergeable old.target l.target)
      match (s.node n).links.findIdx? joins with
      | none => s.appendLink n l
      | some i =>
        let old := (s.node n).links.getD i default
        if old.target = l.target then s.improveLink n i l
        else
          let s := (s.node l.target).links.foldl (fun s below => addLink fuel old.target below s) s
          s.raise n ((s.node l.target).weight + l.tree.weight)

/-- Joins a head into another one that stands in the same state at the same place. -/
def merge? (s : Stack) (h source : Nat) : Option Stack :=
  let a := s.head h
  let b := s.head source
  if a.status = .active && b.status = .active && s.isMergeable a.node b.node then
    let s := (s.node b.node).links.foldl (fun s l => addLink s.nodes.size a.node l s) s
    some (s.remove source)
  else none

/-- Joins a head into the first of several others that takes it. -/
def mergeAny? (s : Stack) (source : Nat) : List Nat → Option Stack
  | [] => none
  | h :: rest => (s.merge? h source).or (s.mergeAny? source rest)

/-! ### Which readings go on -/

/-- The most heads that go on. -/
def headLimit : Nat := 6

/-- How a head compares with an earlier one. -/
inductive Standing where
  | drop | keep | first | only

/-- A reading that goes on counts more than one that cannot; else the greater weight counts. -/
def standing (earlier later : Status × Int) : Standing :=
  match earlier.1, later.1 with
  | .active, .paused => .drop
  | .paused, .active => .only
  | _, _ => if earlier.2 < later.2 then .first else .keep

/-- What counts of a head. -/
def rank (s : Stack) (h : Nat) : Status × Int := ((s.head h).status, (s.top h).weight)

/-- Exchanges two heads. -/
def exchange (s : Stack) (g h : Nat) : Stack :=
  { s with heads := (s.heads.setIfInBounds g (s.head h)).setIfInBounds h (s.head g) }

/-- Compares a head, whose rank is given, with the earlier ones from `g` on, and gives the place of
the head to look at next. -/
def settleHead (rank : Status × Int) : Nat → (g h : Nat) → Stack → Nat × Stack
  | 0, _, h, s => (h + 1, s)
  | fuel + 1, g, h, s =>
    if h ≤ g then (h + 1, s)
    else
      match standing (s.rank g) rank with
      | .drop => (h, s.remove h)
      | .only => settleHead rank fuel g (h - 1) (s.remove g)
      | .keep =>
        match s.merge? g h with
        | some s => (h, s)
        | none => settleHead rank fuel (g + 1) h s
      | .first =>
        match s.merge? g h with
        | some s => (h, s)
        | none => settleHead rank fuel (g + 1) h (s.exchange g h)

/-- Looks at all heads from `h` on. -/
def settleFrom : Nat → Nat → Stack → Stack
  | 0, _, s => s
  | fuel + 1, h, s =>
    if s.heads.size ≤ h then s
    else if (s.head h).status = .halted then settleFrom fuel h (s.remove h)
    else
      let (h, s) := settleHead (s.rank h) (s.heads.size + 1) 0 h s
      settleFrom fuel h s

/-- Puts the heads in order: those that came to their end go, equal ones are joined, heavier ones come
first, and only as many stay as may go on. -/
def settle (s : Stack) : Stack :=
  let s := settleFrom (s.heads.size + 1) 0 s
  { s with heads := s.heads.take headLimit }

theorem size_heads_settle (s : Stack) : s.settle.heads.size ≤ headLimit := by
  simp only [settle, Array.take_eq_extract, Array.size_extract]
  omega

end Stack

end ScopeExit.Grammar
