import ScopeExit.Grammar.Tables
import ScopeExit.Source.Concrete
/-!
Derivations: how the symbols of a grammar cover a text.

A derivation holds all symbols, also those that leave no node of their own.  Where a text can be read
in several ways, the derivation with the greater weight counts, and among equal weights the one whose
symbols come first.  The concrete syntax tree is what remains of a derivation when the hidden symbols
are left out and the others appear under the names and parts that the productions give them.
-/
namespace ScopeExit.Grammar

/-- A symbol over a stretch of a text. -/
inductive Derivation where
  /-- A token.  Extra tokens stand between the steps of a production. -/
  | token (symbol : Symbol) (start stop : Nat) (isExtra : Bool)
  | node (production : Production) (start stop : Nat) (weight : Int) (children : List Derivation)
  deriving Inhabited

namespace Derivation

/-- The symbol. -/
def symbol : Derivation → Symbol
  | .token symbol .. => symbol
  | .node p .. => p.owner

/-- The first byte. -/
def start : Derivation → Nat
  | .token _ start .. | .node _ start .. => start

/-- The byte after the last one. -/
def stop : Derivation → Nat
  | .token _ _ stop _ | .node _ _ stop .. => stop

/-- It stands between the steps of a production. -/
def isExtra : Derivation → Bool
  | .token _ _ _ isExtra => isExtra
  | .node .. => false

/-- How much a derivation is preferred. -/
def weight : Derivation → Int
  | .token .. => 0
  | .node _ _ _ weight _ => weight

/-- The parts. -/
def children : Derivation → List Derivation
  | .token .. => []
  | .node _ _ _ _ children => children

/-- The weight of several derivations. -/
def weightOf (trees : List Derivation) : Int := trees.foldl (fun w d => w + d.weight) 0

/-- The derivation of a production from those of its steps, without the weight of the production.
One without children stands at the given byte. -/
def build (p : Production) (offset : Nat) (children : List Derivation) : Derivation :=
  let start := (children.head?.map Derivation.start).getD offset
  let stop := (children.getLast?.map Derivation.stop).getD offset
  .node p start stop (weightOf children) children

/-- Adds the weight of the production. -/
def weighed : Derivation → Derivation
  | .node p start stop weight children => .node p start stop (weight + p.weight) children
  | t => t

/-! ### Which derivation counts -/

mutual

/-- Derivations in the order of their symbols, from the top and from the left. -/
def order : Derivation → Derivation → Ordering
  | .token s .., .token t .. => compare s t
  | .token s .., .node q _ _ _ ds => (compare s q.owner).then (compare 0 ds.length)
  | .node p _ _ _ cs, .token t .. => (compare p.owner t).then (compare cs.length 0)
  | .node p _ _ _ cs, .node q _ _ _ ds =>
    ((compare p.owner q.owner).then (compare cs.length ds.length)).then (orderAll cs ds)

/-- Lists of derivations in the order of their first difference. -/
def orderAll : List Derivation → List Derivation → Ordering
  | c :: cs, d :: ds => (order c d).then (orderAll cs ds)
  | _, _ => .eq

end

/-- The second derivation counts more than the first. -/
def outweighs (old new : Derivation) : Bool :=
  if old.weight < new.weight then true
  else if new.weight < old.weight then false
  else order old new == .gt

mutual

theorem order_self : (d : Derivation) → order d d = .eq
  | .token .. => by simp [order]
  | .node _ _ _ _ children => by simp [order, orderAll_self children]

theorem orderAll_self : (ds : List Derivation) → orderAll ds ds = .eq
  | [] => by simp [orderAll]
  | d :: ds => by simp [orderAll, order_self d, orderAll_self ds]

end

/-- A derivation that has been found once is not replaced by itself. -/
theorem outweighs_self (d : Derivation) : d.outweighs d = false := by
  simp [outweighs, order_self]

/-! ### Concrete syntax -/

/-- How a symbol appears in its parent: under which name, with which name of its own, and in which
part. -/
structure Appearance where
  renamed : Option (String × Bool) := none
  field : Option String := none

/-- The node of a symbol with the given children, in front of other nodes.  A hidden symbol leaves its
children. -/
def nodeBefore (t : Tables) (d : Derivation) (as : Appearance) (own : List SourceNode)
    (behind : List SourceNode) : List SourceNode :=
  let info := t.info d.symbol
  let (type, isNamed) := as.renamed.getD (info.name, info.isNamed)
  { type, isNamed, field := as.field, start := d.start, stop := d.stop, children := own } :: behind

/-- A symbol leaves no node. -/
def leavesNone (t : Tables) (d : Derivation) (as : Appearance) : Bool :=
  as.renamed.isNone && (t.info d.symbol).isHidden

mutual

/-- The nodes that a derivation leaves, in front of other nodes.  The nodes inside a hidden symbol
play its part unless they play one there. -/
def nodesBefore (t : Tables) (as : Appearance) (behind : List SourceNode) :
    Derivation → List SourceNode
  | .token s start stop isExtra =>
    let d := Derivation.token s start stop isExtra
    if s = 0 || d.leavesNone t as then behind else d.nodeBefore t as [] behind
  | .node p start stop weight children =>
    let d := Derivation.node p start stop weight children
    if d.leavesNone t as then nodesOfAllBefore t as.field p.steps behind children
    else d.nodeBefore t as (nodesOfAllBefore t none p.steps [] children) behind

/-- The nodes that the derivations of steps leave, in front of other nodes. -/
def nodesOfAllBefore (t : Tables) (field : Option String) (steps : List Step)
    (behind : List SourceNode) : List Derivation → List SourceNode
  | [] => behind
  | d :: ds =>
    if d.isExtra then nodesBefore t {} (nodesOfAllBefore t field steps behind ds) d
    else
      match steps with
      | [] => nodesBefore t {} (nodesOfAllBefore t field [] behind ds) d
      | s :: steps =>
        nodesBefore t ⟨s.renamed, s.field.or field⟩ (nodesOfAllBefore t field steps behind ds) d

end

/-- The concrete syntax tree of a derivation that leaves a single node. -/
def toSource? (t : Tables) (d : Derivation) : Option SourceNode := (nodesBefore t {} [] d).head?

end Derivation

end ScopeExit.Grammar
