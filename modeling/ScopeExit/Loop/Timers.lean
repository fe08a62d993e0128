import ScopeExit.Number.Binary64
/-!
Timers, the earliest deadline first.

The timers form a binary heap in an array: no timer comes before the one at half its place.  Equal
deadlines are taken in the order of their creation.  A deadline that is not a number comes before no
other and no other before it, so such a timer stays where it was put until the timers above it have
gone.
-/
namespace ScopeExit

/-- A deadline and the promise that is settled when it has passed. -/
structure Timer where
  deadline : Float
  /-- How many timers were made before this one. -/
  order : Nat
  promise : Nat
  deriving Inhabited

namespace Timer

/-- The deadline as an exact value. -/
def at? (t : Timer) : Number := .float t.deadline

/-- A timer that goes off before another one. -/
def before (a b : Timer) : Bool :=
  a.at?.lt b.at? || (a.at?.eqv b.at? && a.order < b.order)

end Timer

/-- A heap of timers. -/
structure Timers where
  entries : Array Timer := #[]
  deriving Inhabited

namespace Timers

/-- Moves a timer from a place toward the root until its parent is not later. -/
def moveUp (entries : Array Timer) (t : Timer) : Nat → Nat → Array Timer
  | 0, place => entries.setIfInBounds place t
  | fuel + 1, place =>
    if place = 0 then entries.setIfInBounds place t
    else
      let parent := entries.getD ((place - 1) / 2) default
      if t.before parent then moveUp (entries.setIfInBounds place parent) t fuel ((place - 1) / 2)
      else entries.setIfInBounds place t

/-- Moves the earlier child of every place up, from the root to a leaf; gives the leaf's place. -/
def openLeaf (entries : Array Timer) : Nat → Nat → Array Timer × Nat
  | 0, place => (entries, place)
  | fuel + 1, place =>
    let left := 2 * place + 1
    if left < entries.size then
      let right := left + 1
      let child :=
        if right < entries.size &&
            !(entries.getD left default).before (entries.getD right default) then right
        else left
      openLeaf (entries.setIfInBounds place (entries.getD child default)) fuel child
    else (entries, place)

/-- One more timer. -/
def insert (ts : Timers) (t : Timer) : Timers :=
  ⟨moveUp (ts.entries.push t) t ts.entries.size ts.entries.size⟩

/-- The timer that goes off first. -/
def first? (ts : Timers) : Option Timer := ts.entries[0]?

/-- The timers without the one that goes off first. -/
def dropFirst (ts : Timers) : Timers :=
  match ts.entries.back? with
  | none => ts
  | some last =>
    let rest := ts.entries.pop
    if rest.isEmpty then ⟨rest⟩
    else
      let (entries, leaf) := openLeaf rest rest.size 0
      ⟨moveUp entries last entries.size leaf⟩

end Timers

end ScopeExit
