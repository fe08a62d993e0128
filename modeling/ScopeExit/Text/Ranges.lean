/-!
Sets of code points given as ranges.

A table of a Unicode property is a list of closed ranges in increasing order; membership is a scan
that stops as soon as the ranges lie above the code point.
-/
namespace ScopeExit.Text

/-- Closed ranges of code points, in increasing order. -/
abbrev Ranges := List (Nat × Nat)

/-- A code point lies in one of the ranges. -/
def Ranges.contains : Ranges → Nat → Bool
  | [], _ => false
  | (lo, hi) :: rest, n => if n < lo then false else n ≤ hi || Ranges.contains rest n

/-- The ranges are closed, in increasing order and apart from each other. -/
def Ranges.ordered : Ranges → Bool
  | [] => true
  | [(lo, hi)] => lo ≤ hi
  | (lo, hi) :: (lo', hi') :: rest =>
    lo ≤ hi && hi < lo' && Ranges.ordered ((lo', hi') :: rest)

end ScopeExit.Text
