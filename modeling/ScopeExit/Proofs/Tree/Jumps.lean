import ScopeExit.ExitReason
import ScopeExit.Tree.Placement
/-!
The jumps of a deferred body and what meets them.

The scan of a deferred body lets a jump with a label pass if a statement around it carries the label.
That is enough for a break, but a continue is met by loops only: one that names the label of another
statement leaves the body.  `Targets` tells the labels of loops from the others and says which completions
are met by what surrounds a place; `strays` are the labels of those continues that the scan lets pass and
nothing meets.
-/
namespace ScopeExit.Node

/-! ### Loops and their labels -/

mutual

/-- A loop, or labels in front of one. -/
def isLoopBehind : Node → Bool
  | ⟨kind, _, _, _, children, _, _, _, _⟩ =>
    if kind = .labeled then firstIsLoop children else kind.isLoop

/-- The same for the first of several statements. -/
def firstIsLoop : List Node → Bool
  | [] => false
  | n :: _ => isLoopBehind n

end

theorem isLoopBehind_labeled {n target : Node} (kind : n.kind = .labeled)
    (children : n.children = [target]) : n.isLoopBehind = target.isLoopBehind := by
  obtain ⟨k, value, label, params, cs, a, g, l, span⟩ := n
  simp only at kind children
  simp only [isLoopBehind, kind, if_true, children, firstIsLoop]

theorem isLoopBehind_of_ne {n : Node} (kind : n.kind ≠ .labeled) : n.isLoopBehind = n.kind.isLoop := by
  obtain ⟨k, value, label, params, cs, a, g, l, span⟩ := n
  exact if_neg kind

/-- The label that a node gives to the loop behind it. -/
def loopLabels (n : Node) : List Text :=
  if n.kind = .labeled ∧ n.isLoopBehind = true then n.label.toList else []

theorem loopLabels_of_ne {n : Node} (kind : n.kind ≠ .labeled) : n.loopLabels = [] :=
  if_neg fun h => kind h.1

mutual

/-- The labels of the continues in a part of a deferred body that no loop around them in the body
carries, given the labels of the loops around the part.  Functions and actions inside are bodies of
their own. -/
def strays (loops : List Text) : Node → List Text
  | ⟨kind, value, label, params, children, a, g, l, span⟩ =>
    if kind.isFunction || kind == .defer then []
    else
      (if kind = .continue then label.toList.filter fun l => !loops.contains l else []) ++
        straysIn (loopLabels ⟨kind, value, label, params, children, a, g, l, span⟩ ++ loops) children

/-- The same for several parts. -/
def straysIn (loops : List Text) : List Node → List Text
  | [] => []
  | n :: ns => strays loops n ++ straysIn loops ns

end

/-- The labels of the continues in the deferred bodies of a program that name no loop around them. -/
def strayLabels (program : Node) : List Text :=
  (program.walk.filter fun n => n.kind == .defer).flatMap fun n => straysIn [] n.children

theorem mem_straysIn {loops : List Text} {ns : List Node} {n : Node} (hn : n ∈ ns) {l : Text}
    (h : l ∈ strays loops n) : l ∈ straysIn loops ns := by
  induction ns with
  | nil => contradiction
  | cons m ms ih =>
    rcases List.mem_cons.mp hn with rfl | hn
    · exact List.mem_append_left _ h
    · exact List.mem_append_right _ (ih hn)

/-- The strays of a node are its own and those of its parts. -/
theorem mem_strays {loops : List Text} {n : Node} (function : n.kind.isFunction = false)
    (defer : n.kind ≠ .defer) {l : Text} : l ∈ strays loops n ↔
      (n.kind = .continue ∧ n.label = some l ∧ l ∉ loops) ∨
        l ∈ straysIn (n.loopLabels ++ loops) n.children := by
  obtain ⟨kind, value, label, params, children, a, g, x, span⟩ := n
  simp only at function defer
  simp only [strays, function, Bool.false_or, beq_iff_eq, if_neg defer, List.mem_append]
  by_cases hk : kind = .continue
  · simp [hk, List.mem_filter]
  · simp [hk]

/-! ### What surrounds a place -/

/-- What surrounds a place inside a deferred body. -/
structure Targets extends Surroundings where
  /-- The labels of the loops around the place. -/
  loops : List Text := []

/-- Labels of continues that may leave the deferred bodies of the program in question. -/
class Strays where
  labels : List Text

namespace Targets

/-- What surrounds the parts of a node. -/
def enter (t : Targets) (n : Node) : Targets :=
  ⟨t.toSurroundings.enter n.kind n.label, n.loopLabels ++ t.loops⟩

/-- What surrounds the body of a loop behind labels. -/
def looped (labels : List Text) (t : Targets) : Targets :=
  ⟨{ t.toSurroundings with inLoop := true, inBreakable := true }, labels ++ t.loops⟩

/-- What surrounds the clauses of a switch. -/
def switched (t : Targets) : Targets := ⟨{ t.toSurroundings with inBreakable := true }, t.loops⟩

/-- What surrounds a statement behind labels. -/
def behind (labels : List Text) (t : Targets) : Targets :=
  ⟨{ t.toSurroundings with labels := labels ++ t.labels }, t.loops⟩

/-- The labels in front of a loop. -/
def naming (labels : List Text) (t : Targets) : Targets := ⟨t.toSurroundings, labels ++ t.loops⟩

theorem enter_eq (t : Targets) {n : Node} (labeled : n.kind ≠ .labeled) (loop : n.kind.isLoop = false)
    (switch : n.kind ≠ .switch) : t.enter n = t := by
  simp [enter, Surroundings.enter, labeled, loop, switch, loopLabels_of_ne labeled]

theorem enter_naming (t : Targets) (labels : List Text) {n : Node} (loop : n.kind.isLoop = true) :
    (t.naming labels).enter n = t.looped labels := by
  have labeled : n.kind ≠ .labeled := by
    intro h
    simp [h, NodeKind.isLoop] at loop
  simp [enter, naming, looped, Surroundings.enter, labeled, loop, loopLabels_of_ne labeled]

theorem enter_switch (t : Targets) {n : Node} (kind : n.kind = .switch) : t.enter n = t.switched := by
  simp [enter, switched, Surroundings.enter, kind, NodeKind.isLoop, loopLabels]

theorem enter_labeled (t : Targets) {n : Node} (kind : n.kind = .labeled) :
    t.enter n = (t.behind n.label.toList).naming
      (if n.isLoopBehind = true then n.label.toList else []) := by
  simp [enter, behind, naming, Surroundings.enter, kind, loopLabels]

section Admits

variable [Strays]

/-- A completion may arrive at a place: what surrounds the place meets it, if it is not one that may
leave the body. -/
def Admits (t : Targets) : ExitReason → Prop
  | .normal | .throwing _ => True
  | .iterationEnd => t.inLoop = true
  | .returning _ => False
  | .breaking none => t.inBreakable = true
  | .breaking (some l) => l ∈ t.labels
  | .continuing none => t.inLoop = true
  | .continuing (some l) => l ∈ t.loops ∨ l ∈ Strays.labels

/-- What nothing surrounds is left by failures and strays only. -/
theorem admits_nothing {r : ExitReason} (h : ({} : Targets).Admits r) :
    r = .normal ∨ (∃ f, r = .throwing f) ∨ ∃ l ∈ Strays.labels, r = .continuing (some l) := by
  cases r with
  | normal => exact .inl rfl
  | throwing f => exact .inr (.inl ⟨f, rfl⟩)
  | iterationEnd | returning => simp [Admits] at h
  | breaking label => cases label <;> simp [Admits] at h
  | continuing label =>
    cases label with
    | none => simp [Admits] at h
    | some l =>
      rcases h with h | h
      · contradiction
      · exact .inr (.inr ⟨l, h, rfl⟩)

end Admits

end Targets

/-- The completion of a jump. -/
def jump? (n : Node) : Option ExitReason :=
  match n.kind with
  | .break => some (.breaking n.label)
  | .continue => some (.continuing n.label)
  | .return => some (.returning .undefined)
  | _ => none

end ScopeExit.Node
