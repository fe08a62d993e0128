import ScopeExit.Proofs.Script.Assignment
import ScopeExit.Proofs.Script.Exits
/-!
The passes of a `for` loop.

If the head of a `for` loop declares names with `let` or `const`, every pass has a scope of its own.  When a
pass is over the scope of the next one is made, with the values that the names have got by then, and all that
comes, the update first, runs in the new scope.  These scopes stand beside each other, inside the one that the
loop is in.  No code is inside two of them, so the code of a pass never assigns what the code of another one
reads.

With `var` there is one scope for the whole loop, and it binds nothing: the names belong to the function.
-/
namespace ScopeExit.Script

open World

/-! ### Standing in a loop -/

/-- The loop of a frame, and the scope of the pass. -/
def Frame.loop? : Frame → Option (CountingLoop × Nat)
  | .forStart loop scope | .forCondition loop scope | .forPass loop scope | .forStep loop scope => some (loop, scope)
  | _ => none

/-- No boundary stands between the code that runs and a stack below. -/
def Running.Atop (stack : Stack) (s : Running) : Prop :=
  ∃ upper, s.stack = upper ++ stack ∧ ∀ f ∈ upper, f.isBoundary = false

/-- The head, the update, the condition or the body of a loop is running, with the scope of a pass. -/
def Running.Under (loop : CountingLoop) (i : Nat) (s : Running) : Prop :=
  ∃ f stack, f.loop? = some (loop, i) ∧ s.Atop (f :: stack)

/-- A loop comes to its next pass: the head has run, or a pass is over and the loop goes on. -/
inductive Running.Renews (loop : CountingLoop) (i : Nat) : Running → Prop
  | start {w : World} {reason : ExitReason} {stack : Stack} (calm : reason.isAbrupt = false) :
      Renews loop i ⟨w, .complete reason, .forStart loop i :: stack⟩
  | pass {w : World} {reason : ExitReason} {stack : Stack} (goesOn : afterPass reason loop.labels = none) :
      Renews loop i ⟨w, .complete reason, .forPass loop i :: stack⟩

section Standing

variable {w : World} {loop : CountingLoop} {stack : Stack} {scope i j : Nat} {s t : Running} {name : Text}

theorem Frame.loopScope?_of_loop? {f : Frame} (own : f.loop? = some (loop, i)) : f.loopScope? = some i := by
  cases f <;> cases own <;> rfl

theorem atop_enterFrame (kind : FrameKind) (span : Span) (statements : List Node) (atEnd : ExitReason) :
    (w.enterFrame stack kind span scope statements atEnd).Atop stack := by
  simp only [World.enterFrame, World.openFrame]
  split
  · exact ⟨[.statements statements scope, .scopeBody _ _ atEnd], rfl, by simp [Frame.isBoundary]⟩
  · exact ⟨[.scopeBody _ _ atEnd], rfl, by simp [Frame.isBoundary]⟩

theorem under_testFor (loop : CountingLoop) (scope : Nat) : (w.testFor stack loop scope).Under loop scope := by
  unfold World.testFor
  split
  · exact ⟨.forPass loop scope, stack, rfl, atop_enterFrame ..⟩
  · exact ⟨.forCondition loop scope, stack, rfl, [], rfl, List.forall_mem_nil _⟩

/-- What a loop does when it comes to its next pass: it has a scope for it, and updates or tests there. -/
theorem Running.Renews.next (h : s.Renews loop i) :
    s.step = .next ((s.world.copyScope loop i).2.testFor s.stack.tail loop (s.world.copyScope loop i).1) ∨
      s.step = .next ⟨(s.world.copyScope loop i).2, .evaluate loop.step (s.world.copyScope loop i).1,
        .forStep loop (s.world.copyScope loop i).1 :: s.stack.tail⟩ := by
  cases h with
  | @start w reason stack calm =>
    refine .inl ?_
    simp only [Running.step, World.onComplete, calm]
    rfl
  | @pass w reason stack goesOn =>
    simp only [Running.step, World.onComplete, World.afterPassThen, goesOn, World.stepFor, List.tail_cons]
    split
    · exact .inl rfl
    · exact .inr rfl

theorem Running.Renews.under (h : s.Renews loop i) (next : s.step = .next t) :
    t.Under loop (s.world.copyScope loop i).1 := by
  rcases h.next with e | e
  · rw [Transition.next.inj (next.symm.trans e)]
    exact under_testFor ..
  · rw [Transition.next.inj (next.symm.trans e)]
    exact ⟨.forStep loop _, s.stack.tail, rfl, [], rfl, List.forall_mem_nil _⟩

/-- The update is followed by the test of the condition in the scope of the same pass. -/
theorem under_of_forStep {v : Value} :
    ∃ t, Running.step ⟨w, .value v, .forStep loop i :: stack⟩ = .next t ∧ t.Under loop i :=
  ⟨_, rfl, under_testFor loop i⟩

/-- The condition is followed by the body in the scope of the same pass, or by the end of the loop. -/
theorem under_of_forCondition {v : Value} :
    ∃ t, Running.step ⟨w, .value v, .forCondition loop i :: stack⟩ = .next t ∧ (t.Under loop i ∨ t.stack = stack) := by
  refine ⟨_, rfl, ?_⟩
  simp only [World.onValue, World.branch, World.attempt]
  cases v.truthy with
  | error failure => exact .inr rfl
  | ok b =>
    cases b with
    | true => exact .inl ⟨.forPass loop i, stack, rfl, atop_enterFrame ..⟩
    | false => exact .inr rfl

/-! ### What a new pass leaves alone -/

theorem keeps_hoist (scope : Nat) (statements : List Node) :
    w.scopes.Keeps (fun k _ => k = scope) (w.hoist scope statements).1.scopes := by
  induction statements generalizing w with
  | nil => exact .refl _
  | cons s rest ih =>
    unfold World.hoist
    split
    · have made : (w.makeFunction s scope).2.scopes = w.scopes := by
        unfold World.makeFunction
        split <;> rfl
      split
      · rename_i v w' e
        rw [e] at made
        have bound : w.scopes.Keeps (fun k _ => k = scope) (w'.bind scope s.name v).scopes :=
          made ▸ w'.scopes.keeps_bind v rfl
        exact bound.trans ih
      · rename_i failure w' e
        rw [e] at made
        exact made ▸ .refl _
    · exact ih

theorem keeps_enterFrame (kind : FrameKind) (span : Span) (statements : List Node) (atEnd : ExitReason) :
    w.scopes.Keeps (fun k _ => k = scope) (w.enterFrame stack kind span scope statements atEnd).world.scopes := by
  have hoisted : ∀ {w₁ w' : World} {failure? : Option Failure}, w₁.scopes = w.scopes →
      w₁.hoist scope statements = (w', failure?) → w.scopes.Keeps (fun k _ => k = scope) w'.scopes := by
    intro w₁ w' failure? same e
    have kept := @keeps_hoist w₁ scope statements
    rw [e, same] at kept
    exact kept
  simp only [World.enterFrame, World.openFrame]
  split
  · rename_i e
    refine hoisted ?_ e
    rfl
  · rename_i e
    refine hoisted ?_ e
    rfl

/-- The scopes that are there keep their bindings when the body of a loop is entered. -/
theorem keeps_runPass (body : Node) :
    w.scopes.Keeps (fun k _ => w.scopes.all.size ≤ k) (w.runPass stack body scope).world.scopes := by
  intro k name old
  have inside : k < w.scopes.all.size := Nat.lt_of_not_le old
  have entered := @keeps_enterFrame (w.childScope scope).2 stack w.scopes.all.size .loopIterationBody body.span
    (if body.kind = .block then body.children else [body]) .iterationEnd
  exact (entered k name (Nat.ne_of_lt inside)).trans (w.scopes.binding?_add _ name inside)

theorem keeps_testFor (loop : CountingLoop) :
    w.scopes.Keeps (fun k _ => w.scopes.all.size ≤ k) (w.testFor stack loop scope).world.scopes := by
  unfold World.testFor
  split
  · exact keeps_runPass _
  · exact .refl _

/-- What a loop comes to its next pass with is a new scope; those that are there keep their bindings. -/
theorem Running.Renews.keeps (h : s.Renews loop i) (next : s.step = .next t) :
    s.world.scopes.Keeps (fun k _ => s.world.scopes.all.size ≤ k) t.world.scopes := by
  intro k name old
  have inside : k < s.world.scopes.all.size := Nat.lt_of_not_le old
  obtain ⟨copied, grown⟩ : (s.world.copyScope loop i).2.scopes.binding? k name = s.world.scopes.binding? k name ∧
      s.world.scopes.all.size ≤ (s.world.copyScope loop i).2.scopes.all.size := by
    unfold World.copyScope
    split
    · exact ⟨s.world.scopes.binding?_add _ name inside, (s.world.scopes.grows_add _).size⟩
    · exact ⟨rfl, Nat.le_refl _⟩
  rcases h.next with e | e
  · rw [Transition.next.inj (next.symm.trans e)]
    exact (keeps_testFor loop k name (by omega)).trans copied
  · rw [Transition.next.inj (next.symm.trans e)]
    exact copied

/-- When a loop comes to its next pass, a copy of the scope of the last one is made, and then the code goes on.
The rule for the copy may be a new one. -/
theorem Running.Renews.copies {may may' assigned : Nat → Text → Prop} (renews : s.Renews loop i)
    (own : loop.perPass = true) (tidy : s.Tidy may) (old : ∀ k < s.world.scopes.all.size, ∀ name, may k name → may' k name)
    (allows : (s.world.scopes.copy i).2.Allows may') (next : s.step = .next t) :
    t.Tends may' assigned { s.world with scopes := (s.world.scopes.copy i).2 } := by
  obtain ⟨f, hs, scope?⟩ : ∃ f, s.stack = f :: s.stack.tail ∧ f.loopScope? = some i := by
    cases renews <;> exact ⟨_, rfl, rfl⟩
  have stack := tidy.stack
  rw [hs] at stack
  obtain ⟨p, parent, admits⟩ := stack.1.inner i scope?
  have bears : World.Bears may' { s.world with scopes := (s.world.scopes.copy i).2 } s.stack.tail :=
    World.Bears.extend ⟨tidy.world, stack.2⟩ (fun q hq => Option.some.inj (parent.symm.trans hq) ▸ admits.born) old allows
  have inside : Stack.AdmitsLoop (s.world.scopes.copy i).2 s.stack.tail s.world.scopes.all.size := .add admits parent
  have copied : s.world.copyScope loop i =
      (s.world.scopes.all.size, { s.world with scopes := (s.world.scopes.copy i).2 }) := by
    rw [World.copyScope, if_pos own]
    rfl
  have steps := renews.next
  rw [copied] at steps
  rcases steps with e | e
  · rw [Transition.next.inj (next.symm.trans e)]
    exact tends_testFor bears loop inside
  · rw [Transition.next.inj (next.symm.trans e)]
    obtain ⟨bears, admits⟩ := bears_loop (f := .forStep loop s.world.scopes.all.size) bears inside rfl rfl fun _ _ => id
    exact .evaluates bears admits

end Standing

/-! ### The scopes of the passes -/

/-- How far a loop has come since its head was started: the scopes of its passes so far, the last one first. -/
inductive CountingLoop.Reaches (loop : CountingLoop) (head : Nat) (s : Running) : List Nat → Running → Prop
  | start : Reaches loop head s [] s
  | goesOn {passes : List Nat} {t t' : Running} (before : Reaches loop head s passes t) (next : t.step = .next t')
      (stays : ¬ (loop.perPass = true ∧ t.Renews loop (passes.headD head))) : Reaches loop head s passes t'
  | renews {passes : List Nat} {t t' : Running} (before : Reaches loop head s passes t)
      (own : loop.perPass = true) (renews : t.Renews loop (passes.headD head)) (next : t.step = .next t') :
      Reaches loop head s (t.world.scopes.all.size :: passes) t'
  | reorder {passes : List Nat} {w : World} {stack : Stack} {tasks : Loop Stack}
      (before : Reaches loop head s passes ⟨w, .parked, stack⟩) (other : w.loop.Reorders tasks) :
      Reaches loop head s passes ⟨{ w with loop := tasks }, .parked, stack⟩

/-- Statements bind no names in the scopes of passes, and in that of the head those of the head only. -/
def passRule (names : List Text) (head : Nat) (passes : List Nat) : Nat → Text → Prop :=
  fun k name => (k = head → name ∈ names) ∧ k ∉ passes

/-- The scopes of a head and of passes stand beside each other and bind nothing but the names of the head. -/
structure Running.Carries (names : List Text) (outer head : Nat) (passes : List Nat) (s : Running) : Prop where
  tidy : s.Tidy (passRule names head passes)
  distinct : (head :: passes).Nodup
  parent : ∀ k ∈ head :: passes, (s.world.scopes.get k).parent = some outer
  inner : ∀ k ∈ head :: passes, (s.world.scopes.get k).isFunction = false
  own : ∀ k ∈ head :: passes, ∀ name, (s.world.scopes.binding? k name).isSome = true → name ∈ names

section Carrying

variable {config : Config} {program : Node} {L : Ledger} {loop : CountingLoop} {names : List Text}
  {outer head k : Nat} {passes : List Nat} {s t : Running} {name : Text}

theorem passRule_of_closed (mem : k ∈ head :: passes) (closed : name ∉ names) : ¬ passRule names head passes k name := by
  rintro ⟨headed, later⟩
  rcases List.mem_cons.mp mem with rfl | mem
  · exact closed (headed rfl)
  · exact later mem

theorem headD_mem (head : Nat) (passes : List Nat) : passes.headD head ∈ head :: passes := by
  cases passes with
  | nil => exact List.mem_singleton_self _
  | cons k passes => exact List.mem_cons_of_mem _ (List.mem_cons_self ..)

namespace Running.Carries

theorem born (h : s.Carries names outer head passes) (mem : k ∈ head :: passes) : k < s.world.scopes.all.size :=
  Scopes.lt_of_parent (h.parent k mem)

/-- Steps leave the scopes where they are, and bind no other names in them. -/
theorem step (h : s.Carries names outer head passes)
    (tends : t.Tends (passRule names head passes) s.Rebinds s.world) : t.Carries names outer head passes where
  tidy := tends.code
  distinct := h.distinct
  parent k mem := (tends.grows.parent k (h.born mem)).trans (h.parent k mem)
  inner k mem := (tends.grows.isFunction k (h.born mem)).trans (h.inner k mem)
  own k mem name bound := by
    by_contra other
    have closed : ¬ (passRule names head passes k name ∨ s.Rebinds k name) := by
      rintro (may | ⟨i, -, resolves⟩)
      · exact passRule_of_closed mem other may
      · exact other (h.own k mem name (Scopes.resolve?_some resolves).2)
    rw [tends.keeps k name closed] at bound
    exact other (h.own k mem name bound)

/-- A scope for another pass is added. -/
theorem allows_copy (h : s.Carries names outer head passes) {scope : Scope} (parent : scope.parent = some outer)
    (inner : scope.isFunction = false) :
    (s.world.scopes.add scope).2.Allows (passRule names head (s.world.scopes.all.size :: passes)) := by
  have grows := s.world.scopes.grows_add scope
  constructor
  · intro k later name
    rw [Scopes.size_add] at later
    refine ⟨fun own => ?_, fun mem => ?_⟩
    · have := h.born (own ▸ List.mem_cons_self .. : k ∈ head :: passes)
      omega
    · rcases List.mem_cons.mp mem with rfl | mem
      · omega
      · have := h.born (List.mem_cons_of_mem _ mem)
        omega
  · intro k name closed
    have mem : k = s.world.scopes.all.size ∨ k ∈ head :: passes := by
      by_contra outside
      rw [not_or, List.mem_cons, not_or] at outside
      refine closed ⟨fun own => absurd own outside.2.1, fun mem => ?_⟩
      exact (List.mem_cons.mp mem).elim outside.1 outside.2.2
    rcases mem with rfl | mem
    · rw [Scopes.get_add, parent, inner]
      exact ⟨rfl, rfl⟩
    · rw [grows.isFunction k (h.born mem), grows.parent k (h.born mem), h.inner k mem, h.parent k mem]
      exact ⟨rfl, rfl⟩

/-- Nothing has to do yet with the scope for another pass. -/
theorem copies (h : s.Carries names outer head passes) (own : loop.perPass = true)
    (renews : s.Renews loop (passes.headD head)) (next : s.step = .next t) :
    t.Tends (passRule names head (s.world.scopes.all.size :: passes)) (fun _ _ => False)
      { s.world with scopes := (s.world.scopes.copy (passes.headD head)).2 } := by
  refine renews.copies own h.tidy (fun k old name may => ⟨may.1, ?_⟩)
    (h.allows_copy (h.parent _ (headD_mem head passes)) rfl) next
  rw [List.mem_cons, not_or]
  exact ⟨Nat.ne_of_lt old, may.2⟩

/-- The new scope has the values of the scope that was copied, and the other scopes keep theirs. -/
theorem binding?_copies (h : s.Carries names outer head passes) (own : loop.perPass = true)
    (renews : s.Renews loop (passes.headD head)) (next : s.step = .next t) (name : Text) :
    t.world.scopes.binding? s.world.scopes.all.size name = s.world.scopes.binding? (passes.headD head) name := by
  have tends := h.copies own renews next
  have closed : ¬ (passRule names head (s.world.scopes.all.size :: passes) s.world.scopes.all.size name ∨ False) :=
    fun may => (may.resolve_right id).2 (List.mem_cons_self ..)
  rw [tends.keeps s.world.scopes.all.size name closed, Scopes.copy, Scopes.binding?, Scopes.get_add]
  rfl

theorem renew (h : s.Carries names outer head passes) (own : loop.perPass = true)
    (renews : s.Renews loop (passes.headD head)) (next : s.step = .next t) :
    t.Carries names outer head (s.world.scopes.all.size :: passes) := by
  have tends := h.copies own renews next
  obtain ⟨scope, hscope⟩ : ∃ scope : Scope, scope = { s.world.scopes.get (passes.headD head) with isFunction := false } :=
    ⟨_, rfl⟩
  rw [Scopes.copy, ← hscope] at tends
  have grows : s.world.scopes.Grows t.world.scopes := (s.world.scopes.grows_add scope).trans tends.grows
  have fresh : s.world.scopes.all.size < (s.world.scopes.add scope).2.all.size := by
    rw [Scopes.size_add]
    omega
  have split : ∀ {k}, k ∈ head :: s.world.scopes.all.size :: passes → k = s.world.scopes.all.size ∨ k ∈ head :: passes := by
    intro k mem
    rw [List.mem_cons, List.mem_cons] at mem
    rw [List.mem_cons]
    exact mem.elim (fun e => .inr (.inl e)) fun mem => mem.imp_right .inr
  refine ⟨tends.code, ?_, fun k mem => ?_, fun k mem => ?_, fun k mem name bound => ?_⟩
  · have absent : s.world.scopes.all.size ∉ head :: passes := fun mem => Nat.lt_irrefl _ (h.born mem)
    rw [List.mem_cons, not_or] at absent
    obtain ⟨first, others⟩ := List.nodup_cons.mp h.distinct
    refine List.nodup_cons.mpr ⟨fun mem => ?_, List.nodup_cons.mpr ⟨absent.2, others⟩⟩
    exact (List.mem_cons.mp mem).elim (Ne.symm absent.1) first
  · rcases split mem with rfl | mem
    · rw [tends.grows.parent _ fresh, Scopes.get_add, hscope]
      exact h.parent _ (headD_mem head passes)
    · exact (grows.parent k (h.born mem)).trans (h.parent k mem)
  · rcases split mem with rfl | mem
    · rw [tends.grows.isFunction _ fresh, Scopes.get_add, hscope]
    · exact (grows.isFunction k (h.born mem)).trans (h.inner k mem)
  · rcases split mem with rfl | old
    · rw [h.binding?_copies own renews next] at bound
      exact h.own _ (headD_mem head passes) name bound
    · by_contra other
      have kept := tends.keeps k name fun may => passRule_of_closed mem other (may.resolve_right id)
      rw [kept, Scopes.binding?_add _ _ _ (h.born old)] at bound
      exact other (h.own k old name bound)

end Running.Carries

/-! ### The start of a loop -/

/-- A step starts a loop in a scope, with labels in front of it or without. -/
inductive Running.Begins (node : Node) (outer : Nat) : Running → Prop
  | plain {w : World} {stack : Stack} : Begins node outer ⟨w, .execute node outer, stack⟩
  | labeled {w : World} {stack : Stack} {statement : Node} {labels : List (Option Text)}
      (kind : statement.kind = .labeled) (behind : unlabeled [] statement = .ok (labels, node)) :
      Begins node outer ⟨w, .execute statement outer, stack⟩

/-- The names that the head of a loop declares for its passes; those of a `var` belong to the function. -/
def passNames (start : Node) : List Text :=
  if start.name == "var" then [] else start.children.map Node.name

theorem executeTarget_forLoop {w : World} {stack : Stack} {node start condition step body : Node}
    (kind : node.kind = .forLoop) (parts : node.children = [start, condition, step, body])
    (declares : start.kind = .declaration) (labels : List Text) :
    w.executeTarget stack node outer labels =
      ⟨(w.childScope outer).2, .execute start w.scopes.all.size,
        .forStart { condition, step, body, labels, perPass := start.name != "var" } w.scopes.all.size :: stack⟩ := by
  simp only [World.executeTarget, kind, parts, Node.isEmpty, declares]
  rfl

/-- The head of a loop has got a scope, and nothing but its own declaration has to do with it. -/
theorem carries_start {w : World} {stack : Stack} {start : Node} (h : w.Bears anywhere stack)
    (admits : stack.Admits w.scopes outer) (declares : start.kind = .declaration) (loop : CountingLoop) :
    Running.Carries (passNames start) outer w.scopes.all.size []
      ⟨(w.childScope outer).2, .execute start w.scopes.all.size, .forStart loop w.scopes.all.size :: stack⟩ := by
  have parent : ((w.childScope outer).2.scopes.get w.scopes.all.size).parent = some outer := by
    rw [World.childScope, Scopes.child, Scopes.get_add]
  have inner : ((w.childScope outer).2.scopes.get w.scopes.all.size).isFunction = false := by
    rw [World.childScope, Scopes.child, Scopes.get_add]
  have allows : (w.childScope outer).2.scopes.Allows (passRule (passNames start) w.scopes.all.size []) := by
    constructor
    · intro k later name
      have size : (w.childScope outer).2.scopes.all.size = w.scopes.all.size + 1 := Scopes.size_add ..
      exact ⟨fun own => by omega, List.not_mem_nil⟩
    · intro k name closed
      obtain rfl : k = w.scopes.all.size := by
        by_contra other
        exact closed ⟨fun own => absurd own other, List.not_mem_nil⟩
      rw [parent, inner]
      exact ⟨rfl, rfl⟩
  have bears : (w.childScope outer).2.Bears (passRule (passNames start) w.scopes.all.size []) stack := by
    refine h.extend (fun p hp => ?_) (fun k old name _ => ⟨fun own => ?_, List.not_mem_nil⟩) allows
    · exact Option.some.inj hp ▸ admits.born
    · omega
  obtain ⟨bears, inside⟩ := bears_loop (f := .forStart loop w.scopes.all.size) bears (.child admits) rfl rfl
    fun _ _ => id
  refine ⟨⟨bears, fun i hi => List.mem_singleton.mp hi ▸ inside, fun i name binds => ⟨fun _ => ?_, List.not_mem_nil⟩⟩,
    List.nodup_singleton _, fun k mem => ?_, fun k mem => ?_, fun k mem name bound => ?_⟩
  · obtain ⟨other, mem⟩ := binds.2 declares
    rw [passNames, other]
    exact mem
  · exact List.mem_singleton.mp mem ▸ parent
  · exact List.mem_singleton.mp mem ▸ inner
  · rw [List.mem_singleton.mp mem, World.childScope, Scopes.child, Scopes.binding?, Scopes.get_add] at bound
    contradiction

/-- A loop whose head declares names starts with a scope of its own for the head. -/
theorem Running.Begins.carries {node start condition step body : Node} (begins : s.Begins node outer)
    (kind : node.kind = .forLoop) (parts : node.children = [start, condition, step, body])
    (declares : start.kind = .declaration) (tidy : s.Tidy anywhere) :
    ∃ (loop : CountingLoop) (s₁ : Running), s.step = .next s₁ ∧
      (loop.condition = condition ∧ loop.step = step ∧ loop.body = body ∧ loop.perPass = (start.name != "var")) ∧
      s₁.control = .execute start s.world.scopes.all.size ∧ s₁.Under loop s.world.scopes.all.size ∧
      s₁.Carries (passNames start) outer s.world.scopes.all.size [] := by
  have begun : ∀ {w : World} {stack : Stack} (labels : List Text), w.Bears anywhere stack → stack.Admits w.scopes outer →
      ∃ (loop : CountingLoop) (s₁ : Running), w.executeTarget stack node outer labels = s₁ ∧
        (loop.condition = condition ∧ loop.step = step ∧ loop.body = body ∧ loop.perPass = (start.name != "var")) ∧
        s₁.control = .execute start w.scopes.all.size ∧ s₁.Under loop w.scopes.all.size ∧
        s₁.Carries (passNames start) outer w.scopes.all.size [] := by
    intro w stack labels h admits
    refine ⟨{ condition, step, body, labels, perPass := start.name != "var" }, _,
      executeTarget_forLoop kind parts declares labels, ⟨rfl, rfl, rfl, rfl⟩, rfl, ?_,
      carries_start h admits declares _⟩
    exact ⟨.forStart _ _, stack, rfl, [], rfl, List.forall_mem_nil _⟩
  cases begins with
  | @plain w stack =>
    have counted : w.Advances anywhere anywhere { w with stats := { w.stats with statements := w.stats.statements + 1 } } :=
      tidy.world.same rfl rfl rfl rfl rfl
    have bears := (tidy.toBears.advance counted).mark (f := .statementEnd) rfl rfl
    obtain ⟨loop, s₁, e, rest⟩ := begun [] bears ((tidy.control.scopes outer (List.mem_singleton_self _)).push rfl)
    refine ⟨loop, s₁, ?_, rest⟩
    rw [← e]
    simp only [Running.step, World.execute, kind, isCompound, World.executeCompound]
    rfl
  | @labeled w stack statement labels labeled behind =>
    have counted : w.Advances anywhere anywhere { w with stats := { w.stats with statements := w.stats.statements + 1 } } :=
      tidy.world.same rfl rfl rfl rfl rfl
    have bears := ((tidy.toBears.advance counted).mark (f := .statementEnd) rfl rfl).mark (f := .labeled labels) rfl rfl
    obtain ⟨loop, s₁, e, rest⟩ := begun (labels.filterMap id) bears
      (((tidy.control.scopes outer (List.mem_singleton_self _)).push rfl).push rfl)
    refine ⟨loop, s₁, ?_, rest⟩
    rw [← e]
    simp only [Running.step, World.execute, labeled, isCompound, World.executeCompound, World.executeLabeled, behind,
      World.attempt, World.perform, kind, NodeKind.isLoop]
    rfl

/-! ### Code of a pass -/

/-- A step is one of the code of a pass:  the update, the condition or the body of the loop is running for it, or
what assigns is code inside of its scope, such as that of a function or of an action that was made there. -/
def Running.InPass (loop : CountingLoop) (i : Nat) (s : Running) : Prop :=
  s.Under loop i ∨ ∃ name scope, s.Assigns name scope ∧ s.world.scopes.Encloses i scope

/-- What is so of a loop whose head and passes have certain scopes, inside of another scope. -/
structure CountingLoop.Separates (loop : CountingLoop) (names : List Text) (outer head : Nat) (passes : List Nat)
    (s : Running) : Prop where
  /-- The passes have scopes of their own. -/
  distinct : (head :: passes).Nodup
  /-- The scopes bind the names of the head. -/
  own : ∀ k ∈ head :: passes, ∀ name, (s.world.scopes.binding? k name).isSome = true → name ∈ names
  /-- Other names mean in a pass what they mean around the loop. -/
  shared : ∀ k ∈ head :: passes, ∀ name ∉ names,
    s.world.scopes.resolve? k name = s.world.scopes.resolve? outer name
  /-- No scope is inside of two passes. -/
  apart : ∀ j ∈ head :: passes, ∀ k ∈ head :: passes, j ≠ k → ∀ i, s.world.scopes.Encloses j i →
    ¬ s.world.scopes.Encloses k i
  /-- The update, the condition and the body run inside of the pass. -/
  inside : ∀ k, s.Under loop k → (∀ i ∈ s.control.scopes, s.world.scopes.Encloses k i) ∧
    ∀ name i, s.Assigns name i → s.world.scopes.Encloses k i
  /-- From the update to the condition and on to the body the loop stays in the same pass. -/
  onward : ∀ k w v stack, (s = ⟨w, .value v, .forStep loop k :: stack⟩ → ∃ t, s.step = .next t ∧ t.Under loop k) ∧
    (s = ⟨w, .value v, .forCondition loop k :: stack⟩ → ∃ t, s.step = .next t ∧ (t.Under loop k ∨ t.stack = stack))
  /-- Inside of a pass its names mean its own bindings, or nearer ones. -/
  means : ∀ k ∈ head :: passes, ∀ i < s.world.scopes.all.size, s.world.scopes.Encloses k i →
    ∀ name, (s.world.scopes.binding? k name).isSome = true → ∃ j, s.world.scopes.resolve? i name = some j ∧
      s.world.scopes.Encloses k j ∧ s.world.scopes.Encloses j i
  /-- What is assigned to such a binding is there from then on. -/
  written : ∀ k ∈ head :: passes, ∀ name i v, s.Puts name i v → s.world.scopes.resolve? i name = some k →
    s.world.scopes.isConstant k name = false → ∃ t, s.step = .next t ∧ t.world.scopes.binding? k name = some v
  /-- A binding of a pass changes only if code inside of the pass assigns it. -/
  kept : ∀ t, s.step = .next t → ∀ k ∈ passes, ∀ name,
    t.world.scopes.binding? k name ≠ s.world.scopes.binding? k name → ∃ i, s.Assigns name i ∧
      s.world.scopes.resolve? i name = some k ∧ s.world.scopes.Encloses k i
  /-- The code of another pass changes none. -/
  elsewhere : ∀ t, s.step = .next t → ∀ j ∈ head :: passes, ∀ k ∈ passes, j ≠ k → s.InPass loop j → ∀ name,
    t.world.scopes.binding? k name = s.world.scopes.binding? k name
  /-- The loop goes on in a copy of the scope of its last pass, or in the scope that all passes have. -/
  renewed : s.Renews loop (passes.headD head) → ∃ t, s.step = .next t ∧
    (loop.perPass = true → t.Under loop s.world.scopes.all.size ∧ ∀ name,
      t.world.scopes.binding? s.world.scopes.all.size name = s.world.scopes.binding? (passes.headD head) name) ∧
    (loop.perPass = false → t.Under loop (passes.headD head)) ∧
    ∀ k < s.world.scopes.all.size, ∀ name, t.world.scopes.binding? k name = s.world.scopes.binding? k name

theorem Running.Assigns.unique {name' : Text} {i j : Nat} (h : s.Assigns name i) (h' : s.Assigns name' j) :
    name = name' ∧ i = j := by
  cases h with
  | update kind children identifier own =>
    cases h' with
    | update kind' children' identifier' own' =>
      obtain ⟨rfl, -⟩ := List.cons.inj (children.symm.trans children')
      exact ⟨own.symm.trans own', rfl⟩
  | value => cases h' with | value => exact ⟨rfl, rfl⟩
  | combined => cases h' with | combined => exact ⟨rfl, rfl⟩

/-- The code of a loop runs inside of the pass. -/
theorem Running.Under.encloses {may : Nat → Text → Prop} (under : s.Under loop k) (tidy : s.Tidy may) :
    (∀ i ∈ s.control.scopes, s.world.scopes.Encloses k i) ∧
      ∀ name i, s.Assigns name i → s.world.scopes.Encloses k i := by
  obtain ⟨f, lower, own, upper, hs, straight⟩ := under
  have scope? := Frame.loopScope?_of_loop? own
  have code : ∀ i ∈ s.control.scopes, s.world.scopes.Encloses k i := by
    intro i hi
    have around := (tidy.control.scopes i hi).around
    rw [hs] at around
    exact around.encloses straight scope?
  -- the place that is assigned stands in the topmost frame, which is no frame of the loop
  have place : ∀ {g : Frame} {stack : Stack} {i : Nat}, s.stack = g :: stack → g.loop? = none → i ∈ g.scopes →
      s.world.scopes.Encloses k i := by
    intro g stack i e other hi
    have stands := tidy.stack
    rw [e] at stands
    have around := (stands.1.scopes i hi).around
    cases upper with
    | nil =>
      obtain ⟨rfl, -⟩ := List.cons.inj (e.symm.trans hs)
      rw [other] at own
      cases own
    | cons u upper =>
      obtain ⟨rfl, rfl⟩ := List.cons.inj (e.symm.trans hs)
      exact around.encloses (List.forall_mem_cons.mp straight).2 scope?
  refine ⟨code, fun name i assigns => ?_⟩
  cases assigns with
  | update => exact code i (List.mem_singleton_self _)
  | value => exact place rfl rfl (List.mem_singleton_self _)
  | combined => exact place rfl rfl (List.mem_singleton_self _)

/-- The scopes of passes and nothing else: what is known of them says how the passes are separated. -/
theorem Run.separates (run : Run config program L s) (h : s.Carries names outer head passes) :
    loop.Separates names outer head passes s := by
  have ordered := h.tidy.world.ordered
  have apart : ∀ j ∈ head :: passes, ∀ k ∈ head :: passes, j ≠ k → ∀ i, s.world.scopes.Encloses j i →
      ¬ s.world.scopes.Encloses k i := fun j hj k hk other i =>
    Scopes.apart_of_beside ordered ((h.parent j hj).trans (h.parent k hk).symm) other
  have kept : ∀ t, s.step = .next t → ∀ k ∈ passes, ∀ name,
      t.world.scopes.binding? k name ≠ s.world.scopes.binding? k name → ∃ i, s.Assigns name i ∧
        s.world.scopes.resolve? i name = some k ∧ s.world.scopes.Encloses k i := by
    intro t next k mem name changed
    have tends := run.tends h.tidy next
    have opened : passRule names head passes k name ∨ s.Rebinds k name := by
      by_contra closed
      exact changed (tends.keeps k name closed)
    obtain ⟨i, assigns, resolves⟩ := opened.resolve_left fun may => may.2 mem
    exact ⟨i, assigns, resolves, (Scopes.resolve?_some resolves).1⟩
  refine ⟨h.distinct, h.own, fun k mem name other => ?_, apart, fun k under => under.encloses h.tidy,
    fun k w v stack => ⟨fun e => e ▸ under_of_forStep, fun e => e ▸ under_of_forCondition⟩,
    fun k _ i born around name bound => Scopes.resolve?_inside ordered born around bound, ?_, kept, ?_, ?_⟩
  · have unbound : s.world.scopes.binding? k name = none := by
      by_contra bound
      exact other (h.own k mem name (Option.isSome_iff_ne_none.mpr bound))
    exact Scopes.resolve?_of_unbound ordered (h.born mem) (h.parent k mem) unbound
  · intro k mem name i v puts resolves free
    obtain ⟨result, stack, next⟩ := puts.free resolves free
    exact ⟨_, next, s.world.scopes.binding?_bind_self name v (h.born mem)⟩
  · intro t next j hj k hk other inPass name
    by_contra changed
    obtain ⟨i, assigns, -, around⟩ := kept t next k hk name changed
    have within : s.world.scopes.Encloses j i := by
      rcases inPass with under | ⟨name', i', assigns', around'⟩
      · exact (under.encloses h.tidy).2 name i assigns
      · exact (assigns.unique assigns').2 ▸ around'
    exact apart j hj k (List.mem_cons_of_mem _ hk) other i within around
  · intro renews
    obtain ⟨t, next⟩ : ∃ t, s.step = .next t := renews.next.elim (fun e => ⟨_, e⟩) fun e => ⟨_, e⟩
    have under := renews.under next
    refine ⟨t, next, fun own => ⟨?_, h.binding?_copies own renews next⟩, fun shared => ?_, fun k old name =>
      renews.keeps next k name (Nat.not_le_of_lt old)⟩
    · rwa [World.copyScope, if_pos own] at under
    · rwa [World.copyScope, shared] at under

/-- Where all passes have one scope there is none for a single pass. -/
theorem CountingLoop.Reaches.passes_eq_nil {s₁ : Running} (reaches : loop.Reaches head s₁ passes t)
    (shared : loop.perPass = false) : passes = [] := by
  induction reaches with
  | start => rfl
  | goesOn _ _ _ ih | reorder _ _ ih => exact ih
  | renews _ own => exact absurd own (by simp [shared])

theorem CountingLoop.Reaches.carries {s₁ : Running} (run : Run config program L s₁)
    (first : s₁.Carries names outer head []) (reaches : loop.Reaches head s₁ passes t) :
    s₁.Later t ∧ t.Carries names outer head passes := by
  induction reaches with
  | start => exact ⟨.refl _, first⟩
  | goesOn _ next _ ih =>
    obtain ⟨later, carries⟩ := ih
    obtain ⟨_, there⟩ := run.later later
    exact ⟨later.step next, carries.step (there.tends carries.tidy next)⟩
  | renews _ own renews next ih =>
    obtain ⟨later, carries⟩ := ih
    exact ⟨later.step next, carries.renew own renews next⟩
  | reorder _ other ih =>
    obtain ⟨later, carries⟩ := ih
    exact ⟨later.reorder other, carries.tidy.reorder other, carries.distinct, carries.parent, carries.inner,
      carries.own⟩

/-- Every later state is one that the loop reaches with some passes. -/
theorem CountingLoop.reaches_later {s₁ : Running} (loop : CountingLoop) (head : Nat) (later : s₁.Later t) :
    ∃ passes, loop.Reaches head s₁ passes t := by
  induction later with
  | refl => exact ⟨[], .start⟩
  | @step t t' before next ih =>
    obtain ⟨passes, reaches⟩ := ih
    by_cases renews : loop.perPass = true ∧ t.Renews loop (passes.headD head)
    · exact ⟨_, reaches.renews renews.1 renews.2 next⟩
    · exact ⟨_, reaches.goesOn next renews⟩
  | reorder before other ih =>
    obtain ⟨passes, reaches⟩ := ih
    exact ⟨_, reaches.reorder other⟩

/-- **Main result.**  A `for` loop whose head declares names, in any run of whatever program.  With `let` and
`const` the head and every pass have scopes of their own for these names, beside each other, and all else is shared.
The bindings of a pass change only where code of that pass assigns them.  The next pass starts, before its update,
with the values of the moment when the pass before is over and its actions have been run.  With `var` all passes
have one scope, which binds nothing. -/
theorem Run.separates_passes (run : Run config program L s) {node start condition step body : Node}
    (begins : s.Begins node outer) (kind : node.kind = .forLoop)
    (parts : node.children = [start, condition, step, body]) (declares : start.kind = .declaration) :
    ∃ (loop : CountingLoop) (s₁ : Running), s.step = .next s₁ ∧
      (loop.condition = condition ∧ loop.step = step ∧ loop.body = body ∧ loop.perPass = (start.name != "var")) ∧
      s₁.control = .execute start s.world.scopes.all.size ∧ s₁.Under loop s.world.scopes.all.size ∧
      ∀ t, s₁.Later t → (∃ passes, loop.Reaches s.world.scopes.all.size s₁ passes t) ∧
        ∀ passes, loop.Reaches s.world.scopes.all.size s₁ passes t →
          loop.Separates (passNames start) outer s.world.scopes.all.size passes t ∧
          (loop.perPass = false → passes = []) ∧
          (Accepted config program → t.Renews loop (passes.headD s.world.scopes.all.size) →
            t.InOrder config program) := by
  obtain ⟨loop, s₁, next, made, control, under, first⟩ := begins.carries kind parts declares run.tidy
  refine ⟨loop, s₁, next, made, control, under, fun t later => ⟨loop.reaches_later _ later, fun passes reaches => ?_⟩⟩
  obtain ⟨-, carries⟩ := reaches.carries (run.step next) first
  obtain ⟨_, there⟩ := (run.step next).later later
  refine ⟨there.separates carries, fun shared => ?_, fun accepted renews => accepted.inOrder ?_⟩
  · exact reaches.passes_eq_nil shared
  · cases renews <;> rfl

/-- A loop that counts to two, with a head of one kind. -/
def countingTo (kind : Text) : Node :=
  { kind := .program, children := [
    { kind := .forLoop, children := [
      { kind := .declaration, value := .text kind, children := [
        { kind := .declarator, value := .text "i", children := [
          { kind := .literal, value := .number (.int 0) }] }] },
      { kind := .binary, value := .text "<", children := [
        { kind := .identifier, value := .text "i" }, { kind := .literal, value := .number (.int 2) }] },
      { kind := .update, value := .text "++", children := [{ kind := .identifier, value := .text "i" }] },
      { kind := .block }] }] }

/-- The state after the first step of the loop that counts to two. -/
def countingStart : Ledger × Running := observe 1 (observed {} (countingTo "let") 1)

/-- The loop goes through its passes, and the first one still has the value that it started with. -/
theorem separates_passes_countingTo : ∃ (loop : CountingLoop) (passes : List Nat), loop.perPass = true ∧
    loop.Reaches 2 countingStart.2 passes (observe 40 countingStart).2 ∧
    loop.Separates ["i"] 1 2 passes (observe 40 countingStart).2 ∧
    (observe 40 countingStart).2.world.scopes.binding? 3 "i" = some (.number (.int 0)) := by
  have run := Run.observed {} (countingTo "let") 1
  obtain ⟨node, parts, begins, kind, children, declares, names, own⟩ : ∃ node, ∃ parts : Node × Node × Node × Node,
      (observed {} (countingTo "let") 1).2.Begins node 1 ∧ node.kind = .forLoop ∧
      node.children = [parts.1, parts.2.1, parts.2.2.1, parts.2.2.2] ∧ parts.1.kind = .declaration ∧
      passNames parts.1 = ["i"] ∧ (parts.1.name != "var") = true :=
    ⟨_, ⟨_, _, _, _⟩, .plain, rfl, rfl, rfl, rfl, rfl⟩
  obtain ⟨loop, s₁, next, ⟨-, -, -, perPass⟩, -, -, passes⟩ := run.separates_passes begins kind children declares
  obtain rfl : countingStart.2 = s₁ := Transition.next.inj (Eq.trans (by rfl) next)
  have head : (observed {} (countingTo "let") 1).2.world.scopes.all.size = 2 := by rfl
  obtain ⟨⟨reached, reaches⟩, all⟩ := passes _ (later_observe 40 countingStart)
  obtain ⟨separates, -⟩ := all reached reaches
  rw [head] at reaches separates
  rw [names] at separates
  exact ⟨loop, reached, perPass.trans own, reaches, separates, by rfl⟩

end Carrying

end ScopeExit.Script
