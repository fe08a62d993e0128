import ScopeExit.Proofs.Script.Setting
/-!
How far a step reaches.

Code belongs to an activation, and a step of it reaches no further: of all registries it changes only the
one of that activation, and no generator but one that it resumes.  What it puts on the stack belongs to the
setting there.  A step that calls a function or resumes a generator does nothing else before.

Each function of the machine has its lemma here.  What it is given to run has to occur in the program, with
the constructs around it that are on the stack, and in a scope of the activation.
-/
namespace ScopeExit.Script

open World

/-! ### Tokens -/

/-- What stands at one place only: the end of a body, and the end of the step of a generator. -/
inductive Token where
  | body (activation : Nat)
  | step (generator : Nat)
  deriving DecidableEq

/-- The token that a frame is. -/
def Frame.token? : Frame → Option Token
  | .activationEnd a => some (.body a)
  | .generatorBoundary g => some (.step g)
  | _ => none

/-! ### Worlds -/

/-- What one world has more than another one is confined to an activation: the registries of the others
are as they were, and so are the generators. -/
structure World.Confined (a : Nat) (w w' : World) : Prop where
  wide : w.Widens w'
  count : w'.activations.size = w.activations.size
  registries : ∀ b, b ≠ a → w'.registry b = w.registry b
  generators : w'.generators = w.generators

section Confined

variable {program : Node} {a : Nat} {w w' w'' : World}

theorem World.Confined.refl (w : World) : w.Confined a w := ⟨.refl w, rfl, fun _ _ => rfl, rfl⟩

theorem World.Confined.trans (h : w.Confined a w') (h' : w'.Confined a w'') : w.Confined a w'' where
  wide := h.wide.trans h'.wide
  count := h'.count.trans h.count
  registries b other := (h'.registries b other).trans (h.registries b other)
  generators := h'.generators.trans h.generators

/-- The promises and the statistics are nobody's. -/
theorem confined_of_eq (scopes : w'.scopes = w.scopes) (activations : w'.activations = w.activations)
    (generators : w'.generators = w.generators) : w.Confined a w' where
  wide := .of_eq scopes
  count := congrArg Array.size activations
  registries b _ := by rw [World.registry, World.activation, activations, World.registry, World.activation]
  generators := generators

theorem World.Touches.confined (h : w.Touches program w') : w.Confined a w' where
  wide := h.wide
  count := congrArg Array.size h.minor.activations
  registries b _ := by
    rw [World.registry, World.activation, h.minor.activations, World.registry, World.activation]
  generators := h.minor.generators

theorem confined_setRegistry (w : World) (a : Nat) (r : Registry Deferred) :
    w.Confined a (w.setRegistry a r) where
  wide := .of_eq rfl
  count := by simp [World.setRegistry]
  registries _ other := w.registry_setRegistry_of_ne other r
  generators := rfl

theorem World.Settled.setRegistry (h : w.Settled program) (a : Nat) {r : Registry Deferred}
    (actions : ∀ x ∈ r.arena.actions, Setting.Keeps program w ⟨a, []⟩ x.body.scope [x.body.body]) :
    (w.setRegistry a r).Settled program := by
  have wide : w.Widens (w.setRegistry a r) := .of_eq rfl
  refine ⟨h.closures, fun b x hx => .mono wide ?_, fun g code e => (h.generators g code e).mono wide,
    fun t code e => (h.parked t code e).mono wide⟩
  · by_cases hb : b = a
    · subst hb
      by_cases hlt : b < w.activations.size
      · rw [w.registry_setRegistry_self hlt] at hx
        exact actions x hx
      · rw [World.registry, World.activation_setRegistry, if_neg fun hba => hlt hba.2] at hx
        exact h.actions b x hx
    · rw [w.registry_setRegistry_of_ne hb] at hx
      exact h.actions b x hx

/-- Only what the loop and the statistics say changes, and only tasks that sleep are new. -/
theorem World.Settled.relooped (h : w.Settled program) (heap : w'.heap = w.heap)
    (scopes : w'.scopes = w.scopes) (activations : w'.activations = w.activations)
    (generators : w'.generators = w.generators)
    (parked : ∀ t code, (w'.loop.promise t).parked? = some code →
      (w.loop.promise t).parked? = some code ∨ code.Settled program w) : w'.Settled program where
  closures := heap ▸ h.closures
  actions a x hx := by
    rw [World.registry, World.activation, activations] at hx
    exact (h.actions a x hx).mono (.of_eq scopes)
  generators g code e := by
    rw [World.generator, generators] at e
    exact (h.generators g code e).mono (.of_eq scopes)
  parked t code e := .mono (.of_eq scopes) ((parked t code e).elim (h.parked t code) id)

/-- A heap that has the same functions. -/
theorem World.Settled.heap (h : w.Settled program) (heap : Heap) (closures : heap.closures = w.heap.closures) :
    World.Settled program { w with heap := heap } := (touches_same closures).settled h

theorem World.Settled.closure (h : w.Settled program) (i : Nat) : (w.heap.closure i).Holds program := by
  rw [Heap.closure, Array.getD_eq_getD_getElem?]
  by_cases hi : i < w.heap.closures.size
  · rw [Array.getElem?_eq_getElem hi]
    exact h.closures _ (Array.getElem_mem hi)
  · rw [Array.getElem?_eq_none (Nat.le_of_not_lt hi)]
    exact ⟨List.forall_mem_nil _, .bare rfl rfl rfl⟩

end Confined

/-! ### Running code -/

section Confines

variable (program : Node) (w : World) (stack : Stack)

/-- Code of an activation leaves its stack in place and reaches no further than its activation, and what
it has put on the stack belongs there. -/
structure Running.Stays (s : Running) : Prop where
  confined : w.Confined stack.setting.activation s.world
  grows : ∃ upper, s.stack = upper ++ stack ∧ ∀ f ∈ upper, f.token? = none
  settled : w.Settled program → stack.Settled program w → s.Settled program

/-- Frames that are no tokens are put on a stack, and they belong there. -/
structure Stack.Tops (w' : World) (upper : Stack) : Prop where
  plain : ∀ f ∈ upper, f.token? = none
  settled : stack.Settled program w → Stack.Settled program w' (upper ++ stack)

/-- A new activation has come to be, and nothing else. -/
structure World.Enlarges (w' : World) : Prop where
  wide : w.Widens w'
  count : w'.activations.size = w.activations.size + 1
  registries : ∀ b < w.activations.size, w'.registry b = w.registry b
  generators : w'.generators = w.generators
  settled : w.Settled program → w'.Settled program

/-- What code comes to: it stays where it is, calls a function, makes a generator, or resumes one, and then
it has changed nothing that belongs to anyone. -/
inductive Running.Confines : Running → Prop
  | stays {s : Running} (h : s.Stays program w stack) : Confines s
  | calls {w' : World} {s : Running} {upper : Stack} (entered : w.Enlarges program w')
      (tops : stack.Tops program w w' upper)
      (h : s.Stays program w' (.activationEnd w.activations.size :: (upper ++ stack))) : Confines s
  | makes {w' : World} {closure : Nat} {arguments : List Value} {v : Value} {heap : Heap} {upper : Stack}
      (entered : w.Enlarges program w') (closures : heap.closures = w'.heap.closures)
      (tops : stack.Tops program w w' upper) :
      Confines ⟨{ w' with
        heap := heap, generators := w'.generators.push (.fresh closure arguments w.activations.size) },
        .value v, upper ++ stack⟩
  | resumes {w' : World} {upper : Stack} {g : Nat} {mode : ResumeMode} {v : Value}
      (touches : w.Touches program w') (tops : stack.Tops program w w' upper) :
      Confines (w'.resume (upper ++ stack) g mode v)

end Confines

/-- What is no token is in the activation of what is below. -/
theorem Setting.activation_above (Γ : Setting) {f : Frame} (token : f.token? = none) :
    (Γ.above f).activation = Γ.activation := by
  cases f <;> first | rfl | contradiction

section Tops

variable {program : Node} {w w' w'' : World} {f : Frame} {stack upper : Stack}

theorem World.Enlarges.after (t : w.Touches program w') (h : w'.Enlarges program w'') :
    w.Enlarges program w'' where
  wide := t.wide.trans h.wide
  count := h.count.trans (congrArg (· + 1) (t.confined (a := 0)).count)
  registries b hb := by
    have hb' : b < w'.activations.size := Nat.lt_of_lt_of_eq hb (t.confined (a := 0)).count.symm
    rw [h.registries b hb', World.registry, World.activation, t.minor.activations, World.registry,
      World.activation]
  generators := h.generators.trans t.minor.generators
  settled hw := h.settled (t.settled hw)

theorem Stack.Tops.nil (wide : w.Widens w') : stack.Tops program w w' [] :=
  ⟨List.forall_mem_nil _, fun h => h.mono wide⟩

theorem Stack.Tops.after (wide : w.Widens w') (h : stack.Tops program w' w'' upper) :
    stack.Tops program w w'' upper := ⟨h.plain, fun hs => h.settled (hs.mono wide)⟩

theorem Stack.Tops.under (h : Stack.Tops program w (f :: stack) w' upper) (token : f.token? = none)
    (belongs : f.Belongs program w stack.setting) : stack.Tops program w w' (upper ++ [f]) where
  plain f' hf' := (List.mem_append.mp hf').elim (h.plain f') fun h => List.mem_singleton.mp h ▸ token
  settled hs := by
    rw [List.append_assoc]
    exact h.settled ⟨belongs, hs⟩

end Tops

namespace Running

variable {program : Node} {w w' : World} {c : Control} {f : Frame} {stack : Stack} {s : Running}

namespace Stays

theorem changed (confined : w.Confined stack.setting.activation w')
    (settled : w.Settled program → w'.Settled program) (belongs : c.Belongs program w' stack.setting) :
    Stays program w stack ⟨w', c, stack⟩ :=
  ⟨confined, ⟨[], rfl, List.forall_mem_nil _⟩, fun hw hs => ⟨settled hw, hs.mono confined.wide, belongs⟩⟩

theorem here (belongs : c.Belongs program w stack.setting) : Stays program w stack ⟨w, c, stack⟩ :=
  changed (.refl w) id belongs

theorem after (confined : w.Confined stack.setting.activation w')
    (settled : w.Settled program → w'.Settled program) (h : Stays program w' stack s) :
    Stays program w stack s :=
  ⟨confined.trans h.confined, h.grows, fun hw hs => h.settled (settled hw) (hs.mono confined.wide)⟩

theorem touch (t : w.Touches program w') (h : Stays program w' stack s) : Stays program w stack s :=
  h.after t.confined t.settled

theorem heap (heap : Heap) (closures : heap.closures = w.heap.closures)
    (h : Stays program { w with heap := heap } stack s) : Stays program w stack s :=
  h.touch (touches_same closures)

theorem under (h : Stays program w (f :: stack) s) (token : f.token? = none)
    (belongs : f.Belongs program w stack.setting) : Stays program w stack s := by
  obtain ⟨upper, hs, plain⟩ := h.grows
  refine ⟨?_, ⟨upper ++ [f], by rw [hs]; simp, fun f' hf' => ?_⟩, fun hw hs => h.settled hw ⟨belongs, hs⟩⟩
  · rw [← stack.setting.activation_above token]
    exact h.confined
  · exact (List.mem_append.mp hf').elim (plain f') fun h => List.mem_singleton.mp h ▸ token

theorem push (token : f.token? = none) (belongs : f.Belongs program w stack.setting)
    (next : c.Belongs program w (Stack.setting (f :: stack))) : Stays program w stack ⟨w, c, f :: stack⟩ :=
  (here next).under token belongs

theorem perform {α : Type} {change : World.Change α} {go : World → α → Running}
    (confined : w.Confined stack.setting.activation change.2)
    (settled : w.Settled program → change.2.Settled program)
    (h : ∀ x, Stays program change.2 stack (go change.2 x)) :
    Stays program w stack (World.perform stack change go) := by
  obtain ⟨result, w'⟩ := change
  cases result with
  | ok x => exact (h x).after confined settled
  | error failure => exact .changed confined settled trivial

theorem touching {α : Type} {change : World.Change α} {go : World → α → Running}
    (t : w.Touches program change.2) (h : ∀ x, Stays program change.2 stack (go change.2 x)) :
    Stays program w stack (World.perform stack change go) := .perform t.confined t.settled h

theorem attempt {α : Type} {r : Except Failure α} {go : World → α → Running}
    (h : ∀ x, r = .ok x → Stays program w stack (go w x)) : Stays program w stack (w.attempt stack r go) := by
  cases r with
  | ok x => exact h x rfl
  | error failure => exact .here trivial

end Stays

namespace Confines

theorem after (t : w.Touches program w') (h : Confines program w' stack s) :
    Confines program w stack s := by
  have size : w'.activations.size = w.activations.size := (t.confined (a := 0)).count
  cases h with
  | stays h => exact .stays (h.touch t)
  | calls entered tops h =>
    rw [size] at h
    exact .calls (.after t entered) (tops.after t.wide) h
  | makes entered closures tops =>
    rw [size]
    exact .makes (.after t entered) closures (tops.after t.wide)
  | resumes touches tops => exact .resumes (t.trans touches) (tops.after t.wide)

theorem under (h : Confines program w (f :: stack) s) (token : f.token? = none)
    (belongs : f.Belongs program w stack.setting) : Confines program w stack s := by
  have assoc : ∀ upper : Stack, upper ++ f :: stack = (upper ++ [f]) ++ stack := by simp
  cases h with
  | stays h => exact .stays (h.under token belongs)
  | calls entered tops h =>
    rw [assoc] at h
    exact .calls entered (tops.under token belongs) h
  | makes entered closures tops =>
    rw [assoc]
    exact .makes entered closures (tops.under token belongs)
  | resumes touches tops =>
    rw [assoc]
    exact .resumes touches (tops.under token belongs)

theorem resume (g : Nat) (mode : ResumeMode) (v : Value) :
    Confines program w stack (w.resume stack g mode v) :=
  @resumes program w stack w [] g mode v (.refl w) (.nil (.refl w))

theorem perform {α : Type} {change : World.Change α} {go : World → α → Running}
    (t : w.Touches program change.2) (h : ∀ x, Confines program change.2 stack (go change.2 x)) :
    Confines program w stack (World.perform stack change go) := by
  obtain ⟨result, w'⟩ := change
  cases result with
  | ok x => exact (h x).after t
  | error failure => exact .stays (.changed t.confined t.settled trivial)

theorem attempt {α : Type} {r : Except Failure α} {go : World → α → Running}
    (h : ∀ x, Confines program w stack (go w x)) : Confines program w stack (w.attempt stack r go) :=
  .perform (.refl w) h

end Confines

end Running

/-! ### Completions of drains -/

section Drains

variable {program : Node} {path : Path}

theorem met_resolve {a : Aggregator} (h : a.pending.Met program path) : a.resolve.Met program path := by
  unfold Aggregator.resolve
  split
  · exact h
  · exact met_of_not_jump rfl

/-- What a drain does next is met by the same constructs as what it was asked to do. -/
structure MetNext (program : Node) (path : Path) (next : DrainStep Deferred) : Prop where
  run : ∀ action d, next = .run action d → d.aggregator.pending.Met program path
  ended : ∀ o, next = .ended (.ok o) → o.reason.Met program path

theorem met_close (d : Drain) (r : Registry Deferred) {result : Except Failure DrainOutcome}
    (h : ∀ o, result = .ok o → o.reason.Met program path) :
    MetNext program path (.ended (d.close r result).1) := by
  refine ⟨fun _ _ e => (by cases e), fun o e => ?_⟩
  have closed := DrainStep.ended.inj e
  unfold Drain.close at closed
  split at closed
  · exact h o closed
  · cases closed

theorem met_advance {d : Drain} (r : Registry Deferred) (h : d.aggregator.pending.Met program path) :
    MetNext program path (d.advance r).1 := by
  unfold Drain.advance
  split
  · refine ⟨fun _ _ e => ?_, fun _ e => (by cases e)⟩
    rw [← (DrainStep.run.inj e).2]
    exact h
  · exact met_close _ _ fun o e => Except.ok.inj e ▸ met_resolve h
  · exact met_close _ _ fun _ e => (by cases e)

theorem met_settle {d : Drain} (r : Registry Deferred) (failure? : Option Failure)
    (h : d.aggregator.pending.Met program path) : MetNext program path (d.settle r failure?).1 := by
  unfold Drain.settle
  split
  · exact met_advance r h
  · split
    · exact met_advance r h
    · exact met_close _ _ fun _ e => (by cases e)

theorem pending_start {r r' : Registry Deferred} {h : FrameHandle} {mode : ActionMode} {reason : ExitReason}
    {d : Drain} (e : Drain.start r h mode reason = .ok (d, r')) : d.aggregator.pending = reason := by
  simp only [Drain.start, Bind.bind, Except.bind] at e
  split at e
  · contradiction
  · split at e
    · contradiction
    · split at e
      · contradiction
      · simp only [Pure.pure, Except.pure, Except.ok.injEq, Prod.mk.injEq] at e
        rw [← e.1]
        rfl

end Drains

/-! ### Jumps and their targets -/

section Jumps

variable {program : Node} {path : Path} {reason : ExitReason}

/-- What a loop makes of the completion of a pass is met outside of the loop. -/
theorem met_afterPass {labels : List Text} {body : Node} (met : reason.Met program (.loop labels body :: path))
    {left : ExitReason} (e : afterPass reason labels = some left) : left.Met program path := by
  cases reason with
  | breaking label =>
    simp only [afterPass, ExitReason.kind] at e
    split at e
    · exact Option.some.inj e ▸ met_of_not_jump rfl
    · rename_i aimed
      rw [← Option.some.inj e]
      exact met.tail (by simpa [Construct.meets, ExitReason.kind] using aimed)
  | continuing label =>
    simp only [afterPass, ExitReason.kind] at e
    split at e
    · contradiction
    · rename_i aimed
      rw [← Option.some.inj e]
      exact met.tail (by simpa [Construct.meets, ExitReason.kind] using aimed)
  | normal | iterationEnd => contradiction
  | returning | throwing => exact Option.some.inj e ▸ met_of_not_jump rfl

theorem met_afterSwitch {labels : List Text} (met : reason.Met program (.switch labels :: path)) :
    (afterSwitch reason labels).Met program path := by
  unfold afterSwitch
  split
  · exact met_of_not_jump rfl
  · rename_i aimed
    exact met.tail (by simpa [Construct.meets] using aimed)

theorem met_afterLabeled {labels : List (Option Text)} (met : reason.Met program (.labeled labels :: path)) :
    (afterLabeled reason labels).Met program path := by
  unfold afterLabeled
  split
  · exact met_of_not_jump rfl
  · rename_i aimed
    refine met.tail ?_
    simp only [Construct.meets]
    cases h : reason.kind == .break <;> simp_all

end Jumps

namespace World

open Running

variable {program : Node} (w : World) (stack : Stack)

/-! ### Frames of the engine -/

theorem stays_complete {reason : ExitReason} (met : reason.Met program stack.setting.path) :
    (w.complete stack reason).Stays program w stack := by
  unfold World.complete
  split
  · exact .here trivial
  · exact .here trivial
  · exact .here met

/-- The functions among statements are bound, and what comes after that stays above a frame. -/
theorem stays_hoist {w₁ : World} (confined : w.Confined stack.setting.activation w₁)
    (settled : w.Settled program → w₁.Settled program) (scope : Nat) {statements : List Node}
    (holds : ∀ s ∈ statements, program.Holds s) {f : Frame} (token : f.token? = none)
    (belongs : f.Belongs program w stack.setting) {inside : World → Running}
    (h : ∀ w', w.Widens w' → (inside w').Stays program w' (f :: stack)) :
    Running.Stays program w stack (match w₁.hoist scope statements with
      | (w', none) => inside w'
      | (w', some failure) => ⟨w', .raise failure, f :: stack⟩) := by
  have hoisted := touches_hoist (w := w₁) scope holds
  have wide := confined.wide.trans hoisted.wide
  split
  · rename_i w' e
    rw [e] at hoisted wide
    exact .after confined settled (.touch hoisted (.under (h w' wide) token (belongs.mono wide)))
  · rename_i w' failure e
    rw [e] at hoisted wide
    exact .after confined settled (.touch hoisted (.push token (belongs.mono wide) trivial))

theorem stays_openFrame (kind : FrameKind) (span : Span) {scope : Nat}
    (home : ScopeIn w stack.setting.activation scope) {statements : List Node}
    (holds : ∀ s ∈ statements, program.Holds s) {atEnd : ExitReason}
    (met : atEnd.Met program stack.setting.path) {inside : World → Stack → Running}
    (h : ∀ w' handle, w.Widens w' → (inside w' (.scopeBody stack.setting.activation handle atEnd :: stack)).Stays
      program w' (.scopeBody stack.setting.activation handle atEnd :: stack)) :
    (w.openFrame stack kind span scope statements atEnd inside).Stays program w stack := by
  have here := home.activation_eq
  unfold World.openFrame
  simp only [here]
  generalize hr : (w.activation stack.setting.activation).registry.enter kind
    (w.activation stack.setting.activation).isAsync span = entered
  have actions : entered.2.arena.actions = (w.registry stack.setting.activation).arena.actions := by
    rw [← hr]
    rfl
  refine stays_hoist w stack (f := .scopeBody stack.setting.activation entered.1 atEnd)
    ((confined_setRegistry w _ entered.2).trans (@touches_stats program _ _).confined) ?_ scope
    holds rfl ⟨rfl, met⟩ fun w' wide => h w' _ wide
  intro hw
  exact (touches_stats _).settled (hw.setRegistry _ fun x hx => hw.actions _ x (actions ▸ hx))

theorem stays_enterFrame (kind : FrameKind) (span : Span) {scope : Nat}
    {statements : List Node} (keeps : stack.setting.Keeps program w scope statements) {atEnd : ExitReason}
    (met : atEnd.Met program stack.setting.path) :
    (w.enterFrame stack kind span scope statements atEnd).Stays program w stack :=
  w.stays_openFrame stack kind span keeps.scope (fun s hs => (keeps.occurs s hs).holds) met
    fun _ _ wide => .push rfl (keeps.mono wide) (met_of_not_jump rfl)

theorem stays_leaveFrame {a : Nat} (own : a = stack.setting.activation) (handle : FrameHandle)
    {result : Except Failure DrainOutcome}
    (met : ∀ o, result = .ok o → o.reason.Met program stack.setting.path) :
    (w.leaveFrame stack a handle result).Stays program w stack := by
  subst own
  have left := confined_setRegistry w stack.setting.activation
    ((w.registry stack.setting.activation).leave handle result).registry
  have settled : w.Settled program → (w.setRegistry stack.setting.activation
      ((w.registry stack.setting.activation).leave handle result).registry).Settled program := fun hw =>
    hw.setRegistry _ fun x hx => hw.actions _ x (subset_leave _ _ _ hx)
  have next : ∀ reason, ((w.registry stack.setting.activation).leave handle result).result = .ok reason →
      reason.Met program stack.setting.path := by
    intro reason e
    unfold Registry.leave at e
    split at e
    · cases e
    · split at e
      · cases e
      · exact Except.ok.inj e ▸ met _ rfl
  have reported : ∀ (w : World) record, w.Touches program (w.report record) := fun w record =>
    ⟨⟨rfl, rfl, rfl, rfl, rfl, rfl, rfl, rfl, rfl, fun _ => id⟩, .of_eq rfl, fun _ => .inl⟩
  simp only [World.leaveFrame]
  cases ((w.registry stack.setting.activation).leave handle result).record? with
  | none =>
    split
    · exact .changed left settled (next _ ‹_›)
    · exact .changed left settled trivial
  | some record =>
    refine .after left settled (.touch (reported _ record) ?_)
    split
    · exact .here (next _ ‹_›)
    · exact .here trivial

theorem stays_proceed {a : Nat} (own : a = stack.setting.activation) (handle : FrameHandle)
    {next : DrainStep Deferred × Registry Deferred} (draws : Draws (w.registry a) next)
    (met : MetNext program stack.setting.path next.1) :
    (w.proceed stack a handle next).Stays program w stack := by
  subst own
  obtain ⟨step, r⟩ := next
  have confined := confined_setRegistry w stack.setting.activation r
  have settled : w.Settled program → (w.setRegistry stack.setting.activation r).Settled program := fun hw =>
    hw.setRegistry _ fun x hx => hw.actions _ x (draws.subset hx)
  cases step with
  | run action d =>
    have boundary : ∀ b : Frame, b = .syncBoundary ∨ b = .asyncDrive →
        Running.Stays program w stack ⟨w.setRegistry stack.setting.activation r,
          .execute action.body.body action.body.scope, b :: .draining stack.setting.activation d :: stack⟩ := by
      intro b hb
      refine ⟨confined, ⟨[b, .draining stack.setting.activation d], rfl, ?_⟩, fun hw hs => ⟨settled hw, ?_, ?_⟩⟩
      · rcases hb with rfl | rfl <;> simp [Frame.token?]
      · have own : (Frame.draining stack.setting.activation d).Belongs program
            (w.setRegistry stack.setting.activation r) stack.setting := ⟨rfl, met.run action d rfl⟩
        refine ⟨?_, own, hs.mono confined.wide⟩
        rcases hb with rfl | rfl <;> trivial
      · have keeps := (hw.actions _ action (draws.drawn action d rfl)).mono confined.wide
        rcases hb with rfl | rfl <;> exact keeps
    simp only [World.proceed]
    refine boundary _ ?_
    split
    · exact .inr rfl
    · exact .inl rfl
  | ended result => exact .after confined settled (stays_leaveFrame _ _ rfl _ fun o e => met.ended o (e ▸ rfl))

theorem stays_drain {a : Nat} (own : a = stack.setting.activation) (handle : FrameHandle)
    (mode : ActionMode) {reason : ExitReason} (met : reason.Met program stack.setting.path) :
    (w.drain stack a handle mode reason).Stays program w stack := by
  unfold World.drain
  split
  · rename_i d r e
    have draws := draws_advance d r
    refine stays_proceed w stack own handle ⟨fun x hx => ?_, fun action d' e' => ?_⟩ (met_advance r ?_)
    · exact subset_start e (draws.subset hx)
    · exact subset_start e (draws.drawn action d' e')
    · rw [pending_start e]
      exact met
  · exact stays_leaveFrame w stack own handle fun _ e => (by cases e)

theorem stays_settleAction {a : Nat} (own : a = stack.setting.activation) {d : Drain}
    (met : d.aggregator.pending.Met program stack.setting.path) (failure? : Option Failure) :
    (w.settleAction stack a d failure?).Stays program w stack :=
  stays_proceed w stack own _ (draws_settle ..) (met_settle _ _ met)

theorem stays_leaveBody {a : Nat} (own : a = stack.setting.activation) (handle : FrameHandle)
    {reason : ExitReason} (met : reason.Met program stack.setting.path) :
    (w.leaveBody stack a handle reason).Stays program w stack := by
  unfold World.leaveBody
  split
  · exact .push rfl trivial trivial
  · exact .push rfl trivial ⟨own, met⟩
  · exact (stays_drain w (.scopeEnd :: stack) own handle .sync met).under rfl trivial

theorem confined_change {a : Nat} {α β : Type} {r : Except Failure α} {f : World → α → β × World}
    (h : ∀ x, w.Confined a (f w x).2) : w.Confined a (w.change r f).2 := by
  cases r with
  | ok x => exact h x
  | error failure => exact .refl w

/-- A deferred action of a setting is registered. -/
theorem stays_register {node : Node} {scope : Nat} (keeps : stack.setting.Keeps program w scope [node])
    (kind : node.kind = .defer) {go : World → Unit → Running}
    (h : ∀ w', (go w' ()).Stays program w' stack) :
    (World.perform stack (w.register node scope) go).Stays program w stack := by
  have home := keeps.scope.activation_eq
  have parts : ∀ body ∈ node.children, program.Occurs [] body := fun body hbody => by
    refine (keeps.occurs node (List.mem_singleton_self _)).part ?_
    unfold Node.parts
    rw [kind]
    exact List.mem_map_of_mem hbody
  unfold World.register
  split
  · exact .here trivial
  · rename_i body _ children
    simp only [home]
    split
    · exact .here trivial
    · rename_i handle _
      generalize haction : ({ body := (⟨body, scope⟩ : Deferred), kind := _, mode := _, span := _, transfers := _ } :
        Action Deferred) = action
      have hbody : action.body = ⟨body, scope⟩ := by rw [← haction]
      cases hr : (w.registry stack.setting.activation).register handle action with
      | error failure => exact .here trivial
      | ok r =>
        refine .after (confined_setRegistry w _ r) (fun hw => hw.setRegistry _ fun x hx => ?_) (h _)
        unfold Registry.register at hr
        split at hr
        · cases hr
        · split at hr
          · cases hr
          · split at hr
            · cases hr
            · split at hr
              · cases hr
              · rw [← Except.ok.inj hr] at hx
                rcases List.mem_append.mp hx with hx | hx
                · exact hw.actions _ x hx
                · rw [List.mem_singleton.mp hx, hbody]
                  refine ⟨keeps.scope, List.forall_mem_singleton.mpr (parts body ?_)⟩
                  rw [children]
                  exact List.mem_cons_self ..

/-! ### Calls -/

theorem mem_of_child? {n m : Node} {i : Nat} (h : n.child? i = some m) : m ∈ n.children := by
  unfold Node.child? at h
  split at h
  · split at h
    · contradiction
    · rw [← Option.some.inj h]
      exact List.mem_of_getElem? ‹_›
  · contradiction

theorem stays_enterBody {body : Node} {scope : Nat} (home : ScopeIn w stack.setting.activation scope)
    (outside : stack.setting.path = []) (occurs : program.Occurs [] body) :
    (w.enterBody stack body scope).Stays program w stack := by
  unfold World.enterBody
  split
  · rename_i kind
    have keeps : stack.setting.Keeps program w scope body.children :=
      ⟨home, fun c hc => outside ▸ occurs.child (by rw [kind]; rfl) hc⟩
    exact (stays_enterFrame w (.functionEnd :: stack) _ _ keeps (met_of_not_jump rfl)).under rfl outside
  · exact .here occurs.holds

theorem stays_bindParameters (hw : w.Settled program) (closure : Nat) {scope : Nat}
    (home : ScopeIn w stack.setting.activation scope) (outside : stack.setting.path = []) {rest : List Node}
    (holds : ∀ p ∈ rest, ∀ n ∈ p.children, program.Holds n) (arguments : List Value) :
    (w.bindParameters stack closure scope rest arguments).Stays program w stack := by
  induction rest generalizing w arguments with
  | nil => exact stays_enterBody _ _ home outside (hw.closure closure).body
  | cons p rest ih =>
    obtain ⟨hp, hrest⟩ := List.forall_mem_cons.mp holds
    have bound : ∀ v : Value, ((w.bind scope p.name v).bindParameters stack closure scope rest
        (arguments.drop 1)).Stays program w stack := fun v =>
      .touch (touches_bind ..) (ih _ ((touches_bind ..).settled hw)
        (home.widen (@touches_bind program ..).wide) hrest _)
    simp only [World.bindParameters]
    split
    · split
      · exact .push rfl ⟨home, outside, hrest⟩ (hp _ (mem_of_child? ‹_›))
      · exact bound _
    · exact bound _

theorem stays_startBody (hw : w.Settled program) (closure a : Nat) (arguments : List Value) :
    (w.startBody stack closure a arguments).Stays program w (.activationEnd a :: stack) := by
  have added := @touches_addScope program w
    { parent := some (w.heap.closure closure).scope, activation := some a, isFunction := true }
  refine .touch added (stays_bindParameters _ (.activationEnd a :: stack) (added.settled hw) closure ?_ rfl
    (hw.closure closure).params arguments)
  exact scopeIn_addScope _ rfl

theorem settled_nap (seconds : Float) (hw : w.Settled program) : (w.nap seconds).2.Settled program := by
  refine hw.relooped rfl rfl rfl rfl fun t code e => (Loop.parked_add e).imp_right fun e => ?_
  obtain rfl := Option.some.inj e
  exact ⟨trivial, trivial, trivial⟩

theorem settled_change {α β : Type} {r : Except Failure α} {f : World → α → β × World}
    (h : ∀ x, w.Settled program → (f w x).2.Settled program) (hw : w.Settled program) :
    (w.change r f).2.Settled program := by
  cases r with
  | ok x => exact h x hw
  | error failure => exact hw

theorem confined_apply {a : Nat} (builtin : Builtin) (arguments : List Value) :
    w.Confined a (w.apply builtin arguments).2 := by
  have same : ∀ {w' : World}, w'.scopes = w.scopes → w'.activations = w.activations →
      w'.generators = w.generators → w.Confined a w' := confined_of_eq
  cases builtin with
  | log | tick | sleep | makeError | makeSuppressed => exact w.confined_change fun _ => same rfl rfl rfl
  | toText => cases arguments <;> exact same rfl rfl rfl
  | push | join | resume | named => exact same rfl rfl rfl

theorem settled_apply (builtin : Builtin) (arguments : List Value) (hw : w.Settled program) :
    (w.apply builtin arguments).2.Settled program := by
  cases builtin with
  | log =>
    exact w.settled_change (fun _ hw => hw.relooped rfl rfl rfl rfl fun _ _ => .inl) hw
  | tick | sleep => exact w.settled_change (fun _ => settled_nap w _) hw
  | makeError => exact w.settled_change (fun _ hw => hw.heap (w.heap.newError _ _).2 rfl) hw
  | makeSuppressed =>
    exact w.settled_change (fun _ hw => hw.heap (w.heap.newSuppressed _ _ _).2 rfl) hw
  | toText => cases arguments <;> exact hw
  | push => exact hw.heap _ rfl
  | join | resume | named => exact hw

theorem confines_callNative (n : Native) (arguments : List Value) :
    (w.callNative stack n arguments).Confines program w stack := by
  unfold World.callNative
  split
  · exact (Confines.resume ..).under rfl trivial
  · exact .stays (.perform (confined_apply ..) (settled_apply w _ _) fun _ => .here trivial)

theorem enlarges_newActivation (name : Text) (isAsync : Bool) (depth : Int) :
    w.Enlarges program { (w.newActivation name isAsync).2 with depth := depth } where
  wide := .of_eq rfl
  count := by simp [World.newActivation]
  registries b hb := by
    have other := registry_newActivation w name isAsync b
    rw [if_neg (Nat.ne_of_lt hb)] at other
    exact other
  generators := rfl
  settled hw := by
    have wide : w.Widens { (w.newActivation name isAsync).2 with depth := depth } := .of_eq rfl
    refine ⟨hw.closures, fun b x hx => .mono wide ?_, fun g code e => (hw.generators g code e).mono wide,
      fun t code e => (hw.parked t code e).mono wide⟩
    have hx' : x ∈ ((w.newActivation name isAsync).2.registry b).arena.actions := hx
    rw [registry_newActivation] at hx'
    split at hx'
    · contradiction
    · exact hw.actions b x hx'

theorem confines_callClosure (hw : w.Settled program) (closure : Nat) (arguments : List Value) :
    (w.callClosure stack closure arguments).Confines program w stack := by
  simp only [World.callClosure]
  split
  · exact .stays (.here trivial)
  · split
    · exact @Confines.makes program w stack _ closure arguments _ _ []
        (enlarges_newActivation w (w.heap.closure closure).name (w.heap.closure closure).isAsync w.depth) rfl
        (.nil (.of_eq rfl))
    · generalize hb : (if (w.heap.closure closure).isAsync = true then Frame.asyncStart else .syncBoundary) = b
      have boundary : b = .asyncStart ∨ b = .syncBoundary := by
        rw [← hb]
        split
        · exact .inl rfl
        · exact .inr rfl
      have entered := @enlarges_newActivation program w (w.heap.closure closure).name
        (w.heap.closure closure).isAsync (w.depth + 1)
      refine @Confines.calls program w stack _ _ [b, .callEnd] entered ⟨?_, fun hs => ?_⟩
        (stays_startBody _ _ (entered.settled hw) _ _ _)
      · rcases boundary with rfl | rfl <;> simp [Frame.token?]
      · have below := hs.mono entered.wide
        rcases boundary with rfl | rfl <;> exact ⟨trivial, trivial, below⟩

theorem confines_call (hw : w.Settled program) (callee : Callee) (arguments : List Value) :
    (w.call stack callee arguments).Confines program w stack := by
  unfold World.call
  split
  · exact confines_callNative ..
  · exact confines_callClosure _ _ hw ..
  · exact .stays (.attempt fun _ _ => .here trivial)

theorem confines_construct (constructor : Value) (arguments : List Value) :
    (w.construct stack constructor arguments).Confines program w stack := by
  have refused : Stays program w stack (w.attempt stack (w.heap.text constructor) fun w name =>
      ⟨w, .raise (.typeError (name ++ " is not a constructor")), stack⟩) :=
    .attempt fun _ _ => .here trivial
  unfold World.construct
  split
  · split
    · exact confines_callNative ..
    · exact .stays refused
  · exact .stays refused

/-! ### Statements -/

theorem stays_evaluateChild {node : Node} (holds : ∀ c ∈ node.children, program.Holds c) (i scope : Nat) :
    (w.evaluateChild stack node i scope).Stays program w stack := by
  unfold World.evaluateChild
  split
  · exact .here (holds _ (List.mem_of_getElem? ‹_›))
  · exact .here trivial

theorem stays_executeChild {node : Node} {scope : Nat}
    (keeps : stack.setting.Keeps program w scope node.children) (i : Nat) :
    (w.executeChild stack node i scope).Stays program w stack := by
  unfold World.executeChild
  split
  · exact .here ⟨keeps.scope, List.forall_mem_singleton.mpr (keeps.occurs _ (List.mem_of_getElem? ‹_›))⟩
  · exact .here trivial

theorem stays_declare (kind : Text) (scope target : Nat) {rest : List Node}
    (holds : ∀ d ∈ rest, ∀ n ∈ d.children, program.Holds n) :
    (declare stack kind scope target w rest).Stays program w stack := by
  induction rest generalizing w with
  | nil => exact .here (met_of_not_jump rfl)
  | cons d rest ih =>
    obtain ⟨hd, hrest⟩ := List.forall_mem_cons.mp holds
    unfold World.declare
    split
    · exact .push rfl hrest (hd _ (mem_of_child? ‹_›))
    · split
      · exact ih _ hrest
      · exact .touch (touches_define ..) (ih _ hrest)

theorem stays_runPass {body : Node} {scope : Nat} (home : ScopeIn w stack.setting.activation scope)
    (occurs : program.Occurs stack.setting.path body) :
    (w.runPass stack body scope).Stays program w stack := by
  have inner : stack.setting.Keeps program (w.childScope scope).2 (w.childScope scope).1
      (if body.kind = .block then body.children else [body]) := by
    refine ⟨home.child, ?_⟩
    split
    · rename_i kind
      exact fun c hc => occurs.child (by rw [kind]; rfl) hc
    · exact List.forall_mem_singleton.mpr occurs
  exact .touch (touches_childScope scope) (stays_enterFrame _ _ _ _ inner (met_of_not_jump rfl))

theorem stays_afterPassThen {reason : ExitReason} {labels : List Text} (body : Node)
    (met : reason.Met program (.loop labels body :: stack.setting.path)) (again : World → Running)
    (h : (again w).Stays program w stack) :
    (w.afterPassThen stack reason labels again).Stays program w stack := by
  unfold World.afterPassThen
  split
  · exact h
  · rename_i left e
    exact .here (met_afterPass met e)

theorem stays_testFor {loop : CountingLoop} {scope : Nat}
    (belongs : loop.Belongs program w stack.setting scope) :
    (w.testFor stack loop scope).Stays program w stack := by
  unfold World.testFor
  split
  · exact (stays_runPass _ (.forPass loop scope :: stack) belongs.scope belongs.body).under rfl belongs
  · exact .push rfl belongs belongs.condition

theorem CountingLoop.Belongs.copy {w : World} {Γ : Setting} {loop : CountingLoop} {scope : Nat}
    (h : loop.Belongs program w Γ scope) :
    loop.Belongs program (w.copyScope loop scope).2 Γ (w.copyScope loop scope).1 :=
  ⟨h.scope.copy loop, h.condition, h.step, h.body⟩

theorem stays_startFor {loop : CountingLoop} {scope : Nat}
    (belongs : loop.Belongs program w stack.setting scope) :
    (w.startFor stack loop scope).Stays program w stack :=
  .touch (touches_copyScope loop scope) (stays_testFor _ _ (CountingLoop.Belongs.copy belongs))

theorem stays_stepFor {loop : CountingLoop} {scope : Nat}
    (belongs : loop.Belongs program w stack.setting scope) :
    (w.stepFor stack loop scope).Stays program w stack := by
  have copied := CountingLoop.Belongs.copy belongs
  simp only [World.stepFor]
  refine .touch (touches_copyScope loop scope) ?_
  split
  · exact stays_testFor _ _ copied
  · exact .push rfl copied copied.step

theorem stays_runElement {loop : ElementLoop} (belongs : loop.Belongs program w stack.setting)
    (value : Value) : (w.runElement stack loop value).Stays program w stack := by
  have made := @touches_childScope program w loop.scope
  have bound := @touches_bind program (w.childScope loop.scope).2
    (w.childScope loop.scope).1 loop.name value
  have touched := made.trans bound
  refine .touch touched (.under (f := .forOfPass loop) ?_ rfl ⟨belongs.scope.widen touched.wide, belongs.body⟩)
  exact stays_runPass _ (.forOfPass loop :: stack) (belongs.scope.child.widen bound.wide) belongs.body

theorem stays_runFound {loop : ElementLoop} (belongs : loop.Belongs program w stack.setting)
    (value? : Option Value) : (w.runFound stack loop value?).Stays program w stack := by
  unfold World.runFound
  split
  · have next : ElementLoop.Belongs program w stack.setting { loop with position := loop.position + 1 } :=
      ⟨belongs.scope, belongs.body⟩
    exact stays_runElement w stack next _
  · exact .here (met_of_not_jump rfl)

theorem confines_nextElement {loop : ElementLoop} (belongs : loop.Belongs program w stack.setting) :
    (w.nextElement stack loop).Confines program w stack := by
  unfold World.nextElement
  split
  · exact .stays (stays_runFound _ _ belongs _)
  · exact .stays (stays_runFound _ _ belongs _)
  · exact (Confines.resume ..).under rfl belongs
  · exact .stays (.attempt fun _ _ => .here trivial)

theorem confines_startForOf {node : Node} {scope : Nat} {labels : List Text}
    (home : ScopeIn w stack.setting.activation scope)
    (occurs : ∀ body, node.children[1]? = some body →
      program.Occurs (.loop labels body :: stack.setting.path) body) (iterable : Value) :
    (w.startForOf stack node scope labels iterable).Confines program w stack := by
  unfold World.startForOf
  split
  · exact .stays (.here trivial)
  · exact confines_nextElement w stack ⟨home, occurs _ ‹_›⟩

theorem confines_leaveForOf (loop : ElementLoop) {reason : ExitReason}
    (met : reason.Met program stack.setting.path) :
    (w.leaveForOf stack loop reason).Confines program w stack := by
  unfold World.leaveForOf
  split
  · exact (Confines.resume ..).under rfl met
  · exact .stays (.here met)

theorem confines_abandonForOf (loop : ElementLoop) (failure : Failure) :
    (w.abandonForOf stack loop failure).Confines program w stack := by
  unfold World.abandonForOf
  split
  · split
    · exact (Confines.resume ..).under rfl trivial
    · exact .stays (.here trivial)
  · exact .stays (.here trivial)

/-- The statements of clauses are among their children. -/
theorem mem_clausesStatements {clauses : List Node} {n : Node} (h : n ∈ clausesStatements clauses) :
    n ∈ clauses.flatMap Node.children := by
  obtain ⟨clause, hclause, hn⟩ := List.mem_flatMap.mp h
  refine List.mem_flatMap.mpr ⟨clause, hclause, ?_⟩
  unfold clauseStatements at hn
  split at hn
  · exact List.mem_of_mem_drop hn
  · exact hn

theorem stays_testClauses (subject : Value) {scope : Nat} {fallback : Option (List Node)}
    {rest : List Node} (keeps : stack.setting.Keeps program w scope (rest.flatMap Node.children))
    (hf : ∀ clauses ∈ fallback, stack.setting.Keeps program w scope (clauses.flatMap Node.children)) :
    (w.testClauses stack subject scope fallback rest).Stays program w stack := by
  induction rest generalizing fallback with
  | nil =>
    refine .push rfl ⟨keeps.scope, fun n hn => ?_⟩ (met_of_not_jump rfl)
    cases fallback with
    | none => contradiction
    | some clauses => exact (hf clauses rfl).occurs n (mem_clausesStatements hn)
  | cons clause rest ih =>
    have later : stack.setting.Keeps program w scope (rest.flatMap Node.children) :=
      ⟨keeps.scope, fun n hn => keeps.occurs n (List.mem_append_right _ hn)⟩
    unfold World.testClauses
    split
    · exact ih later fun clauses hc => Option.some.inj hc ▸ keeps
    · refine Stays.under (f := .switchTest subject clause rest fallback scope) ?_ rfl ⟨keeps, hf⟩
      exact stays_evaluateChild _ _ (fun c hc => (keeps.occurs c (List.mem_append_left _ hc)).holds) _ _

theorem stays_runSwitch {node : Node} {scope : Nat} {labels : List Text}
    (home : ScopeIn w stack.setting.activation scope)
    (occurs : ∀ c ∈ node.children.drop 1, ∀ n ∈ c.children,
      program.Occurs (.switch labels :: stack.setting.path) n) (subject : Value) :
    (w.runSwitch stack node scope labels subject).Stays program w stack := by
  have keeps : Setting.Keeps program (w.childScope scope).2 (Stack.setting (.switchEnd labels :: stack))
      (w.childScope scope).1 ((node.children.drop 1).flatMap Node.children) := by
    refine ⟨home.child, fun n hn => ?_⟩
    obtain ⟨c, hc, hn⟩ := List.mem_flatMap.mp hn
    exact occurs c hc n hn
  refine .touch (touches_childScope scope) (Stays.under (f := .switchEnd labels) ?_ rfl trivial)
  unfold World.runSwitch
  refine stays_openFrame _ (.switchEnd labels :: stack) _ _ keeps.scope
    (fun n hn => (keeps.occurs n (mem_clausesStatements hn)).holds)
    (met_of_not_jump (r := .normal) rfl) fun w' handle wide => ?_
  exact stays_testClauses w' (.scopeBody _ handle .normal :: .switchEnd labels :: stack) _ (keeps.mono wide)
    (fun _ h => by cases h)

theorem stays_finish {finalizer : Node} {scope : Nat} (keeps : stack.setting.Keeps program w scope [finalizer])
    {reason : ExitReason} (met : reason.Met program stack.setting.path) :
    (w.finish stack finalizer scope reason).Stays program w stack := by
  unfold World.finish
  split
  · exact stays_complete _ _ met
  · exact .push rfl met keeps

theorem stays_handle {handler finalizer : Node} {scope : Nat}
    (keeps : stack.setting.Keeps program w scope (finalizer :: handler.children)) (failure : Failure) :
    (w.handle stack handler finalizer scope failure).Stays program w stack := by
  obtain ⟨last, inside⟩ := List.forall_mem_cons.mp keeps.occurs
  have after : ∀ {w' : World}, w.Widens w' → stack.setting.Keeps program w' scope [finalizer] := fun wide =>
    ⟨keeps.scope.widen wide, List.forall_mem_singleton.mpr last⟩
  have started : ∀ {w' : World} {inner : Nat}, w.Widens w' → ScopeIn w' stack.setting.activation inner →
      (w'.executeChild (.catchBody finalizer scope :: stack) handler 0 inner).Stays program w' stack :=
    fun wide home => .under (f := .catchBody finalizer scope)
      (stays_executeChild _ (.catchBody finalizer scope :: stack) ⟨home, inside⟩ 0) rfl (after wide)
  have made := @touches_childScope program w scope
  simp only [World.handle]
  split
  · exact stays_finish _ _ (after (.refl w)) (met_of_not_jump rfl)
  · refine .touch made ?_
    split
    · exact started made.wide keeps.scope.child
    · have valued := @touches_same program (w.childScope scope).2 _
        (failureValue_closures failure (w.childScope scope).2.heap)
      have bound := valued.trans (touches_bind (w.childScope scope).1 handler.name
        ((w.childScope scope).2.heap.failureValue failure).1)
      exact .touch bound (started (made.wide.trans bound.wide) (keeps.scope.child.widen bound.wide))

theorem stays_executeTarget {node : Node} {scope : Nat} {labels : List Text}
    (home : ScopeIn w stack.setting.activation scope)
    (parts : ∀ x ∈ node.targetParts stack.setting.path labels, program.Occurs x.1 x.2) :
    (w.executeTarget stack node scope labels).Stays program w stack := by
  simp only [World.executeTarget]
  split
  · rename_i condition body kind children
    simp only [Node.targetParts, kind, children, List.forall_mem_cons] at parts
    exact .push rfl ⟨home, parts.1.holds, parts.2.1⟩ parts.1.holds
  · rename_i body condition kind children
    simp only [Node.targetParts, kind, children, List.forall_mem_cons] at parts
    refine Stays.under (f := .doPass ⟨condition, body, scope, labels⟩) ?_ rfl ⟨home, parts.2.1.holds, parts.1⟩
    exact stays_runPass _ (.doPass ⟨condition, body, scope, labels⟩ :: stack) home parts.1
  · rename_i start condition step body kind children
    simp only [Node.targetParts, kind, children, List.forall_mem_cons] at parts
    obtain ⟨hstart, hcondition, hstep, hbody, -⟩ := parts
    refine .touch (touches_childScope scope) ?_
    split
    · exact stays_startFor _ _ ⟨home.child, hcondition.holds, hstep.holds, hbody⟩
    · exact .push rfl ⟨home.child, hcondition.holds, hstep.holds, hbody⟩
        ⟨home.child, List.forall_mem_singleton.mpr hstart⟩
  · rename_i kind
    refine Stays.under (f := .forOfSubject node scope labels) ?_ rfl
      ⟨home, fun body h => parts _ (Node.mem_targetParts_forOf kind h)⟩
    unfold World.evaluateChild
    split
    · exact .here (parts _ (Node.mem_targetParts_subject (.inl kind) ‹_›)).holds
    · exact .here trivial
  · rename_i kind
    refine Stays.under (f := .switchSubject node scope labels) ?_ rfl
      ⟨home, fun c hc n hn => parts _ (Node.mem_targetParts_clause kind hc hn)⟩
    unfold World.evaluateChild
    split
    · exact .here (parts _ (Node.mem_targetParts_subject (.inr kind) ‹_›)).holds
    · exact .here trivial
  · exact .here trivial

theorem stays_executeLabeled {node : Node} {scope : Nat}
    (keeps : stack.setting.Keeps program w scope [node]) (kind : node.kind = .labeled) :
    (w.executeLabeled stack node scope).Stays program w stack := by
  have occurs := keeps.occurs node (List.mem_singleton_self _)
  unfold World.executeLabeled
  refine .attempt fun x e => ?_
  obtain ⟨labels, target⟩ := x
  have parts : node.parts stack.setting.path =
      if target.kind.isLoop || target.kind = .switch then
        target.targetParts (.labeled labels :: stack.setting.path) (labels.filterMap id)
      else [(.labeled labels :: stack.setting.path, target)] := by
    unfold Node.parts
    rw [kind]
    simp only [e]
  refine Stays.under (f := .labeled labels) ?_ rfl trivial
  dsimp only
  split
  · rename_i isTarget
    rw [if_pos isTarget] at parts
    exact stays_executeTarget _ (.labeled labels :: stack) keeps.scope fun x hx => occurs.part (parts ▸ hx)
  · rename_i other
    rw [if_neg other] at parts
    refine .here ⟨keeps.scope, List.forall_mem_singleton.mpr (occurs.part ?_)⟩
    rw [parts]
    exact List.mem_singleton_self _

theorem stays_executeCompound {node : Node} {scope : Nat}
    (keeps : stack.setting.Keeps program w scope [node]) (compound : isCompound node.kind = true) :
    (w.executeCompound stack node scope).Stays program w stack := by
  have occurs := keeps.occurs node (List.mem_singleton_self _)
  have first : Node.arranges node.kind = false → ∀ i, (w.evaluateChild stack node i scope).Stays program w
      stack := fun kind i => stays_evaluateChild _ _ (fun c hc => (occurs.child kind hc).holds) _ _
  unfold World.executeCompound
  split
  · rename_i kind
    refine Stays.under (f := .expressionStatement) ?_ rfl trivial
    exact stays_evaluateChild _ _ (occurs.holds.child (by rw [kind]; rfl)) _ _
  · rename_i kind
    refine stays_declare _ _ _ _ _ fun d hd n hn =>
      (occurs.part ?_ : program.Occurs stack.setting.path n).holds
    unfold Node.parts
    rw [kind]
    exact List.mem_map_of_mem (List.mem_flatMap.mpr ⟨d, hd, hn⟩)
  · rename_i kind
    refine .touch (touches_childScope scope) (stays_enterFrame _ _ _ _ ⟨keeps.scope.child, ?_⟩
      (met_of_not_jump rfl))
    exact fun c hc => occurs.child (by rw [kind]; rfl) hc
  · rename_i kind
    have plain : Node.arranges node.kind = false := by rw [kind]; rfl
    refine Stays.under (f := .ifCondition node scope) ?_ rfl ⟨keeps.scope, fun c hc => occurs.child plain hc⟩
    exact stays_evaluateChild _ _ (occurs.holds.child plain) _ _
  · rename_i kind
    split
    · exact .push rfl trivial (occurs.holds.child (by rw [kind]; rfl) _ (mem_of_child? ‹_›))
    · exact .here (met_of_not_jump rfl)
  · rename_i kind
    refine Stays.under (f := .throwValue) ?_ rfl trivial
    exact stays_evaluateChild _ _ (occurs.holds.child (by rw [kind]; rfl)) _ _
  · rename_i kind
    split
    · rename_i block handler finalizer children
      have parts : ∀ m ∈ block :: finalizer :: handler.children, program.Occurs stack.setting.path m := by
        intro m hm
        refine occurs.part ?_
        unfold Node.parts
        rw [kind]
        simp only [children]
        exact List.mem_map_of_mem hm
      obtain ⟨hblock, hrest⟩ := List.forall_mem_cons.mp parts
      exact .push rfl ⟨keeps.scope, hrest⟩ ⟨keeps.scope, List.forall_mem_singleton.mpr hblock⟩
    · exact .here trivial
  · exact stays_executeLabeled _ _ keeps ‹_›
  · refine stays_executeTarget _ _ keeps.scope fun x hx => occurs.part ?_
    have isTarget : node.kind.isLoop = true ∨ node.kind = .switch := by
      cases hk : node.kind <;> simp_all [isCompound, NodeKind.isLoop]
    rwa [Node.parts_target isTarget]

theorem stays_execute {node : Node} {scope : Nat} (keeps : stack.setting.Keeps program w scope [node]) :
    (w.execute stack node scope).Stays program w stack := by
  have occurs := keeps.occurs node (List.mem_singleton_self _)
  have counted := @touches_stats program w { w.stats with statements := w.stats.statements + 1 }
  have keeps := keeps.mono counted.wide
  refine .touch counted ?_
  simp only [World.execute]
  split
  · rename_i kind
    refine .here (occurs.met ?_)
    unfold Node.leaves?
    rw [kind]
  · rename_i kind
    refine .here (occurs.met ?_)
    unfold Node.leaves?
    rw [kind]
  · exact .here (met_of_not_jump rfl)
  · exact .here (met_of_not_jump rfl)
  · exact stays_register _ _ keeps ‹_› fun _ => .here (met_of_not_jump rfl)
  · split
    · exact Stays.under (f := .statementEnd)
        (stays_executeCompound _ (.statementEnd :: stack) keeps ‹_›) rfl trivial
    · exact .here trivial

/-! ### Expressions -/

theorem stays_template (before : List Text) {rest : List Node} (holds : ∀ n ∈ rest, program.Holds n)
    (scope : Nat) : (w.template stack before rest scope).Stays program w stack := by
  unfold World.template
  split
  · exact .here trivial
  · obtain ⟨hpart, hrest⟩ := List.forall_mem_cons.mp holds
    exact .push rfl hrest hpart

theorem confines_arguments (hw : w.Settled program) (callee : Callee) (before : List Value)
    {rest : List Node} (holds : ∀ n ∈ rest, program.Holds n) (scope : Nat) :
    (w.arguments stack callee before rest scope).Confines program w stack := by
  unfold World.arguments
  split
  · exact confines_call _ _ hw ..
  · obtain ⟨ha, hrest⟩ := List.forall_mem_cons.mp holds
    exact .stays (.push rfl hrest ha)

theorem confines_newArguments (constructor : Value) (before : List Value) {rest : List Node}
    (holds : ∀ n ∈ rest, program.Holds n) (scope : Nat) :
    (w.newArguments stack constructor before rest scope).Confines program w stack := by
  unfold World.newArguments
  split
  · exact confines_construct ..
  · obtain ⟨ha, hrest⟩ := List.forall_mem_cons.mp holds
    exact .stays (.push rfl hrest ha)

theorem stays_elements (before : List Value) {rest : List Node} (holds : ∀ n ∈ rest, program.Holds n)
    (scope : Nat) : (w.elements stack before rest scope).Stays program w stack := by
  unfold World.elements
  split
  · exact .heap (w.heap.newArray _).2 rfl (.here trivial)
  · obtain ⟨he, hrest⟩ := List.forall_mem_cons.mp holds
    exact .push rfl hrest he

theorem stays_properties (ref : Nat) {rest : List Node}
    (holds : ∀ p ∈ rest, ∀ n ∈ p.children, program.Holds n) (scope : Nat) :
    (w.properties stack ref rest scope).Stays program w stack := by
  unfold World.properties
  split
  · exact .here trivial
  · rename_i p rest
    obtain ⟨hp, hrest⟩ := List.forall_mem_cons.mp holds
    exact Stays.under (f := .objectProperty ref p.name rest scope) (stays_evaluateChild _ _ hp _ _) rfl hrest

theorem stays_sequence {rest : List Node} (holds : ∀ n ∈ rest, program.Holds n) (scope : Nat)
    (value : Value) : (w.sequence stack rest scope value).Stays program w stack := by
  unfold World.sequence
  split
  · exact .here trivial
  · obtain ⟨he, hrest⟩ := List.forall_mem_cons.mp holds
    exact .push rfl hrest he

theorem stays_store (place : Place) (value result : Value) :
    (w.store stack place value result).Stays program w stack :=
  .touching (touches_writePlace ..) fun _ => .here trivial

theorem stays_update (place : Place) (op : Text) (isLeading : Bool) :
    (w.update stack place op isLeading).Stays program w stack :=
  .touching (touches_readPlace _) fun _ => .attempt fun _ _ => stays_store ..

theorem stays_assignTo (place : Place) (op : Option Text) {right : Node} (holds : program.Holds right)
    (scope : Nat) : (w.assignTo stack place op right scope).Stays program w stack := by
  simp only [World.assignTo]
  split
  · exact .push rfl trivial holds
  · refine .touching (touches_readPlace _) fun current => ?_
    split
    · refine .attempt fun keeps _ => ?_
      split
      · exact .here trivial
      · exact .push rfl trivial holds
    · exact .push rfl trivial holds

theorem stays_assignCombined (place : Place) (op : Option Text) (current operand : Value) :
    (w.assignCombined stack place op current operand).Stays program w stack := by
  unfold World.assignCombined
  split
  · exact .here trivial
  · exact .attempt fun _ _ => stays_store ..

theorem stays_usePlace (place : Place) {use : PlaceUse} (holds : use.Holds program) :
    (w.usePlace stack place use).Stays program w stack := by
  unfold World.usePlace
  split
  · exact stays_update ..
  · exact stays_assignTo _ _ _ _ holds _

theorem stays_findPlace {target : Node} (parts : ∀ n ∈ target.children, program.Holds n) (scope : Nat)
    {use : PlaceUse} (holds : use.Holds program) :
    (w.findPlace stack target scope use).Stays program w stack := by
  unfold World.findPlace
  split
  · exact stays_usePlace _ _ _ holds
  · exact Stays.under (f := .placeObject target scope use) (stays_evaluateChild _ _ parts _ _) rfl ⟨parts, holds⟩

theorem stays_findPlaceIn (object : Value) {target : Node} (parts : ∀ n ∈ target.children, program.Holds n)
    (scope : Nat) {use : PlaceUse} (holds : use.Holds program) :
    (w.findPlaceIn stack object target scope use).Stays program w stack := by
  unfold World.findPlaceIn
  split
  · exact .touch (touches_memberKey target) (stays_usePlace _ _ _ holds)
  · exact Stays.under (f := .placeKey object use) (stays_evaluateChild _ _ parts _ _) rfl holds

theorem confines_callMethod (hw : w.Settled program) (object key : Value) {rest : List Node}
    (holds : ∀ n ∈ rest, program.Holds n) (scope : Nat) :
    (w.callMethod stack object key rest scope).Confines program w stack :=
  have found := touches_getProperty object key
  .perform found fun _ => .attempt fun _ => confines_arguments _ _ (found.settled hw) _ _ holds _

theorem stays_findCallee {callee : Node} (hcallee : program.Holds callee) {rest : List Node}
    (holds : ∀ n ∈ rest, program.Holds n) (scope : Nat) :
    (w.findCallee stack callee rest scope).Stays program w stack := by
  have inside : Node.arranges callee.kind = false →
      Stays program w stack (w.evaluateChild (.calleeObject callee rest scope :: stack) callee 0 scope) := by
    intro plain
    have parts := hcallee.child plain
    refine Stays.under (f := .calleeObject callee rest scope) (stays_evaluateChild _ _ parts _ _) rfl ?_
    exact fun n hn => (List.mem_append.mp hn).elim (parts n) (holds n)
  unfold World.findCallee
  split
  · rename_i kind
    exact inside (by rw [kind]; rfl)
  · rename_i kind
    exact inside (by rw [kind]; rfl)
  · exact .push rfl holds hcallee

theorem confines_findMethod (hw : w.Settled program) (object : Value) {callee : Node} {rest : List Node}
    (holds : ∀ n ∈ callee.children ++ rest, program.Holds n) (scope : Nat) :
    (w.findMethod stack object callee rest scope).Confines program w stack := by
  obtain ⟨hcallee, hrest⟩ := List.forall_mem_append.mp holds
  unfold World.findMethod
  split
  · have touched := @touches_memberKey program w callee
    exact .after touched (confines_callMethod _ _ (touched.settled hw) _ _ hrest _)
  · exact .stays (Stays.under (f := .calleeKey object rest scope) (stays_evaluateChild _ _ hcallee _ _) rfl hrest)

theorem stays_read (object key : Value) : (w.read stack object key).Stays program w stack :=
  .touching (touches_getProperty ..) fun _ => .here trivial

theorem stays_logical (op : Text) (left : Value) {right : Option Node}
    (holds : ∀ n ∈ right, program.Holds n) (scope : Nat) :
    (w.logical stack op left right scope).Stays program w stack := by
  refine .attempt fun decided _ => ?_
  split
  · exact .here trivial
  · split
    · exact .here (holds _ rfl)
    · exact .here trivial

theorem stays_unary {node : Node} (holds : ∀ n ∈ node.children, program.Holds n) (scope : Nat) :
    (w.unary stack node scope).Stays program w stack := by
  unfold World.unary
  split
  · exact .here trivial
  · rename_i children
    split
    · exact .here trivial
    · split
      · exact .here trivial
      · refine .push rfl trivial (holds _ ?_)
        rw [children]
        exact List.mem_cons_self ..

/-- The operand of an assignment and the parts of its target. -/
theorem holds_assignment {node : Node} (holds : program.Holds node)
    (kind : node.kind = .update ∨ node.kind = .assign) {target : Node} {rest : List Node}
    (children : node.children = target :: rest) :
    (∀ n ∈ target.children, program.Holds n) ∧ ∀ n ∈ rest, program.Holds n := by
  obtain ⟨path, occurs⟩ := holds
  have parts : ∀ m ∈ target :: rest ++ target.children, program.Holds m := by
    intro m hm
    refine ⟨path, occurs.part ?_⟩
    unfold Node.parts
    rcases kind with kind | kind <;> rw [kind] <;> simp only [children] <;>
      exact List.mem_map_of_mem (by simpa using hm)
  exact ⟨fun n hn => parts n (List.mem_append_right _ hn),
    fun n hn => parts n (List.mem_append_left _ (List.mem_cons_of_mem _ hn))⟩

theorem stays_evaluate {node : Node} (holds : program.Holds node) (scope : Nat) :
    (w.evaluate stack node scope).Stays program w stack := by
  have child := holds.child
  have first : ∀ {n : Node} {rest : List Node}, node.children = n :: rest → n ∈ node.children := by
    intro n rest e
    rw [e]
    exact List.mem_cons_self ..
  unfold World.evaluate
  split
  · exact .touch (touches_load _) (.here trivial)
  · exact .attempt fun _ _ => .here trivial
  · rename_i kind
    exact .touching (touches_makeFunction holds (by rw [kind]; rfl) scope) fun _ => .here trivial
  · rename_i kind
    exact stays_template _ _ _ (child (by rw [kind]; rfl)) _
  · rename_i kind
    have parts := child (by rw [kind]; rfl)
    split
    · rename_i left rest children
      refine .push rfl (fun n hn => parts n ?_) (parts _ (first children))
      rw [children]
      exact List.mem_cons_of_mem _ (List.mem_of_mem_head? hn)
    · exact .here trivial
  · rename_i kind
    have parts := child (by rw [kind]; rfl)
    refine Stays.under (f := .logicalLeft node.name node.children[1]? scope) ?_ rfl
      fun n hn => parts n (List.mem_of_getElem? hn)
    exact stays_evaluateChild _ _ parts _ _
  · rename_i kind
    exact stays_unary _ _ (child (by rw [kind]; rfl)) _
  · rename_i kind
    split
    · rename_i children
      exact stays_findPlace _ _ (holds_assignment holds (.inl kind) children).1 _ trivial
    · exact .here trivial
  · rename_i kind
    split
    · rename_i children
      obtain ⟨htarget, hright⟩ := holds_assignment holds (.inr kind) children
      exact stays_findPlace _ _ htarget _ (hright _ (List.mem_singleton_self _))
    · exact .here trivial
  · rename_i kind
    have parts := child (by rw [kind]; rfl)
    split
    · rename_i callee rest children
      rw [children] at parts
      obtain ⟨hcallee, hrest⟩ := List.forall_mem_cons.mp parts
      exact stays_findCallee _ _ hcallee hrest _
    · exact .here trivial
  · rename_i kind
    refine .touch (touches_memberKey node) (Stays.under (f := .memberObject (w.memberKey node).1) ?_ rfl trivial)
    exact stays_evaluateChild _ _ (child (by rw [kind]; rfl)) _ _
  · rename_i kind
    have parts := child (by rw [kind]; rfl)
    refine Stays.under (f := .indexObject node.children[1]? scope) ?_ rfl
      fun n hn => parts n (List.mem_of_getElem? hn)
    exact stays_evaluateChild _ _ parts _ _
  · rename_i kind
    exact stays_elements _ _ _ (child (by rw [kind]; rfl)) _
  · rename_i kind
    refine .heap (w.heap.newObject {}).2 rfl (stays_properties _ _ _ ?_ _)
    obtain ⟨path, occurs⟩ := holds
    intro p hp n hn
    refine ⟨path, occurs.part ?_⟩
    unfold Node.parts
    rw [kind]
    exact List.mem_map_of_mem (List.mem_flatMap.mpr ⟨p, hp, hn⟩)
  · rename_i kind
    have parts := child (by rw [kind]; rfl)
    split
    · rename_i callee rest children
      rw [children] at parts
      obtain ⟨hcallee, hrest⟩ := List.forall_mem_cons.mp parts
      exact .push rfl hrest hcallee
    · exact .here trivial
  · rename_i kind
    refine Stays.under (f := .awaitOperand) ?_ rfl trivial
    exact stays_evaluateChild _ _ (child (by rw [kind]; rfl)) _ _
  · rename_i kind
    split
    · exact .push rfl trivial (child (by rw [kind]; rfl) _ (mem_of_child? ‹_›))
    · exact .here trivial
  · rename_i kind
    have parts := child (by rw [kind]; rfl)
    refine Stays.under (f := .conditionalTest node scope) ?_ rfl parts
    exact stays_evaluateChild _ _ parts _ _
  · rename_i kind
    exact stays_sequence _ _ (child (by rw [kind]; rfl)) _ _
  · exact .here trivial

/-! ### Outcomes -/

theorem stays_branch (v : Value) {yes no : World → Running} (hyes : (yes w).Stays program w stack)
    (hno : (no w).Stays program w stack) : (w.branch stack v yes no).Stays program w stack := by
  refine .attempt fun b _ => ?_
  split
  · exact hyes
  · exact hno

theorem stays_evaluateOperand {operand : Option Node} (holds : ∀ n ∈ operand, program.Holds n)
    (scope : Nat) {frame : Frame} (token : frame.token? = none)
    (belongs : frame.Belongs program w stack.setting) :
    (w.evaluateOperand stack operand scope frame).Stays program w stack := by
  unfold World.evaluateOperand
  split
  · exact .push token belongs (holds _ rfl)
  · exact .here trivial

theorem stays_give (r : Conversion Value) : (w.give stack r).Stays program w stack :=
  .attempt fun _ _ => .here trivial

variable {f : Frame}

theorem confines_onValue (hw : w.Settled program) (belongs : f.Belongs program w stack.setting)
    (plain : f.isPlain = true) (v : Value) : (w.onValue stack v f).Confines program w stack := by
  cases f with
  | declare => exact .stays (.touch (touches_define ..) (stays_declare _ _ _ _ _ belongs))
  | ifCondition node scope =>
    refine .stays (stays_branch _ _ _ (stays_executeChild _ _ belongs _) ?_)
    split
    · rename_i alternative e
      exact .here ⟨belongs.scope, List.forall_mem_singleton.mpr (belongs.occurs _ (mem_of_child? e))⟩
    · exact .here (met_of_not_jump rfl)
  | returnValue | expressionStatement => exact .stays (.here (met_of_not_jump rfl))
  | whileCondition loop =>
    refine .stays (stays_branch _ _ _ ?_ (.here (met_of_not_jump rfl)))
    exact Stays.under (f := .whilePass loop)
      (stays_runPass _ (.whilePass loop :: stack) belongs.scope belongs.body) rfl belongs
  | doCondition loop =>
    refine .stays (stays_branch _ _ _ ?_ (.here (met_of_not_jump rfl)))
    exact Stays.under (f := .doPass loop)
      (stays_runPass _ (.doPass loop :: stack) belongs.scope belongs.body) rfl belongs
  | forCondition loop scope =>
    refine .stays (stays_branch _ _ _ ?_ (.here (met_of_not_jump rfl)))
    exact Stays.under (f := .forPass loop scope)
      (stays_runPass _ (.forPass loop scope :: stack) belongs.scope belongs.body) rfl belongs
  | forStep => exact .stays (stays_testFor _ _ belongs)
  | forOfSubject => exact confines_startForOf _ _ belongs.1 belongs.2 _
  | switchSubject => exact .stays (stays_runSwitch _ _ belongs.1 belongs.2 _)
  | switchTest subject clause rest fallback scope =>
    simp only [World.onValue]
    split
    · exact .stays (.push rfl ⟨belongs.1.scope, fun n hn => belongs.1.occurs n (mem_clausesStatements hn)⟩
        (met_of_not_jump rfl))
    · exact .stays (stays_testClauses _ _ _
        ⟨belongs.1.scope, fun n hn => belongs.1.occurs n (List.mem_append_right _ hn)⟩ belongs.2)
  | templatePart => exact .stays (.attempt fun _ _ => stays_template _ _ _ belongs _)
  | binaryLeft | indexObject => exact .stays (stays_evaluateOperand _ _ belongs _ rfl trivial)
  | binaryRight | unaryOperand => exact .stays (stays_give ..)
  | logicalLeft => exact .stays (stays_logical _ _ _ _ belongs _)
  | placeObject => exact .stays (stays_findPlaceIn _ _ _ belongs.1 _ belongs.2)
  | placeKey => exact .stays (stays_usePlace _ _ _ belongs)
  | assignValue => exact .stays (stays_store ..)
  | assignCombined => exact .stays (stays_assignCombined ..)
  | calleeObject => exact confines_findMethod _ _ hw _ belongs _
  | calleeKey => exact confines_callMethod _ _ hw _ _ belongs _
  | calleeValue | argument => exact confines_arguments _ _ hw _ _ belongs _
  | newCallee | newArgument => exact confines_newArguments _ _ _ _ belongs _
  | memberObject | indexKey => exact .stays (stays_read ..)
  | arrayElement => exact .stays (stays_elements _ _ _ belongs _)
  | objectProperty => exact .stays (.heap (w.heap.setProperty _ _ v) rfl (stays_properties _ _ _ belongs _))
  | conditionalTest =>
    exact .stays (stays_branch _ _ _ (stays_evaluateChild _ _ belongs _ _)
      (stays_evaluateChild _ _ belongs _ _))
  | sequenceElement => exact .stays (stays_sequence _ _ belongs _ _)
  | parameter closure name rest arguments scope =>
    have bound := @touches_bind program w scope name v
    exact .stays (.touch bound (stays_bindParameters _ _ (bound.settled hw) _ (belongs.1.widen bound.wide)
      belongs.2.1 belongs.2.2 _))
  | activationEnd | callEnd | syncBoundary | asyncStart | asyncDrive | generatorBoundary | taskStart | nap
  | taskEnd | programEnd => contradiction
  | _ => exact .stays (.here trivial)

theorem confines_onComplete (belongs : f.Belongs program w stack.setting) (plain : f.isPlain = true)
    {reason : ExitReason} (met : reason.Met program (Stack.setting (f :: stack)).path) :
    (w.onComplete stack reason f).Confines program w stack := by
  cases f with
  | statements rest scope =>
    refine .stays ?_
    simp only [World.onComplete]
    split
    · exact .here met
    · split
      · exact .here (met_of_not_jump rfl)
      · rename_i s rest
        obtain ⟨hs, hrest⟩ := List.forall_mem_cons.mp belongs.occurs
        exact .push rfl ⟨belongs.scope, hrest⟩ ⟨belongs.scope, List.forall_mem_singleton.mpr hs⟩
  | scopeBody a handle atEnd =>
    refine .stays (stays_leaveBody _ _ belongs.1 _ ?_)
    split
    · exact belongs.2
    · exact met
  | scopeEnd => exact .stays (stays_complete _ _ met)
  | draining => exact .stays (stays_settleAction _ _ belongs.1 belongs.2 _)
  | labeled labels => exact .stays (.here (met_afterLabeled met))
  | whilePass loop =>
    exact .stays (stays_afterPassThen _ _ _ met (·.testWhile stack loop) (.push rfl belongs belongs.condition))
  | doPass loop =>
    exact .stays (stays_afterPassThen _ _ _ met (fun w =>
      ⟨w, .evaluate loop.condition loop.scope, .doCondition loop :: stack⟩)
      (.push rfl belongs belongs.condition))
  | forStart =>
    simp only [World.onComplete]
    split
    · exact .stays (.here met)
    · exact .stays (stays_startFor _ _ belongs)
  | forPass loop scope =>
    exact .stays (stays_afterPassThen _ _ _ met (·.stepFor stack loop scope) (stays_stepFor _ _ belongs))
  | forOfPass loop =>
    simp only [World.onComplete]
    split
    · exact confines_nextElement _ _ belongs
    · exact confines_leaveForOf _ _ _ (met_afterPass met ‹_›)
  | switchEnd labels => exact .stays (.here (met_afterSwitch met))
  | tryBody handler finalizer scope =>
    refine .stays (stays_finish _ _ ⟨belongs.scope, fun n hn => ?_⟩ met)
    exact belongs.occurs n (List.mem_singleton.mp hn ▸ List.mem_cons_self ..)
  | catchBody => exact .stays (stays_finish _ _ belongs met)
  | finallyBody =>
    simp only [World.onComplete]
    split
    · exact .stays (.here met)
    · exact .stays (stays_complete _ _ belongs)
  | functionEnd =>
    simp only [World.onComplete]
    split <;> exact .stays (.here trivial)
  | activationEnd | callEnd | syncBoundary | asyncStart | asyncDrive | generatorBoundary | taskStart | nap
  | taskEnd | programEnd => contradiction
  | _ => exact .stays (.here met)

theorem stays_onResumed (belongs : f.Belongs program w stack.setting) (v : Value) (done : Bool) :
    (w.onResumed stack v done f).Stays program w stack := by
  cases f with
  | iterationResult => exact .heap (w.heap.newObject _).2 rfl (.here trivial)
  | forOfNext =>
    simp only [World.onResumed]
    split
    · exact .here (met_of_not_jump rfl)
    · exact stays_runElement _ _ belongs _
  | forOfClose => exact .here belongs
  | _ => exact .here trivial

theorem confines_onRaise (belongs : f.Belongs program w stack.setting) (plain : f.isPlain = true)
    (other : f ≠ .settling) (failure : Failure) :
    (w.onRaise stack failure f).Confines program w stack := by
  cases f with
  | statementEnd =>
    simp only [World.onRaise]
    split
    · exact .stays (.here (met_of_not_jump rfl))
    · exact .stays (.here trivial)
  | scopeBody =>
    refine .stays ?_
    simp only [World.onRaise]
    split
    · exact stays_leaveBody _ _ belongs.1 _ (met_of_not_jump rfl)
    · split
      · exact stays_leaveBody _ _ belongs.1 _ (met_of_not_jump rfl)
      · exact .here trivial
  | draining => exact .stays (stays_settleAction _ _ belongs.1 belongs.2 _)
  | forOfPass => exact confines_abandonForOf ..
  | forOfAbort =>
    simp only [World.onRaise]
    split <;> exact .stays (.here trivial)
  | tryBody =>
    simp only [World.onRaise]
    split
    · exact .stays (stays_handle _ _ belongs _)
    · exact .stays (.here trivial)
  | catchBody =>
    simp only [World.onRaise]
    split
    · exact .stays (stays_finish _ _ belongs (met_of_not_jump rfl))
    · exact .stays (.here trivial)
  | settling => exact absurd rfl other
  | activationEnd | callEnd | syncBoundary | asyncStart | asyncDrive | generatorBoundary | taskStart | nap
  | taskEnd | programEnd => contradiction
  | _ => exact .stays (.here trivial)

end World

end ScopeExit.Script
