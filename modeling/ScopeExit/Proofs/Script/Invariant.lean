import ScopeExit.Proofs.Script.Effect
/-!
The invariant of a run.

`Good` says of running code that its stack fits what the code does, and of the world that all that is
suspended fits too.  The ledger of a run is kept by looking at the states that the run goes through:
`registers?`, `starts?` and `ends?` tell what happens in a state.  A function of the machine gives a
state that is `Reached`: good, if what the state starts is written down.
-/
namespace ScopeExit.Script

open World

/-! ### What happens in a state -/

/-- The body that a state registers with a frame of an activation, by executing a deferred action. -/
def Running.registers? (s : Running) (a id : Nat) : Option Deferred :=
  match s.control with
  | .execute node scope =>
    if node.kind = .defer ∧ s.world.scopes.activation scope = a ∧
        (s.world.registry a).innermost?.map FrameHandle.frame = some (id : Int) then
      match (s.world.register node scope).1, node.children with
      | .ok _, body :: _ => some ⟨body, scope⟩
      | _, _ => none
    else none
  | _ => none

/-- The body of a frame of an activation that a state starts: it is about to be executed as an action of
a drain. -/
def Running.starts? (s : Running) (a id : Nat) : Option Deferred :=
  match s.control, s.stack with
  | .execute body scope, boundary :: .draining b d :: _ =>
    if boundary.isBoundary ∧ b = a ∧ d.handle.frame = id then some ⟨body, scope⟩ else none
  | _, _ => none

/-- The activation whose code has come to its end in a state, with whatever outcome. -/
def Running.ends? (s : Running) : Option Nat :=
  match s.control, s.stack with
  | .value _, .activationEnd a :: _ | .complete _, .activationEnd a :: _
  | .raise _, .activationEnd a :: _ => some a
  | _, _ => none

/-- What a state registers or ends is written down. -/
def Ledger.after (L : Ledger) (s : Running) : Ledger :=
  { L with
    registered := fun a id => L.registered a id ++ (s.registers? a id).toList
    ended := L.ended ++ s.ends?.toList }

/-- What a state starts is written down. -/
def Ledger.at (L : Ledger) (s : Running) : Ledger :=
  { L with started := fun a id => L.started a id ++ (s.starts? a id).toList }

theorem Ledger.after_eq (L : Ledger) {s : Running} (h : ∀ a id, s.registers? a id = none)
    (hs : s.ends? = none) : L.after s = L := by
  simp [Ledger.after, h, hs]

theorem Ledger.at_eq (L : Ledger) {s : Running} (h : ∀ a id, s.starts? a id = none) :
    L.at s = L := by
  simp [Ledger.at, h]

/-! ### Good states -/

/-- A failure may arrive at a port.  A request to return from a generator is met by a frame of its body,
so it gets no further than that. -/
def Port.Passes (f : Failure) : Port → Prop
  | .code _ Γ => f.Clean ∨ Γ.permits = ⟨false, true⟩ ∧ ∃ v, f = .single (.forcedReturn v)
  | .ended .. | .called | .task _ | .drained _ | .action .. => f.Clean
  | .woken | .bottom => False

/-- What a handler may take is clean. -/
theorem Port.Passes.clean {p : Port} {f : Failure} (h : p.Passes f) (he : f.isException = true) :
    f.Clean := by
  cases p with
  | code form Γ =>
    rcases h with h | ⟨-, v, rfl⟩
    · exact h
    · contradiction
  | woken | bottom => exact h.elim
  | _ => exact h

/-- Requests to return stay inside the frames of generators. -/
theorem Port.Passes.clean_of_ne {Γ : Region} {form : Form} {failure : Failure}
    (h : (Port.code form Γ).Passes failure) (other : Γ.permits ≠ ⟨false, true⟩) : failure.Clean := by
  rcases h with h | ⟨permits, -⟩
  · exact h
  · exact absurd permits other

theorem permits_ne_of_closed {Γ : Region} (h : Γ.isOpen = false) : Γ.permits ≠ ⟨false, true⟩ := by
  simp [Region.permits, h]

theorem permits_ne_of_async {Γ : Region} (h : Γ.context.isAsync = true) : Γ.permits ≠ ⟨false, true⟩ := by
  simp [Region.permits, h]

/-- A completion that is no failure. -/
theorem cleanReason_of_error?_eq_none {r : ExitReason} (h : r.error? = none) : CleanReason r := by
  simp [CleanReason, h]

variable [Node.Strays]

/-- A completion may arrive at a port. -/
def Port.Completes (r : ExitReason) : Port → Prop
  | .code _ Γ => Γ.Completes r
  | .action a isAsync => (Region.action a isAsync).Completes r
  | .ended .. | .called | .task _ | .drained _ | .woken | .bottom => CleanReason r

/-- The code that runs fits its stack. -/
inductive Good (L : Ledger) : Running → Prop
  | execute {loc : Nat → Host} {w : World} {stack : Stack} {Γ : Region} {n : Node} {scope : Nat}
      (r : Ready L loc w stack (.code .completion Γ) []) (h : Γ.Statement n)
      (hs : ScopeIn w Γ.activation scope) : Good L ⟨w, .execute n scope, stack⟩
  | action {loc : Nat → Host} {w : World} {stack : Stack} {a : Nat} {isAsync : Bool} {n : Node}
      {scope : Nat} (r : Ready L loc w stack (.action a isAsync) [])
      (h : (Region.action a isAsync).Statement n) (hs : ScopeIn w a scope) :
      Good L ⟨w, .execute n scope, stack⟩
  | evaluate {loc : Nat → Host} {w : World} {stack : Stack} {Γ : Region} {n : Node} {scope : Nat}
      (r : Ready L loc w stack (.code .value Γ) []) (h : Γ.Expression n)
      (hs : ScopeIn w Γ.activation scope) : Good L ⟨w, .evaluate n scope, stack⟩
  | value {loc : Nat → Host} {w : World} {stack : Stack} {p : Port} {v : Value}
      (r : Ready L loc w stack p []) (form : p.form? = some .value) : Good L ⟨w, .value v, stack⟩
  | complete {loc : Nat → Host} {w : World} {stack : Stack} {p : Port} {reason : ExitReason}
      (r : Ready L loc w stack p []) (form : p.form? = some .completion)
      (completes : p.Completes reason) : Good L ⟨w, .complete reason, stack⟩
  | resumed {loc : Nat → Host} {w : World} {stack : Stack} {Γ : Region} {v : Value} {done : Bool}
      (r : Ready L loc w stack (.code .step Γ) []) : Good L ⟨w, .resumed v done, stack⟩
  | raise {loc : Nat → Host} {w : World} {stack : Stack} {p : Port} {f : Failure}
      (r : Ready L loc w stack p []) (passes : p.Passes f) : Good L ⟨w, .raise f, stack⟩
  | await {loc : Nat → Host} {w : World} {stack : Stack} {Γ : Region} {v : Value}
      (r : Ready L loc w stack (.code .value Γ) []) (async : Γ.context.isAsync = true) :
      Good L ⟨w, .suspend (.await v), stack⟩
  | yield {loc : Nat → Host} {w : World} {stack : Stack} {Γ : Region} {v : Value}
      (r : Ready L loc w stack (.code .value Γ) []) (generator : Γ.permits.isGenerator = true) :
      Good L ⟨w, .suspend (.yield v), stack⟩
  | drain {loc : Nat → Host} {w : World} {stack : Stack} {Γ : Region} {handle : FrameHandle}
      {reason : ExitReason} (r : Ready L loc w stack (.code .completion Γ)
        [.frame Γ.activation handle false Γ.context.isAsync])
      (async : Γ.context.isAsync = true) (completes : Γ.Completes reason) :
      Good L ⟨w, .suspend (.drain Γ.activation handle reason), stack⟩
  | parked {loc : Nat → Host} {w : World} (sys : Sys L loc w) (idle : ∀ a, loc a ≠ .running) :
      Good L ⟨w, .parked, []⟩

/-- A good state, once what it starts is written down. -/
def Reached (L : Ledger) (s : Running) : Prop := Good (L.at s) s

section Reached

variable {L : Ledger} {loc : Nat → Host} {w : World} {stack : Stack} {Γ : Region}

theorem Reached.of_good {s : Running} (h : Good L s) (hs : ∀ a id, s.starts? a id = none) :
    Reached L s := by
  rw [Reached, Ledger.at_eq L hs]
  exact h

/-- Statements inside code are no actions. -/
theorem Reached.execute {n : Node} {scope : Nat} (r : Ready L loc w stack (.code .completion Γ) [])
    (h : Γ.Statement n) (hs : ScopeIn w Γ.activation scope) :
    Reached L ⟨w, .execute n scope, stack⟩ := by
  refine .of_good (.execute r h hs) fun a id => ?_
  obtain ⟨marks, spans, -⟩ := r.path
  simp only [Running.starts?]
  split
  · rename_i _ _ boundary b d rest e₁ e₂
    rw [if_neg]
    rintro ⟨hb, -⟩
    cases spans with
    | frame takes _ => cases takes <;> contradiction
    | _ => contradiction
  · rfl

theorem Reached.evaluate {n : Node} {scope : Nat} (r : Ready L loc w stack (.code .value Γ) [])
    (h : Γ.Expression n) (hs : ScopeIn w Γ.activation scope) :
    Reached L ⟨w, .evaluate n scope, stack⟩ := .of_good (.evaluate r h hs) fun _ _ => rfl

theorem Reached.value {p : Port} (r : Ready L loc w stack p []) (form : p.form? = some .value)
    (v : Value) : Reached L ⟨w, .value v, stack⟩ := .of_good (.value r form) fun _ _ => rfl

theorem Reached.complete {p : Port} (r : Ready L loc w stack p [])
    (form : p.form? = some .completion) {reason : ExitReason} (completes : p.Completes reason) :
    Reached L ⟨w, .complete reason, stack⟩ := .of_good (.complete r form completes) fun _ _ => rfl

theorem Reached.resumed (r : Ready L loc w stack (.code .step Γ) []) (v : Value) (done : Bool) :
    Reached L ⟨w, .resumed v done, stack⟩ := .of_good (.resumed r) fun _ _ => rfl

theorem Reached.raise {p : Port} (r : Ready L loc w stack p []) {f : Failure} (passes : p.Passes f) :
    Reached L ⟨w, .raise f, stack⟩ := .of_good (.raise r passes) fun _ _ => rfl

/-- A clean failure inside code. -/
theorem Reached.fail {form : Form} (r : Ready L loc w stack (.code form Γ) []) {f : Failure}
    (clean : f.Clean) : Reached L ⟨w, .raise f, stack⟩ := .raise r (.inl clean)

theorem Reached.parked (sys : Sys L loc w) (idle : ∀ a, loc a ≠ .running) :
    Reached L ⟨w, .parked, []⟩ := .of_good (.parked sys idle) fun _ _ => rfl

/-- A change that concerns no activation, and what comes after it. -/
theorem Reached.perform {α : Type} {form : Form} {c : Change α} {go : World → α → Running}
    (calm : Calm w c) (r : Ready L loc w stack (.code form Γ) [])
    (hgo : ∀ x, Ready L loc c.2 stack (.code form Γ) [] → Reached L (go c.2 x)) :
    Reached L (perform stack c go) := by
  obtain ⟨result, w'⟩ := c
  have r' := r.quiet calm.quiet
  cases result with
  | ok x => exact hgo x r'
  | error f => exact .fail r' (calm.mild f rfl)

/-- A computation that changes nothing, and what comes after it. -/
theorem Reached.attempt {α : Type} {form : Form} {result : Except Failure α}
    {go : World → α → Running} (mild : Mild result) (r : Ready L loc w stack (.code form Γ) [])
    (hgo : ∀ x, Reached L (go w x)) : Reached L (w.attempt stack result go) :=
  .perform (.pure mild) r fun x _ => hgo x

end Reached

/-! ### Completions -/

section Reasons

variable {L : Ledger} {loc : Nat → Host} {w : World} {stack : Stack} {Γ Γ' : Region} {p : Port}
  {reason : ExitReason}

theorem Port.Completes.clean (h : p.Completes reason) : CleanReason reason := by
  cases p with
  | code _ Γ => exact Region.Completes.clean h
  | action => exact Region.Completes.clean h
  | _ => exact h

namespace Region

/-- What surrounds a region decides about completions. -/
theorem Completes.of_targets (h : Γ.Completes reason) (same : Γ'.targets = Γ.targets) :
    Γ'.Completes reason := ⟨h.clean, fun t ht => h.admits t (same.symm.trans ht)⟩

/-- In a function all completions are taken care of. -/
theorem completes_of_free (free : Γ.targets = none) (clean : CleanReason reason) :
    Γ.Completes reason := by
  refine ⟨clean, fun t ht => ?_⟩
  rw [show Γ.site.targets = none from free] at ht
  contradiction

theorem completes_normal (Γ : Region) : Γ.Completes .normal :=
  ⟨cleanReason_of_error?_eq_none rfl, fun _ _ => trivial⟩

theorem completes_throwing (Γ : Region) {f : Failure} (clean : f.Clean) :
    Γ.Completes (.throwing (some f)) := by
  refine ⟨fun g hg => ?_, fun _ _ => trivial⟩
  rw [← Option.some.inj hg]
  exact clean

theorem completes_returning (free : Γ.targets = none) (v : Value) : Γ.Completes (.returning v) :=
  completes_of_free free (cleanReason_of_error?_eq_none rfl)

/-- Only functions return. -/
theorem Completes.free {v : Value} (h : Γ.Completes (.returning v)) : Γ.targets = none :=
  Option.eq_none_iff_forall_not_mem.mpr h.admits

/-- A pass of a loop comes to its end. -/
theorem completes_iterationEnd (labels : List Text) (Γ : Region) :
    (Γ.looped labels).Completes .iterationEnd := by
  refine ⟨cleanReason_of_error?_eq_none rfl, fun t ht => ?_⟩
  obtain ⟨t, -, rfl⟩ := Option.map_eq_some_iff.mp ht
  rfl

/-- A jump that may stand in a region may complete there. -/
theorem completes_jump {n : Node} (own : Node.Allowed Γ.site n) (jump : n.jump? = some reason) :
    Γ.Completes reason := by
  refine ⟨?_, own.jumps reason jump⟩
  unfold Node.jump? at jump
  split at jump
  · exact cleanReason_of_error?_eq_none (Option.some.inj jump ▸ rfl)
  · exact cleanReason_of_error?_eq_none (Option.some.inj jump ▸ rfl)
  · exact cleanReason_of_error?_eq_none (Option.some.inj jump ▸ rfl)
  · contradiction

end Region

/-- A completion as the code below a frame sees it. -/
theorem reached_complete (r : Ready L loc w stack (.code .completion Γ) [])
    (completes : Γ.Completes reason) : Reached L (w.complete stack reason) := by
  unfold World.complete
  split
  · exact .fail r (completes.clean _ rfl)
  · exact .fail r (Failure.clean_host _)
  · exact .complete r rfl completes

end Reasons

end ScopeExit.Script
