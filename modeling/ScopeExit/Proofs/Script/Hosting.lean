import ScopeExit.Proofs.Engine.Drain
import ScopeExit.Proofs.Loop
import ScopeExit.Proofs.Script.Code
/-!
Where the live frames of all activations are.

Every activation has a host: the running code, a task that is parked, a generator that is suspended, or
nothing any more.  The stack of the host is the only one that ends the activation and drains its frames,
so what runs does not disturb what is suspended.  `Hosted` ties the marks of a stack to the registries
of the activations that it hosts: going outwards, the marks of an activation stand for its live frames,
one by one.

A ledger says which bodies were registered with which frame, which of them were started, and which
activations have come to their end.  It is no part of the machine; it is what an observer of a run would
write down.
-/
namespace ScopeExit

namespace Script

/-! ### Ledgers -/

/-- Which deferred bodies were registered with the frames of each activation, which were started, and
which activations have ended, all in the order of time. -/
structure Ledger where
  registered : Nat → Nat → List Deferred
  started : Nat → Nat → List Deferred
  ended : List Nat

/-- One more body is registered with a frame of an activation. -/
def Ledger.register (L : Ledger) (a id : Nat) (d : Deferred) : Ledger :=
  { L with registered := fun b i =>
      if b = a ∧ i = id then L.registered b i ++ [d] else L.registered b i }

/-! ### Live frames and their marks -/

section Live

variable [Node.Strays]

/-- A deferred action may run in the region of the actions of its activation. -/
structure ActionFits (w : World) (a : Nat) (x : Action Deferred) : Prop where
  scope : ScopeIn w a x.body.scope
  body : (Region.action a (x.mode = .async)).Statement x.body.body
  async : x.mode = .async → (w.activation a).isAsync = true

/-- A live frame with the part `own` of the arena is as its mark says. -/
structure Held (L : Ledger) (w : World) (a : Nat) (l : Live) (f : ScopeFrame)
    (own : List (Action Deferred)) : Prop where
  isAsync : f.isAsync = (w.activation a).isAsync
  waiting : l.isDraining = false → f.begun = false
  draining : l.isDraining = true → f.draining = true
  counts : f.begun = false → f.asyncActions = Registry.asyncCount own
  /-- Asynchronous actions only wait where the code may wait for them. -/
  waits : ∀ x ∈ own, x.mode = .async → l.mayWait = true
  fits : ∀ x ∈ own, ActionFits w a x
  /-- What was registered is what waits in the arena, and what was started in reverse. -/
  account : L.registered a f.id = own.map Action.body ++ (L.started a f.id).reverse
  untouched : l.isDraining = false → L.started a f.id = []

end Live

/-- The marks stand for the frames, innermost first, and each frame has its part of the arena. -/
inductive Covers (P : Live → ScopeFrame → List (Action Deferred) → Prop) :
    List Live → List ScopeFrame → List (Action Deferred) → Prop
  | nil : Covers P [] [] []
  | cons {l : Live} {ls : List Live} {f : ScopeFrame} {fs : List ScopeFrame}
      {below own : List (Action Deferred)} (outer : Covers P ls fs below)
      (mark : f.mark = below.length) (handle : l.handle = ⟨f.id, fs.length⟩) (held : P l f own) :
      Covers P (l :: ls) (f :: fs) (below ++ own)

theorem Covers.imp {P Q : Live → ScopeFrame → List (Action Deferred) → Prop} {ls : List Live}
    {fs : List ScopeFrame} {actions : List (Action Deferred)} (h : Covers P ls fs actions)
    (hPQ : ∀ l, ∀ f ∈ fs, ∀ own, P l f own → Q l f own) : Covers Q ls fs actions := by
  induction h with
  | nil => exact .nil
  | cons _ mark handle held ih =>
    exact .cons (ih fun l f hf own => hPQ l f (List.mem_cons_of_mem _ hf) own) mark handle
      (hPQ _ _ (by simp) _ held)

/-- The live frames of an activation among some marks. -/
def lives (a : Nat) (marks : List Mark) : List Live :=
  marks.filterMap fun m => if m.activation = a then m.live? else none

section Lives

variable {a b : Nat} {marks marks' : List Mark}

@[simp] theorem lives_frame (handle : FrameHandle) (isDraining mayWait : Bool) :
    lives a (.frame a handle isDraining mayWait :: marks) =
      ⟨handle, isDraining, mayWait⟩ :: lives a marks := by
  simp [lives, Mark.frame]

theorem lives_frame_of_ne (h : b ≠ a) (handle : FrameHandle) (isDraining mayWait : Bool) :
    lives a (.frame b handle isDraining mayWait :: marks) = lives a marks := by
  simp [lives, Mark.frame, h]

@[simp] theorem lives_ends : lives a (.ends b :: marks) = lives a marks := by
  simp [lives, Mark.ends]

@[simp] theorem lives_append : lives a (marks ++ marks') = lives a marks ++ lives a marks' := by
  simp [lives]

theorem lives_eq_nil (h : ∀ m ∈ marks, m.activation ≠ a) : lives a marks = [] := by
  rw [lives, List.filterMap_eq_nil_iff]
  intro m hm
  simp [h m hm]

end Lives

/-! ### Hosts -/

/-- Where the code of an activation is. -/
inductive Host where
  | running
  | task (p : Nat)
  | generator (g : Nat)
  /-- It has come to its end, or it never goes on. -/
  | nowhere
  deriving DecidableEq

section Hosts

variable [Node.Strays]

/-- A host has marks that stand for the live frames of all activations that it hosts. -/
structure Hosted (L : Ledger) (loc : Nat → Host) (w : World) (host : Host) (marks : List Mark) :
    Prop where
  /-- Nothing of an activation is below its end. -/
  tidy : marks.Pairwise fun m m' => m.live? = none → m'.activation ≠ m.activation
  located : ∀ m ∈ marks, loc m.activation = host ∧ m.activation < w.activations.size
  covers : ∀ a, loc a = host → Covers (Held L w a) (lives a marks) (w.registry a).frames.reverse
    (w.registry a).arena.actions

/-- The code of a suspended generator, or of one that waits for its first step. -/
inductive GeneratorState.Fits (L : Ledger) (loc : Nat → Host) (w : World) (g : Nat) :
    GeneratorState → Prop
  | fresh {closure : Nat} {arguments : List Value} {a : Nat}
      (known : closure < w.heap.closures.size)
      (sort : (w.heap.closure closure).context = ⟨false, true⟩)
      (hosted : Hosted L loc w (.generator g) [.ends a]) : Fits L loc w g (.fresh closure arguments a)
  | suspended {Γ : Region} {code : Stack} {marks : List Mark} (sort : Γ.context = ⟨false, true⟩)
      (isOpen : Γ.isOpen = true) (segment : ∀ f ∈ code, f.isBoundary = false)
      (spans : Spans w (.code .value Γ) code marks (.ended ⟨false, true⟩ .value))
      (hosted : Hosted L loc w (.generator g) marks) : Fits L loc w g (.suspended code)
  | running : Fits L loc w g .running
  | done : Fits L loc w g .done

/-- What an outcome of a port is. -/
def Port.form? : Port → Option Form
  | .code form _ | .ended _ form | .task form => some form
  | .action .. | .drained _ => some .completion
  | .called | .woken => some .value
  | .bottom => none

/-- Code that is parked with a task goes on with a value. -/
def Parked (L : Ledger) (loc : Nat → Host) (w : World) (task : Nat) (code : Stack) : Prop :=
  ∃ p marks, p.form? = some .value ∧ Spans w p code marks .bottom ∧
    Hosted L loc w (.task task) marks

/-- The code of a task that has not taken its first step. -/
def IsFirst (code : Stack) : Prop := ∃ request rest, code = .taskStart request :: rest

/-- A function whose parts stand where they may. -/
structure ClosureFits (c : Closure) : Prop where
  params : ∀ p ∈ c.params, Node.Shaped Node.Allowed .param (.within c.context p) p
  body : Node.Shaped Node.Allowed .body (.within c.context c.body) c.body
  sort : (c.isAsync && c.isGenerator) = false

/-- What is true of everything but the running code. -/
structure Sys (L : Ledger) (loc : Nat → Host) (w : World) : Prop where
  closures : ∀ c ∈ w.heap.closures, ClosureFits c
  reachable : ∀ a, (w.registry a).Reachable
  /-- Nothing is written down about frames that do not exist yet. -/
  unused : ∀ a id, (w.registry a).nextId ≤ id → L.registered a id = [] ∧ L.started a id = []
  /-- Of a frame that is gone, all bodies were started, the last one first. -/
  gone : ∀ a id, (∀ f ∈ (w.registry a).frames, f.id ≠ id) →
    L.registered a id = (L.started a id).reverse
  /-- An activation that has ended has left all its frames, and its code is nowhere. -/
  ended : ∀ a ∈ L.ended, a < w.activations.size ∧ loc a = .nowhere ∧
    (w.registry a).frames = [] ∧ (w.registry a).arena.actions = []
  generators : ∀ g, (w.generator g).Fits L loc w g
  loop : w.loop.Holds IsFirst (Parked L loc w) Failure.Clean
  current : w.current < w.loop.promises.size
  ending : ∀ f, w.ending? = some (some f) → f.Clean

/-- The world and the code that runs: the stack leads from a port to the bottom, and the activations
that it hosts have the marks of the code above it and its own. -/
structure Ready (L : Ledger) (loc : Nat → Host) (w : World) (stack : Stack) (p : Port)
    (above : List Mark) : Prop where
  sys : Sys L loc w
  /-- The running task is not parked. -/
  awake : (w.loop.promise w.current).parked? = none
  path : ∃ marks, Spans w p stack marks .bottom ∧ Hosted L loc w .running (above ++ marks)

end Hosts

/-! ### What does not concern a host -/

theorem World.lt_of_frame {w : World} {a : Nat} {f : ScopeFrame} (h : f ∈ (w.registry a).frames) :
    a < w.activations.size := by
  by_cases hlt : a < w.activations.size
  · exact hlt
  · simp [World.registry, World.activation, Array.getD_eq_getD_getElem?,
      Array.getElem?_eq_none (Nat.le_of_not_lt hlt), default] at h

theorem ActionFits.mono [Node.Strays] {w w' : World} (ext : Extends w w') {a : Nat} {x : Action Deferred}
    (h : ActionFits w a x) : ActionFits w' a x :=
  ⟨h.scope.mono ext, h.body, fun hx => ext.isAsync (h.async hx)⟩

/-- What a change of the world leaves as it is for a host: it hosts the same activations, their
registries are untouched, and nothing is written down about them. -/
structure Spares (L L' : Ledger) (loc loc' : Nat → Host) (w w' : World) (host : Host) : Prop where
  ext : Extends w w'
  stays : ∀ a < w.activations.size, loc a = host → loc' a = host
  comes : ∀ a, loc' a = host → loc a = host
  kept : ∀ a, loc' a = host → w'.registry a = w.registry a
  registered : ∀ a, loc' a = host → L'.registered a = L.registered a
  started : ∀ a, loc' a = host → L'.started a = L.started a

section Spares

variable [Node.Strays] {L L' : Ledger} {loc loc' : Nat → Host} {w w' : World} {host : Host}

theorem Hosted.spared {marks : List Mark} (h : Hosted L loc w host marks)
    (s : Spares L L' loc loc' w w' host) : Hosted L' loc' w' host marks where
  tidy := h.tidy
  located m hm := by
    obtain ⟨hloc, hlt⟩ := h.located m hm
    exact ⟨s.stays _ hlt hloc, Nat.lt_of_lt_of_le hlt s.ext.activations⟩
  covers a ha := by
    rw [s.kept a ha]
    refine (h.covers a (s.comes a ha)).imp fun l f hf own held => ?_
    have hlt : a < w.activations.size := World.lt_of_frame (List.mem_reverse.mp hf)
    exact ⟨held.isAsync.trans (s.ext.async a hlt).symm, held.waiting, held.draining, held.counts,
      held.waits, fun x hx => (held.fits x hx).mono s.ext,
      by rw [s.registered a ha, s.started a ha]; exact held.account,
      by rw [s.started a ha]; exact held.untouched⟩

theorem GeneratorState.Fits.spared {g : Nat} {state : GeneratorState}
    (h : state.Fits L loc w g) (s : Spares L L' loc loc' w w' (.generator g)) :
    state.Fits L' loc' w' g := by
  cases h with
  | fresh known sort hosted =>
    refine .fresh (Nat.lt_of_lt_of_le known s.ext.closures) ?_ (hosted.spared s)
    rw [s.ext.kept _ known]
    exact sort
  | suspended sort isOpen segment spans hosted =>
    exact .suspended sort isOpen segment (spans.mono s.ext) (hosted.spared s)
  | running => exact .running
  | done => exact .done

theorem Parked.spared {t : Nat} {code : Stack} (h : Parked L loc w t code)
    (s : Spares L L' loc loc' w w' (.task t)) : Parked L' loc' w' t code := by
  obtain ⟨p, marks, hp, spans, hosted⟩ := h
  exact ⟨p, marks, hp, spans.mono s.ext, hosted.spared s⟩

end Spares

/-! ### Changes that concern no activation -/

/-- The heap, the scopes and what is observed change, and nothing else. -/
structure Quiet [Node.Strays] (w w' : World) : Prop where
  ext : Extends w w'
  activations : w'.activations = w.activations
  generators : w'.generators = w.generators
  loop : w'.loop = w.loop
  current : w'.current = w.current
  ending : w'.ending? = w.ending?
  closures : (∀ c ∈ w.heap.closures, ClosureFits c) → ∀ c ∈ w'.heap.closures, ClosureFits c

section Quiet

variable [Node.Strays] {L : Ledger} {loc : Nat → Host} {w w' w'' : World}

theorem Quiet.refl (w : World) : Quiet w w := ⟨.refl w, rfl, rfl, rfl, rfl, rfl, id⟩

theorem Quiet.trans (h : Quiet w w') (h' : Quiet w' w'') : Quiet w w'' :=
  ⟨h.ext.trans h'.ext, h'.activations.trans h.activations, h'.generators.trans h.generators,
    h'.loop.trans h.loop, h'.current.trans h.current, h'.ending.trans h.ending,
    fun hc => h'.closures (h.closures hc)⟩

theorem Quiet.registry (h : Quiet w w') (a : Nat) : w'.registry a = w.registry a := by
  simp [World.registry, World.activation, h.activations]

theorem Quiet.spares (h : Quiet w w') (host : Host) : Spares L L loc loc w w' host :=
  ⟨h.ext, fun _ _ => id, fun _ => id, fun a _ => h.registry a, fun _ _ => rfl, fun _ _ => rfl⟩

theorem Sys.quiet (sys : Sys L loc w) (h : Quiet w w') : Sys L loc w' where
  closures := h.closures sys.closures
  reachable a := by
    rw [h.registry a]
    exact sys.reachable a
  unused a id := by
    rw [h.registry a]
    exact sys.unused a id
  gone a id := by
    rw [h.registry a]
    exact sys.gone a id
  ended a := by
    rw [h.registry a, h.activations]
    exact sys.ended a
  generators g := by
    have hg : w'.generator g = w.generator g := by simp [World.generator, h.generators]
    rw [hg]
    exact (sys.generators g).spared (h.spares _)
  loop := by
    rw [h.loop]
    exact sys.loop.imp fun t code _ hc => hc.spared (h.spares _)
  current := by
    rw [h.loop, h.current]
    exact sys.current
  ending := by
    rw [h.ending]
    exact sys.ending

theorem Ready.quiet {stack : Stack} {p : Port} {above : List Mark}
    (r : Ready L loc w stack p above) (h : Quiet w w') : Ready L loc w' stack p above := by
  obtain ⟨marks, spans, hosted⟩ := r.path
  refine ⟨r.sys.quiet h, ?_, marks, spans.mono h.ext, hosted.spared (h.spares _)⟩
  rw [h.loop, h.current]
  exact r.awake

/-- A frame that takes what comes and gives what is expected below. -/
theorem Ready.push {stack : Stack} {Γ : Region} {form form' : Form} {f : Frame}
    {above : List Mark} (r : Ready L loc w stack (.code form' Γ) above)
    (takes : f.Takes w Γ form form') : Ready L loc w (f :: stack) (.code form (Γ.above f)) above := by
  obtain ⟨marks, spans, hosted⟩ := r.path
  exact ⟨r.sys, r.awake, marks, .frame takes spans, hosted⟩

/-- A frame that takes a value is above the region that it is in. -/
theorem Ready.pushValue {stack : Stack} {Γ : Region} {form : Form} {f : Frame} {above : List Mark}
    (r : Ready L loc w stack (.code form Γ) above) (takes : f.Takes w Γ .value form) :
    Ready L loc w (f :: stack) (.code .value Γ) above := by
  have same : Γ.above f = Γ := by cases takes <;> rfl
  have pushed := r.push takes
  rwa [same] at pushed

end Quiet

/-! ### Changes of a registry -/

section SetRegistry

variable {L L' : Ledger} {loc : Nat → Host} {w : World} {a : Nat}

theorem World.activation_setRegistry (w : World) (a : Nat) (r : Registry Deferred) (b : Nat) :
    (w.setRegistry a r).activation b =
      if b = a ∧ b < w.activations.size then { w.activation b with registry := r }
      else w.activation b := by
  simp only [World.activation, World.setRegistry, Array.getD_eq_getD_getElem?,
    Array.getElem?_modify]
  by_cases h : a = b
  · subst h
    by_cases hlt : a < w.activations.size
    · simp [hlt]
    · simp [hlt]
  · simp [h, Ne.symm h]

theorem World.registry_setRegistry_self (w : World) {a : Nat} (h : a < w.activations.size)
    (r : Registry Deferred) : (w.setRegistry a r).registry a = r := by
  rw [World.registry, World.activation_setRegistry, if_pos ⟨rfl, h⟩]

theorem World.registry_setRegistry_of_ne (w : World) {a b : Nat} (h : b ≠ a)
    (r : Registry Deferred) : (w.setRegistry a r).registry b = w.registry b := by
  rw [World.registry, World.activation_setRegistry, if_neg (fun hb => h hb.1), World.registry]

theorem World.isAsync_setRegistry (w : World) (a : Nat) (r : Registry Deferred) (b : Nat) :
    ((w.setRegistry a r).activation b).isAsync = (w.activation b).isAsync := by
  rw [World.activation_setRegistry]
  split <;> rfl

theorem World.setRegistry_setRegistry (w : World) (a : Nat) (r r' : Registry Deferred) :
    (w.setRegistry a r).setRegistry a r' = w.setRegistry a r' := by
  have harray : (w.activations.modify a fun x => { x with registry := r }).modify a
      (fun x => { x with registry := r' }) =
      w.activations.modify a fun x => { x with registry := r' } := by
    apply Array.ext
    · simp
    · intro i h₁ h₂
      simp only [Array.getElem_modify]
      split <;> rfl
  simp only [World.setRegistry, harray]

theorem extends_setRegistry (w : World) (a : Nat) (r : Registry Deferred) :
    Extends w (w.setRegistry a r) where
  scopes := Nat.le_refl _
  owners _ _ := rfl
  closures := Nat.le_refl _
  kept _ _ := rfl
  activations := by simp [World.setRegistry]
  async b _ := w.isAsync_setRegistry a r b

/-- The ledger says nothing new about the other activations. -/
structure Ledger.Agrees (L L' : Ledger) (a : Nat) : Prop where
  registered : ∀ b, b ≠ a → L'.registered b = L.registered b
  started : ∀ b, b ≠ a → L'.started b = L.started b
  ended : ∀ b ∈ L'.ended, b ∈ L.ended

theorem Ledger.Agrees.refl (L : Ledger) (a : Nat) : L.Agrees L a :=
  ⟨fun _ _ => rfl, fun _ _ => rfl, fun _ => id⟩

/-- The ledger says nothing new about the other activations and the other frames. -/
structure Ledger.AgreesBeside (L L' : Ledger) (a id : Nat) : Prop extends L.Agrees L' a where
  registered_other : ∀ i, i ≠ id → L'.registered a i = L.registered a i
  started_other : ∀ i, i ≠ id → L'.started a i = L.started a i

theorem Ledger.AgreesBeside.refl (L : Ledger) (a id : Nat) : L.AgreesBeside L a id :=
  ⟨.refl L a, fun _ _ => rfl, fun _ _ => rfl⟩

theorem Ledger.agreesBeside_register (L : Ledger) (a id : Nat) (d : Deferred) :
    L.AgreesBeside (L.register a id d) a id :=
  ⟨⟨fun _ hb => funext fun _ => if_neg fun h => hb h.1, fun _ _ => rfl, fun _ h => h⟩,
    fun _ hi => if_neg fun h => hi h.2, fun _ _ => rfl⟩

variable [Node.Strays]

/-- A change of the registry of a running activation does not concern what is suspended. -/
theorem Sys.setRegistry (sys : Sys L loc w) (running : loc a = .running)
    (size : a < w.activations.size) {r : Registry Deferred} (reachable : r.Reachable)
    (agrees : L.Agrees L' a)
    (unused : ∀ id, r.nextId ≤ id → L'.registered a id = [] ∧ L'.started a id = [])
    (gone : ∀ id, (∀ f ∈ r.frames, f.id ≠ id) →
      L'.registered a id = (L'.started a id).reverse) : Sys L' loc (w.setRegistry a r) := by
  have spares : ∀ host, host ≠ .running → Spares L L' loc loc w (w.setRegistry a r) host := by
    intro host hhost
    have hne : ∀ b, loc b = host → b ≠ a := by
      rintro b hb rfl
      exact hhost (hb.symm.trans running)
    exact ⟨extends_setRegistry w a r, fun _ _ => id, fun _ => id,
      fun b hb => w.registry_setRegistry_of_ne (hne b hb) r,
      fun b hb => agrees.registered b (hne b hb), fun b hb => agrees.started b (hne b hb)⟩
  refine ⟨sys.closures, ?_, ?_, ?_, ?_, ?_, ?_, sys.current, sys.ending⟩
  · intro b
    by_cases hb : b = a
    · rw [hb, w.registry_setRegistry_self size]
      exact reachable
    · rw [w.registry_setRegistry_of_ne hb]
      exact sys.reachable b
  · intro b id hid
    by_cases hb : b = a
    · rw [hb, w.registry_setRegistry_self size] at hid
      rw [hb]
      exact unused id hid
    · rw [w.registry_setRegistry_of_ne hb] at hid
      rw [agrees.registered b hb, agrees.started b hb]
      exact sys.unused b id hid
  · intro b id hid
    by_cases hb : b = a
    · rw [hb, w.registry_setRegistry_self size] at hid
      rw [hb]
      exact gone id hid
    · rw [w.registry_setRegistry_of_ne hb] at hid
      rw [agrees.registered b hb, agrees.started b hb]
      exact sys.gone b id hid
  · intro b hended
    obtain ⟨hlt, hloc, hempty⟩ := sys.ended b (agrees.ended b hended)
    have hb : b ≠ a := by
      rintro rfl
      rw [running] at hloc
      contradiction
    rw [w.registry_setRegistry_of_ne hb]
    exact ⟨by simpa [World.setRegistry] using hlt, hloc, hempty⟩
  · intro g
    exact (sys.generators g).spared (spares _ (by simp))
  · exact sys.loop.imp fun t code _ hc => hc.spared (spares _ (by simp))

/-- The marks of a running activation change along with its registry. -/
theorem Hosted.setRegistry {marks marks' : List Mark} (h : Hosted L loc w .running marks)
    (size : a < w.activations.size) {r : Registry Deferred} (agrees : L.Agrees L' a)
    (tidy : marks'.Pairwise fun m m' => m.live? = none → m'.activation ≠ m.activation)
    (located : ∀ m ∈ marks', loc m.activation = .running ∧ m.activation < w.activations.size)
    (others : ∀ b, b ≠ a → lives b marks' = lives b marks)
    (covers : Covers (Held L' (w.setRegistry a r) a) (lives a marks') r.frames.reverse
      r.arena.actions) : Hosted L' loc (w.setRegistry a r) .running marks' where
  tidy := tidy
  located m hm := ⟨(located m hm).1, by simpa [World.setRegistry] using (located m hm).2⟩
  covers b hb := by
    by_cases hab : b = a
    · rw [hab, w.registry_setRegistry_self size]
      exact covers
    · rw [w.registry_setRegistry_of_ne hab, others b hab]
      refine (h.covers b hb).imp fun l f _ own held => ?_
      exact ⟨held.isAsync.trans (w.isAsync_setRegistry a r b).symm, held.waiting, held.draining,
        held.counts, held.waits, fun x hx => (held.fits x hx).mono (extends_setRegistry w a r),
        by rw [agrees.registered b hab, agrees.started b hab]; exact held.account,
        by rw [agrees.started b hab]; exact held.untouched⟩

/-- What is held of the other frames of the activation stays. -/
theorem Held.setRegistry {l : Live} {f : ScopeFrame} {own : List (Action Deferred)}
    (h : Held L w a l f own) (r : Registry Deferred)
    (registered : L'.registered a f.id = L.registered a f.id)
    (started : L'.started a f.id = L.started a f.id) : Held L' (w.setRegistry a r) a l f own :=
  ⟨h.isAsync.trans (w.isAsync_setRegistry a r a).symm, h.waiting, h.draining, h.counts, h.waits,
    fun x hx => (h.fits x hx).mono (extends_setRegistry w a r),
    by rw [registered, started]; exact h.account, by rw [started]; exact h.untouched⟩

end SetRegistry

/-! ### The running code -/

/-- A scope of running code belongs to its activation. -/
theorem ScopeIn.activation_eq {w : World} {a scope : Nat} (h : ScopeIn w a scope) :
    w.scopes.activation scope = a := by
  simp [Scopes.activation, h.2]

section Ready

variable [Node.Strays] {L : Ledger} {loc : Nat → Host} {w : World} {stack : Stack} {p : Port} {above : List Mark}

/-- The activation of running code has a mark below. -/
theorem Spans.home_mark {marks : List Mark} (h : Spans w p stack marks .bottom) {a : Nat}
    {context : Node.Context} (home : p.home? = some (a, context)) :
    ∃ m ∈ marks, m.activation = a := by
  generalize hq : Port.bottom = q at h
  induction h with
  | nil => subst hq; contradiction
  | frame _ _ ih => exact ih ((Port.home?_above ..).symm.trans home) hq
  | actionEnd _ ih => exact ih home hq
  | scopeBody _ _ _ =>
    obtain ⟨rfl, rfl⟩ := Prod.mk.inj (Option.some.inj home)
    exact ⟨_, List.mem_cons_self, rfl⟩
  | settling _ _ ih => exact ih home hq
  | activationEnd _ _ _ _ =>
    obtain ⟨rfl, rfl⟩ := Prod.mk.inj (Option.some.inj home)
    exact ⟨_, List.mem_cons_self, rfl⟩
  | syncAction rest _ =>
    subst hq
    obtain ⟨rfl, rfl⟩ := Prod.mk.inj (Option.some.inj home)
    cases rest
    exact ⟨_, List.mem_cons_self, rfl⟩
  | asyncAction _ rest _ =>
    subst hq
    obtain ⟨rfl, rfl⟩ := Prod.mk.inj (Option.some.inj home)
    cases rest
    exact ⟨_, List.mem_cons_self, rfl⟩
  | _ => contradiction

/-- Running code belongs to a running activation. -/
theorem Ready.home (r : Ready L loc w stack p above) {a : Nat} {context : Node.Context}
    (home : p.home? = some (a, context)) : loc a = .running ∧ a < w.activations.size := by
  obtain ⟨marks, spans, hosted⟩ := r.path
  obtain ⟨m, hm, rfl⟩ := spans.home_mark home
  exact hosted.located m (List.mem_append_right _ hm)

end Ready

end Script

end ScopeExit
