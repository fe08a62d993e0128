import ScopeExit.Proofs.Script.Invariant
/-!
Activations move from host to host.

A call makes an activation, and the end of its code gives it up.  A generator takes the activation of
its code along when it suspends, and so does a task; when they go on, the activations run again.  There
are two kinds of moves: one activation is put somewhere, or all that one host has goes to another one.
A host that takes activations while it is suspended has no other ones, so it forgets what was said to
be there before.
-/
namespace ScopeExit.Script

open World

/-! ### Moves -/

/-- A suspended host forgets what it has. -/
def vacate (host : Host) (loc : Nat → Host) : Nat → Host := fun b =>
  if host ≠ .running ∧ loc b = host then .nowhere else loc b

/-- An activation is put somewhere. -/
def place (a : Nat) (host : Host) (loc : Nat → Host) : Nat → Host := fun b =>
  if b = a then host else vacate host loc b

/-- All that one host has goes to another one. -/
def move (source target : Host) (loc : Nat → Host) : Nat → Host := fun b =>
  if loc b = source then target else vacate target loc b

section Moves

variable {host host' source target : Host} {loc : Nat → Host} {a b : Nat}

theorem vacate_of_ne (h : loc b ≠ host) : vacate host loc b = loc b := if_neg fun hb => h hb.2

theorem eq_of_vacate (h : vacate host loc b = host') (hn : host' ≠ .nowhere) : loc b = host' := by
  unfold vacate at h
  split at h
  · exact absurd h.symm hn
  · exact h

/-- A suspended host that is vacated has nothing. -/
theorem vacate_ne_self (hr : host ≠ .running) (hn : host ≠ .nowhere) : vacate host loc b ≠ host := by
  unfold vacate
  split
  · exact Ne.symm hn
  · rename_i h
    exact fun hb => h ⟨hr, hb⟩

@[simp] theorem place_self : place a host loc a = host := if_pos rfl

theorem place_of_ne (h : b ≠ a) : place a host loc b = vacate host loc b := if_neg h

theorem move_source (h : loc b = source) : move source target loc b = target := if_pos h

theorem move_of_ne (h : loc b ≠ source) : move source target loc b = vacate target loc b := if_neg h

/-- The host that has given everything away has nothing. -/
theorem move_ne_source (h : target ≠ source) (hn : source ≠ .nowhere) :
    move source target loc b ≠ source := by
  intro hb
  by_cases hloc : loc b = source
  · rw [move_source hloc] at hb
    exact h hb
  · rw [move_of_ne hloc] at hb
    exact hloc (eq_of_vacate hb hn)

/-- What is nowhere stays there; only new activations begin to be somewhere. -/
def Rests (w : World) (loc loc' : Nat → Host) : Prop :=
  ∀ b < w.activations.size, loc b = .nowhere → loc' b = .nowhere

theorem rests_place {w : World} (h : a < w.activations.size → loc a ≠ .nowhere) :
    Rests w loc (place a host loc) := by
  intro b hlt hb
  have hba : b ≠ a := by
    rintro rfl
    exact h hlt hb
  rw [place_of_ne hba]
  simp [vacate, hb]

theorem rests_move {w : World} (h : source ≠ .nowhere) : Rests w loc (move source target loc) := by
  intro b _ hb
  rw [move_of_ne (by rw [hb]; exact h.symm)]
  simp [vacate, hb]

end Moves

/-! ### What a move leaves where it is -/

section Spares

variable {L : Ledger} {loc : Nat → Host} {w w' : World} {host host' source target : Host} {a : Nat}

theorem spares_place (ext : Extends w w') (kept : ∀ b, b ≠ a → w'.registry b = w.registry b)
    (other : host' ≠ host) (suspended : host' ≠ .nowhere)
    (free : a < w.activations.size → loc a ≠ host') :
    Spares L L loc (place a host loc) w w' host' := by
  have hne : ∀ b, place a host loc b = host' → b ≠ a := by
    rintro b hb rfl
    rw [place_self] at hb
    exact other hb.symm
  refine ⟨ext, ?_, ?_, fun b hb => kept b (hne b hb), fun _ _ => rfl, fun _ _ => rfl⟩
  · intro b hlt hb
    have hba : b ≠ a := by
      rintro rfl
      exact free hlt hb
    rw [place_of_ne hba, vacate_of_ne (by rw [hb]; exact other), hb]
  · intro b hb
    rw [place_of_ne (hne b hb)] at hb
    exact eq_of_vacate hb suspended

theorem spares_move (ext : Extends w w') (kept : ∀ b, w'.registry b = w.registry b)
    (hsource : host' ≠ source) (htarget : host' ≠ target) (suspended : host' ≠ .nowhere) :
    Spares L L loc (move source target loc) w w' host' := by
  refine ⟨ext, ?_, ?_, fun b _ => kept b, fun _ _ => rfl, fun _ _ => rfl⟩
  · intro b _ hb
    rw [move_of_ne (by rw [hb]; exact hsource), vacate_of_ne (by rw [hb]; exact htarget), hb]
  · intro b hb
    unfold move at hb
    split at hb
    · exact absurd hb.symm htarget
    · exact eq_of_vacate hb suspended

end Spares

/-! ### Marks that move -/

section Hosted

variable {L : Ledger} {loc : Nat → Host} {w w' : World} {host source target : Host} {a : Nat}
  {marks above below : List Mark}

/-- The marks of one activation, to its end. -/
def Closes (a : Nat) (marks : List Mark) : Prop := ∃ frames, FramesOf a frames ∧ marks = frames ++ [.ends a]

theorem closes_ends (a : Nat) : Closes a [.ends a] := ⟨[], by simp [FramesOf], rfl⟩

theorem Meets.closes {p : Port} {context : Node.Context} (h : Meets a context p marks)
    (form : ∃ context form, p = .ended context form) : Closes a marks := by
  obtain ⟨_, _, rfl⟩ := form
  cases h with
  | ended frames h => exact ⟨frames, h, rfl⟩

theorem Closes.activation (h : Closes a marks) : ∀ m ∈ marks, m.activation = a := by
  obtain ⟨frames, hf, rfl⟩ := h
  intro m hm
  rcases List.mem_append.mp hm with hm | hm
  · exact (hf m hm).1
  · rw [List.mem_singleton.mp hm]
    rfl

variable [Node.Strays]

/-- Nothing of an activation is below the marks that close it. -/
theorem Hosted.apart (h : Hosted L loc w host (above ++ below)) (closes : Closes a above) :
    ∀ m ∈ below, m.activation ≠ a := by
  obtain ⟨frames, -, rfl⟩ := closes
  intro m hm
  exact (List.pairwise_append.mp h.tidy).2.2 (.ends a) (by simp) m hm rfl

/-- No world has a frame of an activation that does not exist. -/
theorem covers_new (h : Hosted L loc w host marks) {P : Live → ScopeFrame → List (Action Deferred) → Prop}
    (name : Text) : Covers P (lives w.activations.size marks) ({ name } : Registry Deferred).frames.reverse
      ({ name } : Registry Deferred).arena.actions := by
  have hlives : lives w.activations.size marks = [] := lives_eq_nil fun m hm =>
    Nat.ne_of_lt (h.located m hm).2
  rw [hlives]
  exact .nil

/-- An activation that is closed goes elsewhere, and the rest stays. -/
theorem Hosted.rest (h : Hosted L loc w .running (above ++ below)) (closes : Closes a above)
    (hr : host ≠ .running) : Hosted L (place a host loc) w .running below where
  tidy := (List.pairwise_append.mp h.tidy).2.1
  located m hm := by
    obtain ⟨hloc, hlt⟩ := h.located m (List.mem_append_right _ hm)
    rw [place_of_ne (h.apart closes m hm), vacate_of_ne (by rw [hloc]; exact hr.symm)]
    exact ⟨hloc, hlt⟩
  covers b hb := by
    have hba : b ≠ a := by
      rintro rfl
      rw [place_self] at hb
      exact hr hb
    rw [place_of_ne hba] at hb
    have hcovers := h.covers b (eq_of_vacate hb (by simp))
    have hnone : lives b above = [] := lives_eq_nil fun m hm => by
      rw [closes.activation m hm]
      exact hba.symm
    rwa [lives_append, hnone, List.nil_append] at hcovers

/-- An activation that is closed is taken along to a suspended host. -/
theorem Hosted.taken (h : Hosted L loc w .running (above ++ below)) (closes : Closes a above)
    (hr : host ≠ .running) (hn : host ≠ .nowhere) : Hosted L (place a host loc) w host above where
  tidy := (List.pairwise_append.mp h.tidy).1
  located m hm := by
    rw [closes.activation m hm, place_self, ← closes.activation m hm]
    exact ⟨rfl, (h.located m (List.mem_append_left _ hm)).2⟩
  covers b hb := by
    have hba : b = a := by
      by_cases hba : b = a
      · exact hba
      · rw [place_of_ne hba] at hb
        exact absurd hb (vacate_ne_self hr hn)
    rw [hba]
    have hmem : ∃ m ∈ above, m.activation = a := by
      obtain ⟨frames, -, rfl⟩ := closes
      exact ⟨.ends a, by simp, rfl⟩
    obtain ⟨m, hm, hma⟩ := hmem
    have hloc := (h.located m (List.mem_append_left _ hm)).1
    rw [hma] at hloc
    have hcovers := h.covers a hloc
    have hnone : lives a below = [] := lives_eq_nil (h.apart closes)
    rwa [lives_append, hnone, List.append_nil] at hcovers

/-- All that one host has is taken along to a suspended one. -/
theorem Hosted.moved (h : Hosted L loc w source marks) (hr : target ≠ .running)
    (hn : target ≠ .nowhere) : Hosted L (move source target loc) w target marks where
  tidy := h.tidy
  located m hm := ⟨move_source (h.located m hm).1, (h.located m hm).2⟩
  covers b hb := by
    refine h.covers b ?_
    by_cases hloc : loc b = source
    · exact hloc
    · rw [move_of_ne hloc] at hb
      exact absurd hb (vacate_ne_self hr hn)

/-- What was suspended runs above what is running. -/
theorem Hosted.woken (h : Hosted L loc w source above) (h' : Hosted L loc w .running below)
    (hr : source ≠ .running) : Hosted L (move source .running loc) w .running (above ++ below) := by
  have hrunning : ∀ b, loc b = .running → move source .running loc b = .running := by
    intro b hb
    rw [move_of_ne (by rw [hb]; exact hr.symm)]
    simpa [vacate] using hb
  refine ⟨?_, ?_, ?_⟩
  · refine List.pairwise_append.mpr ⟨h.tidy, h'.tidy, fun m hm m' hm' _ e => ?_⟩
    have hm := (h.located m hm).1
    rw [← e, (h'.located m' hm').1] at hm
    exact hr hm.symm
  · intro m hm
    rcases List.mem_append.mp hm with hm | hm
    · exact ⟨move_source (h.located m hm).1, (h.located m hm).2⟩
    · exact ⟨hrunning _ (h'.located m hm).1, (h'.located m hm).2⟩
  · intro b hb
    rw [lives_append]
    by_cases hloc : loc b = source
    · have hnone : lives b below = [] := lives_eq_nil fun m hm e => by
        have hm := (h'.located m hm).1
        rw [e, hloc] at hm
        exact hr hm
      rw [hnone, List.append_nil]
      exact h.covers b hloc
    · have hloc' : loc b = .running := by
        rw [move_of_ne hloc] at hb
        exact eq_of_vacate hb (by simp)
      have hnone : lives b above = [] := lives_eq_nil fun m hm e => by
        have hm := (h.located m hm).1
        rw [e] at hm
        exact hloc hm
      rw [hnone, List.nil_append]
      exact h'.covers b hloc'

/-- A host that has nothing. -/
theorem hosted_nil (none : ∀ a, loc a ≠ host) : Hosted L loc w host [] :=
  ⟨.nil, by simp, fun a ha => absurd ha (none a)⟩

end Hosted

/-! ### New activations, generators and tasks -/

section Worlds

variable {L : Ledger} {loc : Nat → Host} {w w' : World}

theorem activation_push {activations : Array Activation} (x : Activation)
    (h : w'.activations = activations.push x) (b : Nat) :
    w'.activation b = if b = activations.size then x else activations.getD b default := by
  simp only [World.activation, h, Array.getD_eq_getD_getElem?, Array.getElem?_push]
  split <;> rfl

theorem extends_newActivation (w : World) (name : Text) (isAsync : Bool) :
    Extends w (w.newActivation name isAsync).2 where
  scopes := Nat.le_refl _
  owners _ _ := rfl
  closures := Nat.le_refl _
  kept _ _ := rfl
  activations := by simp [World.newActivation]
  async b hb := by
    rw [activation_push _ (rfl : (w.newActivation name isAsync).2.activations = _),
      if_neg (Nat.ne_of_lt hb)]
    rfl

theorem registry_newActivation (w : World) (name : Text) (isAsync : Bool) (b : Nat) :
    (w.newActivation name isAsync).2.registry b =
      if b = w.activations.size then { name } else w.registry b := by
  rw [World.registry, activation_push _ (rfl : (w.newActivation name isAsync).2.activations = _)]
  split <;> rfl

theorem isAsync_newActivation (w : World) (name : Text) (isAsync : Bool) :
    ((w.newActivation name isAsync).2.activation w.activations.size).isAsync = isAsync := by
  rw [activation_push _ (rfl : (w.newActivation name isAsync).2.activations = _), if_pos rfl]

theorem registries_newActivation (w : World) (name : Text) (isAsync : Bool) (b : Nat) :
    (w.newActivation name isAsync).2.registry b = w.registry b ∨
      w.activations.size ≤ b ∧ ∃ name', (w.newActivation name isAsync).2.registry b = { name := name' } := by
  rw [registry_newActivation]
  by_cases hb : b = w.activations.size
  · exact .inr ⟨Nat.le_of_eq hb.symm, name, if_pos hb⟩
  · exact .inl (if_neg hb)

theorem spares_newActivation (name : Text) (isAsync : Bool) {host host' : Host}
    (other : host' ≠ host) (suspended : host' ≠ .nowhere) :
    Spares L L loc (place w.activations.size host loc) w (w.newActivation name isAsync).2 host' :=
  spares_place (extends_newActivation ..)
    (fun b hb => by rw [registry_newActivation, if_neg hb]) other suspended
    fun h => absurd h (Nat.lt_irrefl _)

theorem generator_setGenerator (w : World) (g : Nat) (state : GeneratorState) (g' : Nat) :
    g' = g ∧ ((w.setGenerator g state).generator g' = state ∨
        (w.setGenerator g state).generator g' = .done) ∨
      g' ≠ g ∧ (w.setGenerator g state).generator g' = w.generator g' := by
  simp only [World.generator, World.setGenerator, Array.getD_eq_getD_getElem?,
    Array.getElem?_setIfInBounds]
  by_cases h : g = g'
  · subst h
    refine .inl ⟨rfl, ?_⟩
    by_cases hlt : g < w.generators.size
    · exact .inl (by simp [hlt])
    · exact .inr (by simp [hlt])
  · exact .inr ⟨Ne.symm h, by simp [h]⟩

theorem extends_setGenerator (w : World) (g : Nat) (state : GeneratorState) :
    Extends w (w.setGenerator g state) :=
  ⟨Nat.le_refl _, fun _ _ => rfl, Nat.le_refl _, fun _ _ => rfl, Nat.le_refl _, fun _ _ => rfl⟩

/-- No boundary is above the nearest one. -/
theorem segment_isBoundary (stack : Stack) : ∀ f ∈ stack.segment, f.isBoundary = false := by
  intro f hf
  simpa using List.all_eq_true.mp List.all_takeWhile f hf

/-- Scopes, functions and activations are the same. -/
theorem Extends.same (scopes : w'.scopes = w.scopes) (closures : w'.heap.closures = w.heap.closures)
    (activations : w'.activations = w.activations) : Extends w w' :=
  ⟨Nat.le_of_eq (by rw [scopes]), by simp [scopes], Nat.le_of_eq (by rw [closures]),
    by simp [Heap.closure, closures], Nat.le_of_eq (by rw [activations]),
    by simp [World.activation, activations]⟩

/-- Two worlds whose tasks may differ, and nothing else that has a host. -/
structure SameHosts (w w' : World) : Prop where
  scopes : w'.scopes = w.scopes
  closures : w'.heap.closures = w.heap.closures
  activations : w'.activations = w.activations
  generators : w'.generators = w.generators

theorem SameHosts.ext (h : SameHosts w w') : Extends w w' := .same h.scopes h.closures h.activations

theorem SameHosts.registry (h : SameHosts w w') (b : Nat) : w'.registry b = w.registry b := by
  simp [World.registry, World.activation, h.activations]

theorem SameHosts.spares (h : SameHosts w w') (L : Ledger) (loc : Nat → Host) (host : Host) :
    Spares L L loc loc w w' host :=
  ⟨h.ext, fun _ _ => id, fun _ => id, fun b _ => h.registry b, fun _ _ => rfl, fun _ _ => rfl⟩

theorem parked_lt {l : Loop Stack} {t : Nat} {code : Stack}
    (h : (l.promise t).parked? = some code) : t < l.promises.size := by
  by_cases ht : t < l.promises.size
  · exact ht
  · rw [l.promise_of_size_le (Nat.le_of_not_lt ht)] at h
    contradiction

theorem sameHosts_spawn (w : World) (code : Nat → Stack) : SameHosts w (w.spawn code).2 :=
  ⟨rfl, rfl, rfl, rfl⟩

theorem awake_spawn (current : w.current < w.loop.promises.size)
    (awake : (w.loop.promise w.current).parked? = none) (code : Nat → Stack) :
    ((w.spawn code).2.loop.promise (w.spawn code).2.current).parked? = none := by
  rcases Loop.promise_add w.loop { parked? := some (code w.loop.promises.size) } w.current with h | ⟨h, -⟩
  · exact (congrArg Promise.parked? h).trans awake
  · omega

end Worlds

/-! ### Worlds in which activations move -/

section Ready

variable [Node.Strays] {L : Ledger} {loc loc' : Nat → Host} {w w' : World} {stack : Stack} {p : Port}
  {above marks : List Mark} {a g : Nat} {host : Host}

/-- What has to be seen to when the registries stay as they are, or a new one is made. -/
theorem Sys.change (sys : Sys L loc w) (size : w.activations.size ≤ w'.activations.size)
    (rests : Rests w loc loc') (closures : w'.heap.closures = w.heap.closures)
    (registries : ∀ a, w'.registry a = w.registry a ∨
      w.activations.size ≤ a ∧ ∃ name, w'.registry a = { name })
    (generators : ∀ g, (w'.generator g).Fits L loc' w' g)
    (loop : w'.loop.Holds IsFirst (Parked L loc' w') Failure.Clean)
    (current : w'.current < w'.loop.promises.size)
    (ending : ∀ f, w'.ending? = some (some f) → f.Clean) : Sys L loc' w' := by
  -- nothing is written down about an activation that did not exist
  have hnone : ∀ a, w.activations.size ≤ a → ∀ id, L.registered a id = [] ∧ L.started a id = [] := by
    intro a ha id
    refine sys.unused a id ?_
    simp [World.registry, World.activation, Array.getD_eq_getD_getElem?,
      Array.getElem?_eq_none ha, default]
  refine ⟨by rw [closures]; exact sys.closures, ?_, ?_, ?_, ?_, generators, loop, current,
    ending⟩
  · intro a
    rcases registries a with h | ⟨-, name, h⟩
    · rw [h]
      exact sys.reachable a
    · rw [h]
      exact ⟨name, .refl⟩
  · intro a id hid
    rcases registries a with h | ⟨ha, -, -⟩
    · rw [h] at hid
      exact sys.unused a id hid
    · exact hnone a ha id
  · intro a id hid
    rcases registries a with h | ⟨ha, -, -⟩
    · rw [h] at hid
      exact sys.gone a id hid
    · rw [(hnone a ha id).1, (hnone a ha id).2]
      rfl
  · intro a hended
    obtain ⟨hlt, hloc, hempty⟩ := sys.ended a hended
    refine ⟨Nat.lt_of_lt_of_le hlt size, rests a hlt hloc, ?_⟩
    rcases registries a with h | ⟨ha, -, -⟩
    · rw [h]
      exact hempty
    · omega

/-- Where activations move, tasks that do not take part keep what they have. -/
theorem Sys.tasks (sys : Sys L loc w) (spares : ∀ t code, (w.loop.promise t).parked? = some code →
    Spares L L loc loc' w w' (.task t)) :
    w.loop.Holds IsFirst (Parked L loc' w') Failure.Clean :=
  sys.loop.imp fun t code e h => h.spared (spares t code e)

/-! New activations -/

/-- The marks of the running code and those of a new activation that runs on top. -/
theorem Hosted.new (h : Hosted L loc w .running marks) (name : Text) (isAsync : Bool) :
    Hosted L (place w.activations.size .running loc) (w.newActivation name isAsync).2 .running
      (.ends w.activations.size :: marks) := by
  have hlt : w.activations.size < (w.newActivation name isAsync).2.activations.size := by
    simp [World.newActivation]
  have hrunning : ∀ b, b ≠ w.activations.size →
      place w.activations.size .running loc b = loc b := by
    intro b hb
    rw [place_of_ne hb]
    simp [vacate]
  have hmarks : ∀ m ∈ marks, m.activation ≠ w.activations.size := fun m hm =>
    Nat.ne_of_lt (h.located m hm).2
  have ext := extends_newActivation w name isAsync
  refine ⟨List.pairwise_cons.mpr ⟨fun m hm _ => hmarks m hm, h.tidy⟩, ?_, ?_⟩
  · refine List.forall_mem_cons.mpr ⟨⟨place_self, hlt⟩, fun m hm => ?_⟩
    rw [hrunning _ (hmarks m hm)]
    exact ⟨(h.located m hm).1, Nat.lt_of_lt_of_le (h.located m hm).2 ext.activations⟩
  · intro b hb
    rw [lives_ends, registry_newActivation]
    by_cases hba : b = w.activations.size
    · rw [if_pos hba, hba]
      exact covers_new h name
    · rw [if_neg hba]
      rw [hrunning b hba] at hb
      refine (h.covers b hb).imp fun l f hf own held => ?_
      have hb' : b < w.activations.size := World.lt_of_frame (List.mem_reverse.mp hf)
      exact ⟨held.isAsync.trans (ext.async b hb').symm, held.waiting, held.draining, held.counts,
        held.waits, fun x hx => (held.fits x hx).mono ext, held.account, held.untouched⟩

/-- A new activation that is all that a suspended host has. -/
theorem hosted_new (L : Ledger) (loc : Nat → Host) (w : World) (name : Text) (isAsync : Bool)
    {host : Host} (hr : host ≠ .running) (hn : host ≠ .nowhere) :
    Hosted L (place w.activations.size host loc) (w.newActivation name isAsync).2 host
      [.ends w.activations.size] := by
  have hlt : w.activations.size < (w.newActivation name isAsync).2.activations.size := by
    simp [World.newActivation]
  refine ⟨by simp, List.forall_mem_singleton.mpr ⟨place_self, hlt⟩, ?_⟩
  intro b hb
  by_cases hba : b = w.activations.size
  · rw [registry_newActivation, if_pos hba, lives_ends]
    exact .nil
  · rw [place_of_ne hba] at hb
    exact absurd hb (vacate_ne_self hr hn)

/-- A call has its own activation. -/
theorem Ready.new (r : Ready L loc w stack p []) (name : Text) (isAsync : Bool) :
    Ready L (place w.activations.size .running loc) (w.newActivation name isAsync).2 stack p
      [.ends w.activations.size] := by
  obtain ⟨marks, spans, hosted⟩ := r.path
  have ext := extends_newActivation w name isAsync
  refine ⟨?_, r.awake, marks, spans.mono ext, hosted.new name isAsync⟩
  refine r.sys.change ext.activations (rests_place fun h => absurd h (Nat.lt_irrefl _)) rfl
    (registries_newActivation w name isAsync) ?_ ?_ r.sys.current r.sys.ending
  · intro g
    exact (r.sys.generators g).spared (spares_newActivation name isAsync (by simp) (by simp))
  · exact r.sys.tasks fun t _ _ => spares_newActivation name isAsync (by simp) (by simp)

/-! The end of an activation -/

/-- An activation of running code has left all its frames where its end is the first mark. -/
theorem Hosted.ends_empty (h : Hosted L loc w .running (.ends a :: below)) :
    (w.registry a).frames = [] ∧ (w.registry a).arena.actions = [] := by
  have hcovers := h.covers a (h.located _ List.mem_cons_self).1
  have hnone : lives a below = [] :=
    lives_eq_nil fun m hm => (List.pairwise_cons.mp h.tidy).1 m hm rfl
  rw [lives_ends, hnone] at hcovers
  generalize hframes : (w.registry a).frames.reverse = frames at hcovers
  generalize hactions : (w.registry a).arena.actions = actions at hcovers
  cases hcovers
  exact ⟨List.reverse_eq_nil_iff.mp hframes, rfl⟩

/-- The code of an activation has come to its end. -/
def Ledger.finish (L : Ledger) (a : Nat) : Ledger :=
  { L with ended := L.ended ++ [a] }

/-- The activation at the top is given up. -/
theorem Ready.given (r : Ready L loc w stack p [.ends a]) :
    Ready (L.finish a) (place a .nowhere loc) w stack p [] := by
  obtain ⟨marks, spans, hosted⟩ := r.path
  obtain ⟨hrunning, hlt⟩ : loc a = .running ∧ a < w.activations.size :=
    hosted.located (.ends a) List.mem_cons_self
  have hne : loc a ≠ .nowhere := by
    rw [hrunning]
    simp
  have hempty := hosted.ends_empty
  have spares : ∀ host, host ≠ .running → host ≠ .nowhere →
      Spares L L loc (place a .nowhere loc) w w host := by
    intro host hr hn
    refine spares_place (.refl w) (fun _ _ => rfl) hn hn fun _ => ?_
    rw [hrunning]
    exact hr.symm
  -- the ledger says nothing else
  have said : ∀ host, Spares L (L.finish a) (place a .nowhere loc) (place a .nowhere loc) w w host :=
    fun host => ⟨.refl w, fun _ _ => id, fun _ => id, fun _ _ => rfl, fun _ _ => rfl, fun _ _ => rfl⟩
  have sys : Sys L (place a .nowhere loc) w := by
    refine r.sys.change (Nat.le_refl _) (rests_place fun _ => hne) rfl (fun _ => .inl rfl) ?_ ?_
      r.sys.current r.sys.ending
    · exact fun g => (r.sys.generators g).spared (spares _ (by simp) (by simp))
    · exact r.sys.tasks fun t _ _ => spares _ (by simp) (by simp)
  refine ⟨⟨sys.closures, sys.reachable, sys.unused, sys.gone, ?_, ?_, ?_, sys.current, sys.ending⟩,
    r.awake, marks, spans, (hosted.rest (closes_ends a) (by simp)).spared (said _)⟩
  · intro b hb
    rcases List.mem_append.mp hb with hb | hb
    · exact sys.ended b hb
    · rw [List.mem_singleton.mp hb]
      exact ⟨hlt, place_self, hempty⟩
  · exact fun g => (sys.generators g).spared (said _)
  · exact sys.loop.imp fun t code _ h => h.spared (said _)

/-! Generators -/

/-- What fits in the place of a generator and what fits elsewhere. -/
theorem fits_setGenerator {state : GeneratorState} (self : state.Fits L loc w' g)
    (others : ∀ g', g' ≠ g → (w.generator g').Fits L loc w' g') (g' : Nat) :
    ((w.setGenerator g state).generator g').Fits L loc w' g' := by
  rcases generator_setGenerator w g state g' with ⟨rfl, h | h⟩ | ⟨hne, h⟩ <;> rw [h]
  · exact self
  · exact .done
  · exact others g' hne

/-- A generator that has no code any more, or whose code runs, is in no one's way. -/
theorem Ready.setGenerator (r : Ready L loc w stack p above) {state : GeneratorState}
    (fits : ∀ L loc w, state.Fits L loc w g) :
    Ready L loc (w.setGenerator g state) stack p above := by
  obtain ⟨marks, spans, hosted⟩ := r.path
  have ext := extends_setGenerator w g state
  have spares : ∀ host, Spares L L loc loc w (w.setGenerator g state) host := fun host =>
    ⟨ext, fun _ _ => id, fun _ => id, fun _ _ => rfl, fun _ _ => rfl, fun _ _ => rfl⟩
  refine ⟨?_, r.awake, marks, spans.mono ext, hosted.spared (spares _)⟩
  refine r.sys.change (Nat.le_refl _) (fun _ _ => id) rfl (fun _ => .inl rfl)
    (fits_setGenerator (fits ..) fun g' _ => ?_) ?_ r.sys.current r.sys.ending
  · exact (r.sys.generators g').spared (spares _)
  · exact r.sys.tasks fun t _ _ => spares _

/-- What a generator has runs again. -/
theorem Ready.woken (r : Ready L loc w stack p []) (hosted : Hosted L loc w (.generator g) above) :
    Ready L (move (.generator g) .running loc) (w.setGenerator g .running) stack p above := by
  obtain ⟨marks, spans, hosted'⟩ := r.path
  have ext := extends_setGenerator w g .running
  have spares : ∀ host, host ≠ .generator g → host ≠ .running → host ≠ .nowhere →
      Spares L L loc (move (.generator g) .running loc) w (w.setGenerator g .running) host :=
    fun host hg hr hn => spares_move ext (fun _ => rfl) hg hr hn
  have same : Spares L L (move (.generator g) .running loc) (move (.generator g) .running loc) w
      (w.setGenerator g .running) .running :=
    ⟨ext, fun _ _ => id, fun _ => id, fun _ _ => rfl, fun _ _ => rfl, fun _ _ => rfl⟩
  refine ⟨?_, r.awake, marks, spans.mono ext, (hosted.woken hosted' (by simp)).spared same⟩
  refine r.sys.change (Nat.le_refl _) (rests_move (by simp)) rfl (fun _ => .inl rfl)
    (fits_setGenerator .running fun g' hg => ?_) ?_ r.sys.current r.sys.ending
  · exact (r.sys.generators g').spared (spares _ (by simpa using hg) (by simp) (by simp))
  · exact r.sys.tasks fun t _ _ => spares _ (by simp) (by simp) (by simp)

/-- A generator that waits for its first step has the activation of its code. -/
theorem Ready.newGenerator (r : Ready L loc w stack p []) {closure : Nat}
    (known : closure < w.heap.closures.size)
    (sort : (w.heap.closure closure).context = ⟨false, true⟩) (arguments : List Value)
    (name : Text) (isAsync : Bool) (title : Text) :
    Ready L (place w.activations.size (.generator w.generators.size) loc)
      { (w.newActivation name isAsync).2 with
        heap := (w.heap.newGenerator title).2
        generators := w.generators.push (.fresh closure arguments w.activations.size) }
      stack p [] := by
  obtain ⟨marks, spans, hosted⟩ := r.path
  obtain ⟨w', hw⟩ : ∃ w', w' = { (w.newActivation name isAsync).2 with
        heap := (w.heap.newGenerator title).2
        generators := w.generators.push (.fresh closure arguments w.activations.size) } := ⟨_, rfl⟩
  rw [← hw]
  have hregistry : ∀ b, w'.registry b = (w.newActivation name isAsync).2.registry b := by
    intro b
    rw [hw]
    rfl
  have hgenerator : ∀ g, w'.generator g = .fresh closure arguments w.activations.size ∧
      g = w.generators.size ∨ w'.generator g = w.generator g ∧ g ≠ w.generators.size := by
    intro g
    rw [hw]
    simp only [World.generator, Array.getD_eq_getD_getElem?, Array.getElem?_push]
    by_cases hg : g = w.generators.size
    · exact .inl ⟨by simp [hg], hg⟩
    · exact .inr ⟨by simp [hg], hg⟩
  have ext' : Extends (w.newActivation name isAsync).2 w' := by
    rw [hw]
    exact ⟨Nat.le_refl _, fun _ _ => rfl, Nat.le_refl _, fun _ _ => rfl, Nat.le_refl _, fun _ _ => rfl⟩
  have ext := (extends_newActivation w name isAsync).trans ext'
  have spares : ∀ host, host ≠ .generator w.generators.size → host ≠ .nowhere →
      Spares L L loc (place w.activations.size (.generator w.generators.size) loc) w w' host := by
    intro host hg hn
    refine spares_place ext (fun b hb => ?_) hg hn fun h => absurd h (Nat.lt_irrefl _)
    rw [hregistry, registry_newActivation, if_neg hb]
  have same : ∀ loc host, Spares L L loc loc (w.newActivation name isAsync).2 w' host := fun _ _ =>
    ⟨ext', fun _ _ => id, fun _ => id, fun b _ => hregistry b, fun _ _ => rfl, fun _ _ => rfl⟩
  have hheap : w'.heap.closures = w.heap.closures := by rw [hw]; rfl
  have hloop : w'.loop = w.loop ∧ w'.current = w.current := by rw [hw]; exact ⟨rfl, rfl⟩
  refine ⟨?_, by rw [hloop.1, hloop.2]; exact r.awake, marks, spans.mono ext,
    hosted.spared (spares _ (by simp) (by simp))⟩
  refine r.sys.change ext.activations (rests_place fun h => absurd h (Nat.lt_irrefl _)) hheap
    (fun b => ?_) (fun g => ?_) ?_ (by rw [hloop.1, hloop.2]; exact r.sys.current)
    (by rw [hw]; exact r.sys.ending)
  · rw [hregistry]
    exact registries_newActivation w name isAsync b
  · rcases hgenerator g with ⟨h, rfl⟩ | ⟨h, hg⟩ <;> rw [h]
    · refine .fresh (by rw [hheap]; exact known) ?_
        ((hosted_new L loc w name isAsync (by simp) (by simp)).spared (same _ _))
      rw [ext.kept _ known]
      exact sort
    · exact (r.sys.generators g).spared (spares _ (by simpa using hg) (by simp))
  · rw [hloop.1]
    exact r.sys.tasks fun t _ _ => spares _ (by simp) (by simp)

/-- A generator hands out a value and takes its code along. -/
theorem Ready.yielded {Γ : Region} (r : Ready L loc w stack (.code .value Γ) [])
    (permitted : Γ.permits.isGenerator = true) :
    ∃ g rest Γ' loc', stack.fromBoundary = .generatorBoundary g :: rest ∧
      Ready L loc' (w.setGenerator g (.suspended stack.segment)) rest (.code .step Γ') [] := by
  obtain ⟨marks, spans, hosted⟩ := r.path
  obtain ⟨isOpen, sort⟩ := Bool.and_eq_true_iff.mp permitted
  obtain ⟨q, above, below, habove, hbelow, rfl, meets⟩ := spans.split rfl
  rw [List.nil_append] at hosted
  cases meets with
  | action hc _ =>
    rw [hc] at sort
    contradiction
  | ended frames hframes =>
    have closes : Closes Γ.activation (frames ++ [.ends Γ.activation]) := ⟨frames, hframes, rfl⟩
    generalize hstack : stack.fromBoundary = rest at hbelow
    generalize hcontext : Γ.context = context at hbelow habove sort
    cases hbelow with
    | @generator Γ' g rest _ _ hrest =>
      have ext := extends_setGenerator w g (.suspended stack.segment)
      have hrunning : loc Γ.activation = .running := (hosted.located (.ends Γ.activation) (by simp)).1
      have spares : ∀ host, host ≠ .running → host ≠ .generator g → host ≠ .nowhere →
          Spares L L loc (place Γ.activation (.generator g) loc) w
            (w.setGenerator g (.suspended stack.segment)) host := by
        intro host hr hg hn
        refine spares_place ext (fun _ _ => rfl) hg hn fun _ => ?_
        rw [hrunning]
        exact hr.symm
      have same : ∀ host, Spares L L (place Γ.activation (.generator g) loc)
          (place Γ.activation (.generator g) loc) w
            (w.setGenerator g (.suspended stack.segment)) host := fun host =>
        ⟨ext, fun _ _ => id, fun _ => id, fun _ _ => rfl, fun _ _ => rfl, fun _ _ => rfl⟩
      have hhosted : Hosted L (place Γ.activation (.generator g) loc) w .running _ :=
        hosted.rest closes (by simp)
      refine ⟨g, rest, Γ', place Γ.activation (.generator g) loc, rfl, ?_, r.awake, _, hrest.mono ext,
        hhosted.spared (same _)⟩
      refine r.sys.change (Nat.le_refl _) (rests_place fun _ => ?_) rfl (fun _ => .inl rfl)
        (fits_setGenerator ?_ fun g' hg => ?_) ?_ r.sys.current r.sys.ending
      · rw [hrunning]
        simp
      · exact .suspended hcontext isOpen (segment_isBoundary stack) (habove.mono ext)
          ((hosted.taken closes (by simp) (by simp)).spared (same _))
      · exact (r.sys.generators g').spared (spares _ (by simp) (by simpa using hg) (by simp))
      · exact r.sys.tasks fun t _ _ => spares _ (by simp) (by simp) (by simp)
    | _ => contradiction

/-! Tasks -/

theorem Sys.sameHosts (sys : Sys L loc w) (same : SameHosts w w') (rests : Rests w loc loc')
    (generators : ∀ g, Spares L L loc loc' w w' (.generator g))
    (loop : w'.loop.Holds IsFirst (Parked L loc' w') Failure.Clean)
    (current : w'.current < w'.loop.promises.size)
    (ending : ∀ f, w'.ending? = some (some f) → f.Clean) : Sys L loc' w' := by
  refine sys.change same.ext.activations rests same.closures (fun b => .inl (same.registry b))
    (fun g => ?_) loop current ending
  have hg : w'.generator g = w.generator g := by simp [World.generator, same.generators]
  rw [hg]
  exact (sys.generators g).spared (generators g)

/-- One more task, which has the code that it starts with. -/
theorem Sys.spawned (sys : Sys L loc w) {code : Nat → Stack} (rests : Rests w loc loc')
    (spares : ∀ host, host ≠ .running → host ≠ .task w.loop.promises.size → host ≠ .nowhere →
      Spares L L loc loc' w (w.spawn code).2 host)
    (parked : Parked L loc' (w.spawn code).2 w.loop.promises.size (code w.loop.promises.size)) :
    Sys L loc' (w.spawn code).2 := by
  refine sys.sameHosts (sameHosts_spawn w code) rests
    (fun g => spares _ (by simp) (by simp) (by simp)) ?_ ?_ sys.ending
  · refine Loop.Holds.spawn (sys.tasks fun t c e => ?_) parked
    have ht := parked_lt e
    exact spares _ (by simp) (by simp only [ne_eq, Host.task.injEq]; omega) (by simp)
  · exact Nat.lt_of_lt_of_le sys.current (by simp [World.spawn, Loop.spawn, Loop.add, Loop.enqueue, World.track])

/-- A task that sleeps and ends. -/
theorem Ready.napped (r : Ready L loc w stack p []) (seconds : Float) :
    ∃ loc', Ready L loc' (w.nap seconds).2 stack p [] := by
  obtain ⟨marks, spans, hosted⟩ := r.path
  obtain ⟨code, hcode⟩ : ∃ code : Nat → Stack, code = fun task => [.nap seconds, .taskEnd task] :=
    ⟨_, rfl⟩
  have hnap : (w.nap seconds).2 = (w.spawn code).2 := by rw [hcode]; rfl
  have same := sameHosts_spawn w code
  have spares : ∀ host, host ≠ .task w.loop.promises.size → host ≠ .nowhere →
      Spares L L loc (move (.task w.loop.promises.size) .nowhere loc) w (w.spawn code).2 host :=
    fun host ht hn => spares_move same.ext same.registry ht hn hn
  rw [hnap]
  refine ⟨move (.task w.loop.promises.size) .nowhere loc,
    r.sys.spawned (rests_move (by simp)) (fun host _ => spares host) ?_,
    awake_spawn r.sys.current r.awake code, marks, spans.mono same.ext,
    hosted.spared (spares _ (by simp) (by simp))⟩
  rw [hcode]
  exact ⟨.task .value, [], rfl, .nap, hosted_nil fun b => move_ne_source (by simp) (by simp)⟩

/-- The code above the start of an asynchronous call becomes a task of its own. -/
theorem Ready.spawned {form : Form} {Γ : Region} {extra : List Mark} {rest : Stack} {first : Frame}
    (r : Ready L loc w stack (.code form Γ) extra) (frames : FramesOf Γ.activation extra)
    (boundary : stack.fromBoundary = .asyncStart :: rest)
    (starts : ∀ w' stack marks, Spans w' (.code form Γ) stack marks .bottom →
      Spans w' .woken (first :: stack) (extra ++ marks) .bottom) :
    ∃ loc', Ready L loc' (w.spawn fun task => first :: stack.segment ++ [.asyncDrive, .taskEnd task]).2
      rest .called [] := by
  obtain ⟨marks, spans, hosted⟩ := r.path
  obtain ⟨q, above, below, habove, hbelow, rfl, meets⟩ := spans.split rfl
  rw [boundary] at hbelow
  obtain ⟨code, hcode⟩ : ∃ code : Nat → Stack, code = fun task =>
    first :: stack.segment ++ [.asyncDrive, .taskEnd task] := ⟨_, rfl⟩
  rw [← hcode]
  cases meets with
  | action => cases hbelow
  | ended inner hinner =>
    have closes : Closes Γ.activation (extra ++ (inner ++ [.ends Γ.activation])) := by
      refine ⟨extra ++ inner, ?_, (List.append_assoc ..).symm⟩
      intro m hm
      rcases List.mem_append.mp hm with hm | hm
      · exact frames m hm
      · exact hinner m hm
    rw [← List.append_assoc] at hosted
    generalize hcontext : Γ.context = context at hbelow habove
    cases hbelow with
    | asyncCall hrest =>
      have same := sameHosts_spawn w code
      have hrunning : loc Γ.activation = .running := (hosted.located (.ends Γ.activation) (by simp)).1
      have spares : ∀ host, host ≠ .running → host ≠ .task w.loop.promises.size → host ≠ .nowhere →
          Spares L L loc (place Γ.activation (.task w.loop.promises.size) loc) w (w.spawn code).2
            host := by
        intro host hr ht hn
        refine spares_place same.ext (fun b _ => same.registry b) ht hn fun _ => ?_
        rw [hrunning]
        exact hr.symm
      have hhosted : Hosted L (place Γ.activation (.task w.loop.promises.size) loc) w .running _ :=
        hosted.rest closes (by simp)
      have hne : loc Γ.activation ≠ .nowhere := by
        rw [hrunning]
        simp
      refine ⟨place Γ.activation (.task w.loop.promises.size) loc,
        r.sys.spawned (rests_place fun _ => hne) spares ?_, awake_spawn r.sys.current r.awake code, _,
        hrest.mono same.ext, hhosted.spared (same.spares ..)⟩
      have htask := (habove.mono same.ext).append
        (.asyncTask (.taskEnd (p := w.loop.promises.size)))
      rw [List.append_nil] at htask
      have hfirst : code w.loop.promises.size =
          first :: (stack.segment ++ [.asyncDrive, .taskEnd w.loop.promises.size]) := by
        rw [hcode]
        rfl
      rw [hfirst]
      refine ⟨.woken, _, rfl, starts _ _ _ htask, ?_⟩
      exact (hosted.taken closes (by simp) (by simp)).spared (same.spares ..)

/-- A promise that is settled from the start. -/
theorem Ready.settledPromise (r : Ready L loc w stack p []) {outcome : Outcome}
    (clean : ∀ f, outcome = .error f → f.Clean) :
    Ready L loc (w.settledPromise outcome).2 stack p [] := by
  obtain ⟨marks, spans, hosted⟩ := r.path
  have same : SameHosts w (w.settledPromise outcome).2 := ⟨rfl, rfl, rfl, rfl⟩
  have hcurrent := r.sys.current
  refine ⟨?_, ?_, marks, spans.mono same.ext, hosted.spared (same.spares ..)⟩
  · refine r.sys.sameHosts same (fun _ _ => id) (fun g => same.spares ..) ?_ ?_ r.sys.ending
    · exact Loop.Holds.add (r.sys.tasks fun t _ _ => same.spares ..)
        (fun f hf => clean f (Option.some.inj hf)) (by simp) rfl
    · exact Nat.lt_of_lt_of_le hcurrent (by simp [World.settledPromise, Loop.add, World.track])
  · rcases Loop.promise_add w.loop { outcome? := some outcome } w.current with h | ⟨h, -⟩
    · exact (congrArg Promise.parked? h).trans r.awake
    · omega

/-- The running code is parked with its task. -/
theorem Ready.parks (r : Ready L loc w stack p []) (form : p.form? = some .value) {loop : Loop Stack}
    (holds : ∀ good : Nat → Stack → Prop, w.loop.Holds IsFirst good Failure.Clean →
      good w.current stack → loop.Holds IsFirst good Failure.Clean)
    (size : w.loop.promises.size ≤ loop.promises.size) :
    Reached L ⟨{ w with loop := loop }, .parked, []⟩ := by
  obtain ⟨marks, spans, hosted⟩ := r.path
  have same : SameHosts w { w with loop := loop } := ⟨rfl, rfl, rfl, rfl⟩
  have spares : ∀ host, host ≠ .running → host ≠ .task w.current → host ≠ .nowhere →
      Spares L L loc (move .running (.task w.current) loc) w { w with loop := loop } host :=
    fun host hr ht hn => spares_move same.ext same.registry hr ht hn
  refine @Reached.parked _ L (move .running (.task w.current) loc) _ ?_ ?_
  · refine r.sys.sameHosts same (rests_move (by simp))
      (fun g => spares _ (by simp) (by simp) (by simp)) ?_
      (Nat.lt_of_lt_of_le r.sys.current size) r.sys.ending
    refine holds _ (r.sys.tasks fun t code e => spares _ (by simp) ?_ (by simp)) ?_
    · intro ht
      rw [Host.task.inj ht, r.awake] at e
      contradiction
    · exact ⟨p, _, form, spans.mono same.ext,
        (hosted.moved (by simp) (by simp)).spared (same.spares ..)⟩
  · exact fun b => move_ne_source (by simp) (by simp)

/-- The running task has come to its end. -/
theorem Ready.done (r : Ready L loc w stack p above) (same : SameHosts w w')
    (holds : ∀ good : Nat → Stack → Prop, w.loop.Holds IsFirst good Failure.Clean →
      w'.loop.Holds IsFirst good Failure.Clean)
    (current : w'.current < w'.loop.promises.size)
    (ending : ∀ f, w'.ending? = some (some f) → f.Clean) : Reached L ⟨w', .parked, []⟩ := by
  have spares : ∀ host, host ≠ .running → host ≠ .nowhere →
      Spares L L loc (move .running .nowhere loc) w w' host :=
    fun host hr hn => spares_move same.ext same.registry hr hn hn
  refine @Reached.parked _ L (move .running .nowhere loc) _ ?_ ?_
  · exact r.sys.sameHosts same (rests_move (by simp)) (fun g => spares _ (by simp) (by simp))
      (holds _ (r.sys.tasks fun t _ _ => spares _ (by simp) (by simp))) current ending
  · exact fun b => move_ne_source (by simp) (by simp)

/-- A parked task goes on. -/
theorem Sys.resumed (sys : Sys L loc w) (idle : ∀ a, loc a ≠ .running) {task : Nat} {code : Stack}
    {loop : Loop Stack}
    (holds : ∀ good : Nat → Stack → Prop, w.loop.Holds IsFirst good Failure.Clean →
      loop.Holds IsFirst good Failure.Clean ∧ good task code)
    (size : task < loop.promises.size) (unparked : (loop.promise task).parked? = none) :
    ∃ loc' p, p.form? = some .value ∧
      Ready L loc' { w with loop := loop, current := task } code p [] := by
  obtain ⟨w', hw⟩ : ∃ w', w' = { w with loop := loop, current := task } := ⟨_, rfl⟩
  rw [← hw]
  have same : SameHosts w w' := by
    rw [hw]
    exact ⟨rfl, rfl, rfl, rfl⟩
  have hloop : w'.loop = loop ∧ w'.current = task := by
    rw [hw]
    exact ⟨rfl, rfl⟩
  obtain ⟨p, marks, form, spans, hosted⟩ := (holds _ sys.loop).2
  have spares : ∀ host, host ≠ .task task → host ≠ .running → host ≠ .nowhere →
      Spares L L loc (move (.task task) .running loc) w w' host :=
    fun host ht hr hn => spares_move same.ext same.registry ht hr hn
  refine ⟨move (.task task) .running loc, p, form, ?_, by rw [hloop.1, hloop.2]; exact unparked,
    marks, spans.mono same.ext, ?_⟩
  · refine sys.sameHosts same (rests_move (by simp))
      (fun g => spares _ (by simp) (by simp) (by simp)) ?_ (by rw [hloop.1, hloop.2]; exact size)
      (by rw [hw]; exact sys.ending)
    rw [hloop.1]
    refine (holds _ sys.loop).1.imp fun t c e h => h.spared (spares _ ?_ (by simp) (by simp))
    intro ht
    rw [Host.task.inj ht, unparked] at e
    contradiction
  · have h := hosted.woken (hosted_nil idle) (by simp)
    rw [List.append_nil] at h
    exact h.spared (same.spares ..)

end Ready

end ScopeExit.Script
