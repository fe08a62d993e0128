import ScopeExit.Proofs.Script.Whereabouts
/-!
Where code is.

The code of a body is at one place at a time: it runs, or it is parked with a task, or its generator is
suspended.  What tells the places apart are the tokens on a stack, the ends of bodies and of the steps of
generators.  No token is at two places, and the step of a generator is only on a stack while the generator
runs.
-/
namespace ScopeExit.Script

open World Stack

/-! ### Places of tokens -/

/-- The tokens on a stack. -/
def Stack.tokens (stack : Stack) : List Token := stack.filterMap Frame.token?

/-- The code that a generator goes on with: what it has suspended, or the end of the body that it has not
entered yet. -/
def World.resting? (w : World) (g : Nat) : Option Stack :=
  match w.generator g with
  | .suspended code => some code
  | .fresh _ _ a => some [.activationEnd a]
  | _ => none

section Places

variable (loc : Token → Host)

/-- The tokens of some code are where the code is, and each of them is there once. -/
structure Stack.Placed (host : Host) (code : Stack) : Prop where
  nodup : code.tokens.Nodup
  located : ∀ t ∈ code.tokens, loc t = host

/-- The code that does not run has its tokens in its place, and the token of a step is on a stack only
while its generator runs. -/
structure World.Placed (w : World) : Prop where
  bodies : ∀ a, loc (.body a) ≠ .nowhere → a < w.activations.size
  steps : ∀ g, loc (.step g) ≠ .nowhere → w.generator g = .running
  resting : ∀ g code, w.resting? g = some code → code.Placed loc (.generator g)
  parked : ∀ t code, (w.loop.promise t).parked? = some code → code.Placed loc (.task t)

end Places

/-- Every token is at one place at most. -/
def Running.Placed (s : Running) : Prop :=
  ∃ loc : Token → Host, s.world.Placed loc ∧ s.stack.Placed loc .running

section Moving

variable {loc : Token → Host} {w w' : World} {stack stack' code upper rest : Stack} {host : Host}

@[simp] theorem tokens_append (upper stack : Stack) :
    Stack.tokens (upper ++ stack) = upper.tokens ++ stack.tokens := List.filterMap_append

theorem tokens_cons_none {f : Frame} (h : f.token? = none) (stack : Stack) :
    Stack.tokens (f :: stack) = stack.tokens := List.filterMap_cons_none h

theorem tokens_eq_nil (h : ∀ f ∈ upper, f.token? = none) : upper.tokens = [] :=
  List.filterMap_eq_nil_iff.mpr h

theorem tokens_suffix (h : rest <:+ stack) : rest.tokens.Sublist stack.tokens :=
  h.sublist.filterMap _

theorem Stack.Placed.sublist (h : stack.Placed loc host) (sub : stack'.tokens.Sublist stack.tokens) :
    stack'.Placed loc host := ⟨h.nodup.sublist sub, fun t ht => h.located t (sub.subset ht)⟩

/-- Where no token of some code is touched, the code keeps its place. -/
theorem Stack.Placed.congr {loc' : Token → Host} (h : code.Placed loc host)
    (same : ∀ t ∈ code.tokens, loc' t = loc t) : code.Placed loc' host :=
  ⟨h.nodup, fun t ht => (same t ht).trans (h.located t ht)⟩

/-- Code without tokens may be anywhere. -/
theorem placed_nil (h : code.tokens = []) : code.Placed loc host := by
  constructor <;> simp [h]

theorem World.Placed.mono (h : w.Placed loc) (count : w.activations.size ≤ w'.activations.size)
    (generators : w'.generators = w.generators)
    (parked : ∀ t code, (w'.loop.promise t).parked? = some code →
      (w.loop.promise t).parked? = some code ∨ code.tokens = []) : w'.Placed loc where
  bodies a ha := Nat.lt_of_lt_of_le (h.bodies a ha) count
  steps g hg := by
    rw [World.generator, generators]
    exact h.steps g hg
  resting g code e := by
    rw [World.resting?, World.generator, generators] at e
    exact h.resting g code e
  parked t code e := (parked t code e).elim (h.parked t code) placed_nil

/-- Tasks that sleep have no tokens. -/
theorem Naps.tokens (naps : Naps w w') {t : Nat} (e : (w'.loop.promise t).parked? = some code) :
    (w.loop.promise t).parked? = some code ∨ code.tokens = [] := by
  by_cases h : ∃ seconds p, code = [.nap seconds, .taskEnd p]
  · obtain ⟨seconds, p, rfl⟩ := h
    exact .inr rfl
  · exact .inl (naps.parked_before (fun seconds p e => h ⟨seconds, p, e⟩) e)

/-- Some tokens are at another place now. -/
def Token.moved (loc : Token → Host) (tokens : List Token) (host : Host) : Token → Host :=
  fun t => if t ∈ tokens then host else loc t

theorem moved_mem {tokens : List Token} {t : Token} (h : t ∈ tokens) :
    Token.moved loc tokens host t = host := if_pos h

theorem moved_of_not_mem {tokens : List Token} {t : Token} (h : t ∉ tokens) :
    Token.moved loc tokens host t = loc t := if_neg h

/-- Code is not affected by what moves from elsewhere. -/
theorem Stack.Placed.beside {tokens : List Token} {host' : Host} (h : code.Placed loc host)
    (other : ∀ t ∈ tokens, loc t ≠ host) : code.Placed (Token.moved loc tokens host') host :=
  h.congr fun t ht => moved_of_not_mem fun moves => other t moves (h.located t ht)

/-- Code has moved as a whole. -/
theorem Stack.Placed.move (h : code.Placed loc host) (host' : Host) :
    code.Placed (Token.moved loc code.tokens host') host' :=
  ⟨h.nodup, fun _ ht => moved_mem ht⟩

/-- Tokens that are somewhere have moved, and nothing else has happened to the world. -/
theorem World.Placed.move (h : w.Placed loc) {tokens : List Token} (host : Host)
    (there : ∀ t ∈ tokens, loc t ≠ .nowhere) (count : w.activations.size ≤ w'.activations.size)
    (generators : w'.generators = w.generators)
    (resting : ∀ g code, w'.resting? g = some code → code.Placed (Token.moved loc tokens host) (.generator g))
    (parked : ∀ t code, (w'.loop.promise t).parked? = some code →
      code.Placed (Token.moved loc tokens host) (.task t)) : w'.Placed (Token.moved loc tokens host) where
  bodies a ha := by
    refine Nat.lt_of_lt_of_le (h.bodies a fun none => ?_) count
    by_cases moves : .body a ∈ tokens
    · exact there _ moves none
    · rw [moved_of_not_mem moves] at ha
      exact ha none
  steps g hg := by
    rw [World.generator, generators]
    refine h.steps g fun none => ?_
    by_cases moves : .step g ∈ tokens
    · exact there _ moves none
    · rw [moved_of_not_mem moves] at hg
      exact hg none
  resting := resting
  parked := parked

/-- The end of a body of an activation that has come to be. -/
theorem World.Placed.enlarge (h : w.Placed loc) (count : w'.activations.size = w.activations.size + 1)
    (host : Host) (steps : ∀ g, w.generator g = .running → w'.generator g = .running)
    (resting : ∀ g code, w'.resting? g = some code →
      w.resting? g = some code ∨ code = [.activationEnd w.activations.size] ∧ host = .generator g)
    (parked : ∀ t code, (w'.loop.promise t).parked? = some code →
      (w.loop.promise t).parked? = some code ∨ code.tokens = []) :
    w'.Placed (Token.moved loc [.body w.activations.size] host) := by
  have new : ∀ {code : Stack} {host' : Host}, host' ≠ .nowhere → code.Placed loc host' →
      code.Placed (Token.moved loc [.body w.activations.size] host) host' := by
    intro code host' there placed
    refine placed.beside fun t ht e => ?_
    obtain rfl := List.mem_singleton.mp ht
    exact Nat.lt_irrefl _ (h.bodies _ (e ▸ there))
  refine ⟨fun a ha => ?_, fun g hg => ?_, fun g code e => ?_, fun t code e => ?_⟩
  · by_cases own : a = w.activations.size
    · omega
    · rw [moved_of_not_mem (by simpa using own)] at ha
      have := h.bodies a ha
      omega
  · rw [moved_of_not_mem (by simp)] at hg
    exact steps g (h.steps g hg)
  · rcases resting g code e with old | ⟨rfl, rfl⟩
    · exact new (by simp) (h.resting g code old)
    · refine ⟨by simp [Stack.tokens, Frame.token?], fun t ht => moved_mem ?_⟩
      simpa [Stack.tokens, Frame.token?] using ht
  · exact (parked t code e).elim (fun old => new (by simp) (h.parked t code old)) placed_nil

theorem generator_setGenerator_self {g : Nat} (state : GeneratorState) (h : w.generator g ≠ .done) :
    (w.setGenerator g state).generator g = state := by
  have inside : g < w.generators.size := by
    by_contra outside
    exact h (by rw [World.generator, Array.getD_eq_getD_getElem?,
      Array.getElem?_eq_none (Nat.le_of_not_lt outside)]; rfl)
  simp [World.generator, World.setGenerator, Array.getD_eq_getD_getElem?, inside]

theorem generator_setGenerator_of_ne {g g' : Nat} (state : GeneratorState) (h : g' ≠ g) :
    (w.setGenerator g state).generator g' = w.generator g' :=
  ((generator_setGenerator w g state g').resolve_left fun own => h own.1).2

theorem World.resting?_congr {g : Nat} (h : w'.generator g = w.generator g) : w'.resting? g = w.resting? g := by
  rw [World.resting?, h, World.resting?]

/-- A generator that rests has code, and does not run. -/
theorem World.awake_of_resting {g : Nat} (h : w.resting? g = some code) :
    w.generator g ≠ .done ∧ w.generator g ≠ .running := by
  constructor <;> intro e <;> simp [World.resting?, e] at h

/-- A generator goes on above its boundary. -/
theorem World.Placed.wake (h : w.Placed loc) (hs : stack.Placed loc .running) {g : Nat}
    (rests : w.resting? g = some code) : ∃ loc', (w.setGenerator g .running).Placed loc' ∧
      Stack.Placed loc' .running (code ++ .generatorBoundary g :: stack) := by
  obtain ⟨alive, still⟩ := World.awake_of_resting rests
  have own := h.resting g code rests
  have unused : loc (.step g) = .nowhere := by_contra fun there => still (h.steps g there)
  have moves : ∀ t ∈ .step g :: code.tokens, loc t = .nowhere ∨ loc t = .generator g := fun t ht =>
    (List.mem_cons.mp ht).imp (fun e => (congrArg loc e).trans unused) (own.located t)
  have stays : ∀ {code' : Stack} {host : Host}, host ≠ .nowhere → host ≠ .generator g →
      code'.Placed loc host → code'.Placed (Token.moved loc (.step g :: code.tokens) .running) host := by
    intro code' host there other placed
    exact placed.beside fun t ht e => (moves t ht).elim (fun none => there (e.symm.trans none))
      fun rests => other (e.symm.trans rests)
  refine ⟨Token.moved loc (.step g :: code.tokens) .running, ⟨fun a ha => ?_, fun g' hg => ?_,
    fun g' code' e => ?_, fun t code' e => stays (by simp) (by simp) (h.parked t code' e)⟩, ?_, ?_⟩
  · refine h.bodies a fun none => ?_
    by_cases moving : .body a ∈ Token.step g :: code.tokens
    · have := own.located _ ((List.mem_cons.mp moving).resolve_left (by simp))
      simp [none] at this
    · rw [moved_of_not_mem moving] at ha
      exact ha none
  · by_cases same : g' = g
    · rw [same]
      exact generator_setGenerator_self _ alive
    · rw [generator_setGenerator_of_ne _ same]
      refine h.steps g' fun none => ?_
      by_cases moving : .step g' ∈ Token.step g :: code.tokens
      · have := own.located _ ((List.mem_cons.mp moving).resolve_left (by simpa using same))
        simp [none] at this
      · rw [moved_of_not_mem moving] at hg
        exact hg none
  · by_cases same : g' = g
    · rw [same] at e
      exact absurd (generator_setGenerator_self _ alive) (World.awake_of_resting e).2
    · rw [World.resting?_congr (generator_setGenerator_of_ne _ same)] at e
      exact stays (by simp) (by simpa using same) (h.resting g' code' e)
  · have fresh : ∀ {host : Host} {code' : Stack}, host ≠ .nowhere → code'.Placed loc host →
        .step g ∉ code'.tokens := fun there placed mem => there ((placed.located _ mem).symm.trans unused)
    rw [tokens_append, show Stack.tokens (.generatorBoundary g :: stack) = .step g :: stack.tokens from rfl]
    refine List.nodup_append.mpr ⟨own.nodup, List.nodup_cons.mpr ⟨fresh (by simp) hs, hs.nodup⟩, ?_⟩
    intro t ht t' ht' e
    subst e
    rcases List.mem_cons.mp ht' with rfl | ht'
    · exact fresh (by simp) own ht
    · cases (own.located t ht).symm.trans (hs.located t ht')
  · intro t ht
    rw [tokens_append, show Stack.tokens (.generatorBoundary g :: stack) = .step g :: stack.tokens from rfl] at ht
    by_cases moving : t ∈ Token.step g :: code.tokens
    · exact moved_mem moving
    · rw [moved_of_not_mem moving]
      simp only [List.mem_append, List.mem_cons, not_or] at ht moving
      exact hs.located t ((ht.resolve_left moving.2).resolve_left moving.1)

/-- The step of a generator ends: the generator rests, with the code above the boundary or with none. -/
theorem World.Placed.pause (h : w.Placed loc) {g : Nat}
    (hs : Stack.Placed loc .running (code ++ .generatorBoundary g :: rest)) {state : GeneratorState}
    (rests : state = .done ∨ state = .suspended code) :
    ∃ loc', (w.setGenerator g state).Placed loc' ∧ rest.Placed loc' .running := by
  have tokens : Stack.tokens (code ++ .generatorBoundary g :: rest) = code.tokens ++ .step g :: rest.tokens :=
    tokens_append ..
  obtain ⟨nodup, located⟩ := hs
  rw [tokens] at nodup located
  obtain ⟨hcode, hrest, disjoint⟩ := List.nodup_append.mp nodup
  obtain ⟨own, hrest⟩ := List.nodup_cons.mp hrest
  have running : ∀ t ∈ .step g :: code.tokens, loc t = .running := fun t ht =>
    located t (by simp only [List.mem_cons, List.mem_append] at ht ⊢; exact ht.elim (.inr ∘ .inl) .inl)
  have alive : w.generator g ≠ .done := by
    rw [h.steps g (by simp [running])]
    simp
  obtain ⟨loc', hloc⟩ : ∃ loc' : Token → Host, loc' = fun t =>
    if t = .step g then .nowhere else Token.moved loc code.tokens (.generator g) t := ⟨_, rfl⟩
  have stays : ∀ t, t ∉ Token.step g :: code.tokens → loc' t = loc t := by
    intro t ht
    rw [List.mem_cons, not_or] at ht
    rw [hloc]
    exact (if_neg ht.1).trans (moved_of_not_mem ht.2)
  have others : ∀ {code' : Stack} {host : Host}, host ≠ .running → code'.Placed loc host →
      code'.Placed loc' host := by
    intro code' host other placed
    exact placed.congr fun t ht => stays t fun moves =>
      other ((placed.located t ht).symm.trans (running t moves))
  have suspended : code.Placed loc' (.generator g) := by
    refine ⟨hcode, fun t ht => ?_⟩
    rw [hloc]
    refine (if_neg ?_).trans (moved_mem ht)
    rintro rfl
    exact disjoint _ ht _ (List.mem_cons_self ..) rfl
  refine ⟨loc', ⟨fun a ha => ?_, fun g' hg => ?_, fun g' code' e => ?_, fun t code' e =>
    others (by simp) (h.parked t code' e)⟩, hrest, fun t ht => ?_⟩
  · refine h.bodies a fun none => ?_
    by_cases moving : .body a ∈ Token.step g :: code.tokens
    · simp [running _ moving] at none
    · exact ha ((stays _ moving).trans none)
  · have other : g' ≠ g := by
      rintro rfl
      exact hg (by rw [hloc]; exact if_pos rfl)
    rw [generator_setGenerator_of_ne _ other]
    refine h.steps g' fun none => ?_
    by_cases moving : .step g' ∈ Token.step g :: code.tokens
    · simp [running _ moving] at none
    · exact hg ((stays _ moving).trans none)
  · by_cases same : g' = g
    · subst same
      rw [World.resting?, generator_setGenerator_self _ alive] at e
      rcases rests with rfl | rfl
      · cases e
      · exact Option.some.inj e ▸ suspended
    · rw [World.resting?_congr (generator_setGenerator_of_ne _ same)] at e
      exact others (by simp) (h.resting g' code' e)
  · refine (stays t fun moves => ?_).trans (located t (by simp [ht]))
    rcases List.mem_cons.mp moves with rfl | moves
    · exact own ht
    · exact disjoint t moves t (List.mem_cons_of_mem _ ht) rfl

/-- A generator that has not run closes. -/
theorem World.Placed.close (h : w.Placed loc) {g : Nat} (still : w.generator g ≠ .running) :
    (w.setGenerator g .done).Placed loc where
  bodies := h.bodies
  steps g' hg := by
    by_cases same : g' = g
    · exact absurd (h.steps g (same ▸ hg)) still
    · rw [generator_setGenerator_of_ne _ same]
      exact h.steps g' hg
  resting g' code e := by
    rcases generator_setGenerator w g .done g' with ⟨-, done | done⟩ | ⟨-, old⟩
    · simp [World.resting?, done] at e
    · simp [World.resting?, done] at e
    · exact h.resting g' code ((World.resting?_congr old).symm.trans e)
  parked := h.parked

end Moving

/-! ### Steps and tokens -/

section Steps

variable {program : Node} {loc : Token → Host} {w w' : World} {stack : Stack} {s s' : Running}

/-- All code with tokens that is parked in one world is parked in another one. -/
def World.ParkedIn (w w' : World) : Prop :=
  ∀ t code, (w'.loop.promise t).parked? = some code →
    (w.loop.promise t).parked? = some code ∨ code.tokens = []

theorem Running.Stays.placed (h : s.Stays program w stack) (parked : w.ParkedIn s.world)
    (hw : w.Placed loc) (hs : stack.Placed loc .running) : s.Placed := by
  obtain ⟨upper, e, plain⟩ := h.grows
  refine ⟨loc, hw.mono (Nat.le_of_eq h.confined.count.symm) h.confined.generators parked, hs.sublist ?_⟩
  rw [e, tokens_append, tokens_eq_nil plain, List.nil_append]

theorem placed_resume (hw : w.Placed loc) (hs : stack.Placed loc .running) (settled : w.Settled program)
    (g : Nat) (mode : ResumeMode) (v : Value) (parked : w.ParkedIn (w.resume stack g mode v).world) :
    (w.resume stack g mode v).Placed := by
  have finished : ∀ {w' : World}, w'.Placed loc → (resume.finished stack mode v w').Placed := by
    intro w' hw
    cases mode <;> exact ⟨loc, hw, hs⟩
  have closes : w.generator g ≠ .running → (w.setGenerator g .done).Placed loc := hw.close
  unfold World.resume at parked ⊢
  split
  · exact ⟨loc, hw, hs⟩
  · exact finished hw
  · rename_i closure arguments a e
    have rests : w.resting? g = some [.activationEnd a] := by rw [World.resting?, e]
    split
    · rename_i starts
      simp only [e, if_pos starts] at parked
      obtain ⟨loc', hw', hs'⟩ := hw.wake hs rests
      have running : (w.setGenerator g .running).Settled program := settled.setGenerator g fun _ e => by cases e
      have started := stays_startBody _ (.generatorBoundary g :: stack) running closure a arguments
      exact started.placed parked hw' hs'
    · exact finished (closes (by rw [e]; simp))
  · rename_i code e
    have rests : w.resting? g = some code := by rw [World.resting?, e]
    have goesOn := hw.wake hs rests
    cases mode with
    | next | «return» => exact goesOn
    | throw =>
      simp only
      split
      · exact goesOn
      · exact ⟨loc, closes (by rw [e]; simp), hs⟩

theorem Running.Confines.placed (h : s.Confines program w stack) (parked : w.ParkedIn s.world)
    (hw : w.Placed loc) (hs : stack.Placed loc .running) (settled : w.Settled program) : s.Placed := by
  have unused : loc (.body w.activations.size) = .nowhere :=
    by_contra fun there => Nat.lt_irrefl _ (hw.bodies _ there)
  have beside : ∀ host, stack.Placed (Token.moved loc [.body w.activations.size] host) .running := by
    intro host
    refine hs.beside fun t ht e => ?_
    rw [List.mem_singleton.mp ht, unused] at e
    cases e
  cases h with
  | stays h => exact h.placed parked hw hs
  | @calls w' s upper entered tops h =>
    have generators : s.world.generators = w.generators := h.confined.generators.trans entered.generators
    have same : ∀ g, s.world.generator g = w.generator g := fun g => by
      rw [World.generator, generators, World.generator]
    obtain ⟨above, e, plain⟩ := h.grows
    refine ⟨Token.moved loc [.body w.activations.size] .running,
      hw.enlarge (h.confined.count.trans entered.count) .running (fun g e => (same g).trans e)
        (fun g code e => .inl (by rwa [World.resting?_congr (same g)] at e)) parked, ?_⟩
    have hstack : s.stack.tokens = .body w.activations.size :: stack.tokens := by
      rw [e, tokens_append, tokens_eq_nil plain, List.nil_append]
      show Token.body _ :: Stack.tokens (upper ++ stack) = _
      rw [tokens_append, tokens_eq_nil tops.plain, List.nil_append]
    constructor
    · rw [hstack]
      refine List.nodup_cons.mpr ⟨fun mem => ?_, hs.nodup⟩
      cases (hs.located _ mem).symm.trans unused
    · rw [hstack]
      refine List.forall_mem_cons.mpr ⟨moved_mem (List.mem_singleton_self _), (beside _).located⟩
  | @makes w' closure arguments v heap upper entered closures tops =>
    refine ⟨Token.moved loc [.body w.activations.size] (.generator w'.generators.size),
      hw.enlarge ?_ _ (fun g e => ?_) (fun g code e => ?_) parked, ?_⟩
    · exact entered.count
    · rw [World.generator, ← entered.generators] at e
      simp only [World.generator, Array.getD_eq_getD_getElem?, Array.getElem?_push] at e ⊢
      split
      · rename_i new
        rw [new, Array.getElem?_eq_none (Nat.le_refl _)] at e
        cases e
      · exact e
    · by_cases new : g = w'.generators.size
      · subst new
        refine .inr ⟨?_, rfl⟩
        simp only [World.resting?, World.generator, Array.getD_eq_getD_getElem?, Array.getElem?_push_size,
          Option.getD_some] at e
        exact (Option.some.inj e).symm
      · refine .inl ?_
        rw [World.resting?, World.generator, ← entered.generators]
        simpa [World.resting?, World.generator, Array.getD_eq_getD_getElem?, Array.getElem?_push, new] using e
    · refine (beside _).sublist ?_
      rw [tokens_append, tokens_eq_nil tops.plain, List.nil_append]
  | @resumes w' upper g mode v touches tops =>
    have loop := touches.minor.loop
    refine placed_resume (hw.mono ?_ touches.minor.generators fun t code e => .inl ?_) (hs.sublist ?_)
      (touches.settled settled) g mode v fun t code e => ?_
    · exact Nat.le_of_eq (congrArg Array.size touches.minor.activations.symm)
    · rwa [loop] at e
    · rw [tokens_append, tokens_eq_nil tops.plain, List.nil_append]
    · rw [loop]
      exact parked t code e

/-- Nothing changes that has to do with tokens, and some of the stack is left. -/
theorem World.Placed.drop (hw : w.Placed loc) (hs : stack.Placed loc .running)
    (count : w'.activations = w.activations) (generators : w'.generators = w.generators)
    (parked : w.ParkedIn w') {rest : Stack} (below : rest.tokens.Sublist stack.tokens) (c : Control) :
    Running.Placed ⟨w', c, rest⟩ :=
  ⟨loc, hw.mono (Nat.le_of_eq (congrArg Array.size count.symm)) generators parked, hs.sublist below⟩

/-- No code is left on the stack. -/
theorem World.Placed.idle (hw : w.Placed loc) (count : w'.activations = w.activations)
    (generators : w'.generators = w.generators) (parked : w.ParkedIn w') :
    Running.Placed ⟨w', .parked, []⟩ :=
  ⟨loc, hw.mono (Nat.le_of_eq (congrArg Array.size count.symm)) generators parked, placed_nil rfl⟩

/-- The code that runs is put down with its task. -/
theorem World.Placed.park (hw : w.Placed loc) (hs : stack.Placed loc .running) {t : Nat} {code : Stack}
    (tokens : code.tokens = stack.tokens) (activations : w'.activations = w.activations)
    (generators : w'.generators = w.generators) (parks : w.loop.Parks t code w'.loop) :
    Running.Placed ⟨w', .parked, []⟩ := by
  have others : ∀ {code : Stack} {host : Host}, host ≠ .running → code.Placed loc host →
      code.Placed (Token.moved loc stack.tokens (.task t)) host := fun other placed =>
    placed.beside fun t ht e => other (e.symm.trans (hs.located t ht))
  refine ⟨Token.moved loc stack.tokens (.task t), hw.move _ (fun t ht => ?_)
    (Nat.le_of_eq (congrArg Array.size activations.symm)) generators (fun g code' e => ?_)
    fun u code' e => ?_, placed_nil rfl⟩
  · rw [hs.located t ht]
    simp
  · refine others (by simp) (hw.resting g code' ?_)
    rwa [World.resting?, World.generator, generators] at e
  · rw [parks.parked] at e
    split at e
    · rename_i own
      rw [← Option.some.inj e, own]
      exact (hs.move (.task t)).sublist (tokens ▸ List.Sublist.refl _)
    · exact others (by simp) (hw.parked u code' e)

theorem placed_served [Node.MainRule] {request : Request} (h : Served w stack request s) (hk : w.Kept)
    (belongs : request.Belongs program stack.setting)
    (inside : w.current < w.loop.promises.size) (hw : w.Placed loc) (hs : stack.Placed loc .running) :
    s.Placed := by
  have tokens : Stack.tokens (.settling :: stack) = stack.tokens := tokens_cons_none rfl stack
  have settling : Stack.Placed loc .running (.settling :: stack) := hs.sublist (tokens ▸ List.Sublist.refl _)
  cases h with
  | settled =>
    refine hw.drop settling (by rfl) (by rfl) (fun t code e => ?_) (.refl _) _
    exact .inl e
  | waits => exact hw.park hs tokens rfl rfl (Loop.parks_park inside _)
  | own | turn => exact hw.park hs tokens rfl rfl (Loop.parks_giveWay inside _)
  | drain a handle reason =>
    have naps := (follows_drain w (.settling :: stack) a handle .async reason hk).evolves.naps
    exact (stays_drain w (.settling :: stack) belongs.1 handle .async belongs.2).placed
      (fun t code e => naps.tokens e) hw settling
  | refused => exact hw.drop hs rfl rfl (fun _ _ => .inl) (tokens_suffix (belowDrive_suffix stack)) _

/-- **Main result.**  After a step every token is at one place at most, if it was before. -/
theorem Running.Placed.step [Node.MainRule] (placed : s.Placed) (settled : s.Settled program)
    (orderly : s.Orderly) (tended : s.Tended) (next : s.step = .next s') : s'.Placed := by
  obtain ⟨loc, hw, hs⟩ := placed
  have hworld := settled.world
  have same : ∀ {w' : World}, w'.loop = s.world.loop → s.world.ParkedIn w' :=
    fun loop t code e => .inl (by rwa [loop] at e)
  have tail : ∀ {f : Frame} {stack : Stack}, s.stack = f :: stack → stack.tokens.Sublist s.stack.tokens :=
    fun e => tokens_suffix (e ▸ List.suffix_cons ..)
  have below : ∀ {b : Frame} {rest : Stack}, s.stack.fromBoundary = b :: rest →
      rest.tokens.Sublist s.stack.tokens := fun e => tokens_suffix (suffix_of_boundary e)
  have inside : s.stack ≠ [] → s.world.current < s.world.loop.promises.size := fun full =>
    tended.world.inside (tended.running full).owns
  have cut : ∀ {b : Frame} {rest : Stack}, s.stack.fromBoundary = b :: rest →
      (s.stack.segment ++ b :: rest).Placed loc .running := fun e => by
    rw [← e, s.stack.segment_append_fromBoundary]
    exact hs
  cases orderly.moves next with
  | code isCode h =>
    exact (confines_code isCode settled next).placed (fun t code e => h.evolves.naps.tokens e) hw hs hworld
  | frame outcome plain h =>
    rcases confines_frame outcome plain settled next with confines | ⟨failure, -, -, -, rfl⟩
    · exact confines.placed (fun t code e => h.evolves.naps.tokens e) hw (hs.sublist (tail rfl)) hworld
    · exact hw.drop hs rfl rfl (same rfl) ((tokens_suffix (belowDrive_suffix _)).trans (tail rfl)) _
  | pass | callEnd => exact hw.drop hs (by rfl) (by rfl) (same (by rfl)) (tail rfl) _
  | settled =>
    refine hw.drop hs (by rfl) (by rfl) (fun t code e => .inl ?_) (tail rfl) _
    exact (Loop.parked_add e).elim id fun e => by cases e
  | @stepEnd w c c' g stack outcome =>
    have whole : Stack.Placed loc .running ([] ++ .generatorBoundary g :: stack) := hs
    obtain ⟨loc', hw', hs'⟩ := hw.pause whole (.inl rfl)
    exact ⟨loc', hw', hs'⟩
  | start h =>
    exact placed_served h orderly.kept settled.stack.1 (inside (List.cons_ne_nil _ _)) hw
      (hs.sublist (tail rfl))
  | abandon => exact hw.drop hs rfl rfl (same rfl) ((tokens_suffix (belowDrive_suffix _)).trans (tail rfl)) _
  | refuse boundary => exact hw.drop hs rfl rfl (same rfl) (below boundary) _
  | refuseStep boundary =>
    obtain ⟨loc', hw', hs'⟩ := hw.pause (cut boundary) (.inl rfl)
    exact ⟨loc', hw', hs'⟩
  | yield boundary =>
    obtain ⟨loc', hw', hs'⟩ := hw.pause (cut boundary) (.inr rfl)
    exact ⟨loc', hw', hs'⟩
  | @spawn w request stack rest boundary =>
    have whole := cut boundary
    have taken : stack.segment.Placed loc .running :=
      whole.sublist (tokens_append .. ▸ List.sublist_append_left ..)
    have others : ∀ {code : Stack} {host : Host}, host ≠ .running → code.Placed loc host →
        code.Placed (Token.moved loc stack.segment.tokens (.task w.loop.promises.size)) host :=
      fun other placed => placed.beside fun t ht e => other (e.symm.trans (taken.located t ht))
    refine ⟨Token.moved loc stack.segment.tokens (.task w.loop.promises.size),
      hw.move _ (fun t ht => ?_) (Nat.le_refl _) rfl (fun g code e => others (by simp) (hw.resting g code e))
      fun t code e => ?_, ?_⟩
    · rw [taken.located t ht]
      simp
    · replace e := (congrArg Promise.parked? ((Loop.adds_spawn _).promise t)).symm.trans e
      split at e
      · rename_i new
        obtain rfl := Option.some.inj e
        rw [new]
        refine (taken.move _).sublist ?_
        show (Stack.tokens (.taskStart request :: (stack.segment ++ _))).Sublist _
        rw [tokens_cons_none rfl, tokens_append]
        exact (List.append_nil _).symm ▸ .refl _
      · exact others (by simp) (hw.parked t code e)
    · have parts := whole.nodup
      rw [tokens_append] at parts
      refine (hs.sublist (below boundary)).congr fun t ht => moved_of_not_mem fun ht' => ?_
      exact (List.nodup_append.mp parts).2.2 t ht' t ht rfl
  | serve boundary h =>
    exact placed_served h orderly.kept settled.control (inside (orderly.isOpen rfl).ne_nil) hw hs
  | @nap w v seconds stack =>
    exact hw.park (hs.sublist (tail rfl)) rfl rfl rfl (Loop.parks_rest (inside (List.cons_ne_nil _ _)) seconds)
  | taskEnd =>
    refine hw.idle (by rfl) (by rfl) fun t code e => .inl ?_
    rwa [← Loop.parked_settle]
  | programEnd => exact hw.idle (by rfl) (by rfl) (same (by rfl))
  | @resume w c stack code task o loop idle h =>
    have resumes := Loop.resumes_next h
    have woken := hw.parked task code resumes.code
    have others : ∀ {code' : Stack} {host : Host}, host ≠ .task task → code'.Placed loc host →
        code'.Placed (Token.moved loc code.tokens .running) host := fun other placed =>
      placed.beside fun t ht e => other (e.symm.trans (woken.located t ht))
    refine ⟨Token.moved loc code.tokens .running, hw.move _ (fun t ht => ?_) (Nat.le_refl _) rfl
      (fun g code e => others (by simp) (hw.resting g code e)) fun t code' e => ?_, woken.move _⟩
    · rw [woken.located t ht]
      simp
    · rw [resumes.parked] at e
      split at e
      · cases e
      · rename_i other
        exact others (by simpa using other) (hw.parked t code' e)
  | internal idle h =>
    refine hw.idle (by rfl) (by rfl) fun t code e => .inl ?_
    rwa [← Loop.parked_internal h]

end Steps

section Runs

variable {config : Config} {program : Node}

/-- At the start all there is is the module. -/
theorem placed_start (config : Config) (program : Node) : (Running.start config program).Placed := by
  let _ : Node.MainRule := .any
  obtain ⟨w, hw, count, generators, stays⟩ := start_stays config program
  obtain ⟨w₀, blank, follows⟩ := follows_start config program fun _ _ => trivial
  have parked : ∀ t code, ((Running.start config program).world.loop.promise t).parked? = some code →
      code.tokens = [] := by
    intro t code e
    refine (follows.evolves.naps.tokens e).resolve_left fun old => ?_
    rw [blank.promise] at old
    cases old
  obtain ⟨upper, e, plain⟩ := stays.grows
  have hgenerators : (Running.start config program).world.generators = #[] :=
    stays.confined.generators.trans generators
  refine ⟨Token.moved (fun _ => .nowhere) [.body 0] .running, ⟨fun a ha => ?_, fun g hg => ?_,
    fun g code e => ?_, fun t code e => placed_nil (parked t code e)⟩, ?_⟩
  · rw [stays.confined.count, count]
    by_cases main : a = 0
    · omega
    · exact absurd (moved_of_not_mem (by simpa using main)) ha
  · exact absurd (moved_of_not_mem (by simp)) hg
  · simp [World.resting?, World.generator, hgenerators] at e
  · rw [e]
    have tokens : Stack.tokens (upper ++ [.activationEnd 0, .asyncDrive, .programEnd]) = [.body 0] := by
      rw [tokens_append, tokens_eq_nil plain]
      rfl
    exact ⟨by rw [tokens]; simp, fun t ht => moved_mem (tokens ▸ ht)⟩

/-- **Main result.**  In every state of every run, of whatever program, every token is at one place at
most. -/
theorem Run.placed {L : Ledger} {s : Running} (run : Run config program L s) : s.Placed := by
  let _ : Node.MainRule := .any
  induction run with
  | start => exact placed_start config _
  | step before next ih =>
    obtain ⟨earlier, trace⟩ := before.trace
    obtain ⟨orderly, tended⟩ := trace.tended fun _ _ => trivial
    exact ih.step before.settled orderly tended next
  | @reorder L w stack loop before other ih =>
    obtain ⟨loc, hw, hs⟩ := ih
    refine hw.drop hs (by rfl) (by rfl) (fun t code e => .inl ?_) (.refl _) _
    rwa [Loop.promise, other.promises, ← Loop.promise] at e

end Runs

end ScopeExit.Script
