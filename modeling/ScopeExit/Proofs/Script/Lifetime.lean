import ScopeExit.Proofs.Script.Places
import ScopeExit.Proofs.Script.Resumption
/-!
The life of a generator.

A generator is made with an activation of its own, and the end of the body of that activation stands
nowhere but directly above the boundary of the generator.  So the body only runs in a step that somebody
has asked for, and all that happens to the generator happens in such a step: it is asked for one, it yields,
or it comes to its end.  While it does not run, nothing else reaches the frames of its activation.
-/
namespace ScopeExit.Script

open World Stack

/-! ### What may happen to a generator -/

/-- What a generator says that has no code to run. -/
inductive Control.Last (heap : Heap) (v : Value) : ResumeMode → Control → Prop
  | next : Last heap v .next (.resumed .undefined true)
  | return : Last heap v .return (.resumed v true)
  | throw {text : Text} (h : heap.describe v = .ok text) : Last heap v .throw (.raise (.single (.thrown v)))
  /-- A value that cannot be described is not thrown. -/
  | indescribable {failure : Failure} (h : heap.describe v = .error failure) :
      Last heap v .throw (.raise failure)

/-- What the code of a suspended generator is told. -/
def Control.told (v : Value) : ResumeMode → Control
  | .next => .value v
  | .return => .raise (.single (.forcedReturn v))
  | .throw => .raise (.single (.thrown v))

/-- How a generator takes the step that the code `caller` asks for in a world. -/
inductive World.Answers (w : World) (caller : Stack) (g a : Nat) (v : Value) : ResumeMode → Running → Prop
  /-- The first step starts the body. -/
  | starts {closure : Nat} {arguments : List Value} {s : Running} {upper : Stack}
      (fresh : w.generator g = .fresh closure arguments a) (runs : s.world.generator g = .running)
      (stack : s.stack = upper ++ .activationEnd a :: .generatorBoundary g :: caller) :
      Answers w caller g a v .next s
  /-- A generator that is closed before its first step runs no code. -/
  | closes {closure : Nat} {arguments : List Value} {mode : ResumeMode} {c : Control}
      (fresh : w.generator g = .fresh closure arguments a) (other : mode ≠ .next) (last : c.Last w.heap v mode) :
      Answers w caller g a v mode ⟨w.setGenerator g .done, c, caller⟩
  | goesOn {code : Stack} {mode : ResumeMode} (suspended : w.generator g = .suspended code)
      (told : mode = .throw → ∃ text, w.heap.describe v = .ok text) :
      Answers w caller g a v mode
        ⟨w.setGenerator g .running, .told v mode, code ++ .generatorBoundary g :: caller⟩
  /-- What cannot be described is not thrown into the code: the generator is given up. -/
  | strands {code : Stack} {failure : Failure} (suspended : w.generator g = .suspended code)
      (indescribable : w.heap.describe v = .error failure) :
      Answers w caller g a v .throw ⟨w.setGenerator g .done, .raise failure, caller⟩
  | finished {mode : ResumeMode} {c : Control} (done : w.generator g = .done) (last : c.Last w.heap v mode) :
      Answers w caller g a v mode ⟨w, c, caller⟩
  | busy {mode : ResumeMode} (running : w.generator g = .running) :
      Answers w caller g a v mode ⟨w, .raise (.typeError "Generator is already running"), caller⟩

/-- What a step of a run may be for a generator with an activation. -/
inductive Running.Lives (g a : Nat) (s : Running) : Running → Prop
  /-- The step is about something else.  If the generator does not run, neither do its frames and actions
  change. -/
  | apart {s' : Running} (state : s'.world.generator g = s.world.generator g)
      (frames : s.world.generator g ≠ .running → s'.world.registry a = s.world.registry a) : Lives g a s s'
  | asked {w : World} {caller : Stack} {mode : ResumeMode} {v : Value} {s' : Running}
      (asks : s.Asks w caller g mode v) (minor : Minor s.world w) (answers : w.Answers caller g a v mode s') :
      Lives g a s s'
  /-- The generator is suspended at a yield with the code above its boundary. -/
  | yields {code caller : Stack} {v : Value} (control : s.control = .suspend (.yield v))
      (stack : s.stack = code ++ .generatorBoundary g :: caller) :
      Lives g a s ⟨s.world.setGenerator g (.suspended code), .resumed v false, caller⟩
  | returns {caller : Stack} {v : Value} (control : s.control = .value v)
      (stack : s.stack = .generatorBoundary g :: caller) :
      Lives g a s ⟨s.world.setGenerator g .done, .resumed v true, caller⟩
  | fails {caller : Stack} {failure : Failure} (control : s.control = .raise failure)
      (stack : s.stack = .generatorBoundary g :: caller) :
      Lives g a s ⟨s.world.setGenerator g .done, .raise failure, caller⟩
  /-- A suspension that is no yield ends the generator. -/
  | refused {code caller : Stack} {request : Request} {failure : Failure} (control : s.control = .suspend request)
      (stack : s.stack = code ++ .generatorBoundary g :: caller) :
      Lives g a s ⟨s.world.setGenerator g .done, .raise failure, caller⟩

/-- Where the code of a generator with an activation may be. -/
structure Running.Houses (g a : Nat) (s : Running) : Prop where
  /-- Code that runs for the activation stands above the end of its body. -/
  code : s.control.needsCode = true → s.stack.setting.activation = a → .activationEnd a ∈ s.stack
  /-- The end of the body stands in the step of the generator only. -/
  inside : .activationEnd a ∈ s.stack →
    ∃ upper caller, s.stack = upper ++ .activationEnd a :: .generatorBoundary g :: caller
  running : .generatorBoundary g ∈ s.stack → s.world.generator g = .running
  once : s.stack.tokens.Nodup
  /-- The code of a generator that does not run is that of its body. -/
  resting : ∀ code, s.world.resting? g = some code → .activationEnd a ∈ code

/-! ### The end of the body -/

/-- In some code the end of the body of an activation, and nothing else, stands directly above the boundary
of a generator. -/
def Stack.Lodges (g a : Nat) : Stack → Prop
  | [] => True
  | f :: stack => (f = .activationEnd a ↔ stack.head? = some (.generatorBoundary g)) ∧ Lodges g a stack

/-- So it is wherever there is code, and of all code that rests only that of the generator is of the
activation. -/
structure World.Lodges (g a : Nat) (w : World) (stack : Stack) : Prop where
  born : g < w.generators.size
  known : a < w.activations.size
  stack : stack.Lodges g a
  parked : ∀ t code, (w.loop.promise t).parked? = some code → code.Lodges g a
  resting : ∀ g' code, w.resting? g' = some code → (.activationEnd a ∈ code ↔ g' = g)

section Lodging

variable {program : Node} {loc : Token → Host} {g a : Nat} {w w' : World} {f b : Frame} {s s' : Running}
  {stack stack' code upper rest : Stack}

theorem mem_tokens_body : .body a ∈ stack.tokens ↔ .activationEnd a ∈ stack := by
  rw [Stack.tokens, List.mem_filterMap]
  constructor
  · rintro ⟨f, hf, token⟩
    cases f <;> simp only [Frame.token?, Option.some.injEq, Token.body.injEq, reduceCtorEq] at token
    exact token ▸ hf
  · exact fun hf => ⟨_, hf, rfl⟩

theorem mem_tokens_step : .step g ∈ stack.tokens ↔ .generatorBoundary g ∈ stack := by
  rw [Stack.tokens, List.mem_filterMap]
  constructor
  · rintro ⟨f, hf, token⟩
    cases f <;> simp only [Frame.token?, Option.some.injEq, Token.step.injEq, reduceCtorEq] at token
    exact token ▸ hf
  · exact fun hf => ⟨_, hf, rfl⟩

theorem lodges_of_tokens (body : .body a ∉ stack.tokens) (step : .step g ∉ stack.tokens) :
    stack.Lodges g a := by
  rw [mem_tokens_body] at body
  rw [mem_tokens_step] at step
  induction stack with
  | nil => trivial
  | cons f stack ih =>
    rw [List.mem_cons, not_or] at body step
    refine ⟨⟨fun e => absurd e.symm body.1, fun e => absurd (List.mem_of_mem_head? e) step.2⟩, ih body.2 step.2⟩

theorem Stack.Lodges.suffix (h : stack.Lodges g a) (below : rest <:+ stack) : rest.Lodges g a := by
  obtain ⟨upper, rfl⟩ := below
  induction upper with
  | nil => exact h
  | cons f upper ih => exact ih h.2

/-- What is put on code is no end and no boundary. -/
theorem Stack.Lodges.under (h : stack.Lodges g a) (top : stack.head? ≠ some (.generatorBoundary g))
    (plain : ∀ f ∈ upper, f.token? = none) : Stack.Lodges g a (upper ++ stack) := by
  induction upper with
  | nil => exact h
  | cons f upper ih =>
    obtain ⟨hf, hupper⟩ := List.forall_mem_cons.mp plain
    refine ⟨⟨fun e => ?_, fun e => ?_⟩, ih hupper⟩
    · rw [e] at hf
      cases hf
    · cases upper with
      | nil => exact absurd e top
      | cons f' upper =>
        obtain rfl := Option.some.inj e
        cases hupper _ (List.mem_cons_self ..)

theorem Stack.Lodges.push (h : stack.Lodges g a) (top : stack.head? ≠ some (.generatorBoundary g))
    (token : f.token? = none) : Stack.Lodges g a (f :: stack) :=
  @Stack.Lodges.under g a stack [f] h top (List.forall_mem_singleton.mpr token)

theorem Stack.Lodges.inside (h : stack.Lodges g a) (mem : .activationEnd a ∈ stack) :
    ∃ upper caller, stack = upper ++ .activationEnd a :: .generatorBoundary g :: caller := by
  obtain ⟨upper, lower, rfl⟩ := List.append_of_mem mem
  obtain ⟨e, -⟩ := h.suffix (List.suffix_append ..)
  obtain ⟨caller, rfl⟩ := List.head?_eq_some_iff.mp (e.mp rfl)
  exact ⟨upper, caller, rfl⟩

theorem Frame.token?_of_plain (plain : f.isPlain = true) : f.token? = none := by
  cases f <;> first | contradiction | rfl

/-- Code that ends a body stands above what the body is of. -/
theorem IsSegment.lodges_iff (segment : IsSegment code) :
    Stack.Lodges g a (code ++ b :: rest) ↔
      (.activationEnd a ∈ code ↔ b = .generatorBoundary g) ∧ Stack.Lodges g a (b :: rest) := by
  obtain ⟨frames, a', rfl, plain⟩ := segment
  have tokens : ∀ f ∈ frames, f.token? = none := fun f hf => Frame.token?_of_plain (plain f hf)
  have mem : .activationEnd a ∈ frames ++ [.activationEnd a'] ↔ Frame.activationEnd a' = .activationEnd a := by
    rw [List.mem_append, List.mem_singleton, eq_comm (a := Frame.activationEnd a')]
    refine or_iff_right fun h => ?_
    cases tokens _ h
  rw [mem, List.append_assoc]
  have pair : (Frame.activationEnd a' = .activationEnd a ↔ b = .generatorBoundary g) ∧
      Stack.Lodges g a (b :: rest) ↔ Stack.Lodges g a (.activationEnd a' :: b :: rest) := by
    simp [Stack.Lodges]
  rw [pair]
  refine ⟨fun h => h.suffix (List.suffix_append ..), fun h => h.under (by simp) tokens⟩

theorem Stack.Open.not_boundary (h : Open stack) : stack.head? ≠ some (.generatorBoundary g) := by
  cases h with
  | frame plain =>
    intro e
    obtain rfl := Option.some.inj e
    cases plain
  | action hb => rcases hb with rfl | rfl <;> simp
  | _ => simp

theorem not_boundary_append (top : stack.head? ≠ some (.generatorBoundary g))
    (plain : ∀ f ∈ upper, f.token? = none) : (upper ++ stack).head? ≠ some (.generatorBoundary g) := by
  cases upper with
  | nil => exact top
  | cons f upper =>
    intro e
    obtain rfl := Option.some.inj e
    cases plain _ (List.mem_cons_self ..)

theorem IsSegment.not_boundary (segment : IsSegment code) (rest : Stack) :
    (code ++ rest).head? ≠ some (.generatorBoundary g) := by
  obtain ⟨frames, a, rfl, plain⟩ := segment
  rw [List.append_assoc]
  exact not_boundary_append (by simp) fun f hf => Frame.token?_of_plain (plain f hf)

/-- Code of an activation stands above the end of its body. -/
theorem Stack.Open.activationEnd_mem (h : Open stack) : .activationEnd stack.setting.activation ∈ stack := by
  induction h with
  | @frame f stack plain _ ih =>
    refine List.mem_cons_of_mem _ ?_
    rwa [show Stack.setting (f :: stack) = stack.setting.above f from rfl,
      Setting.activation_above _ (Frame.token?_of_plain plain)]
  | @action b a d stack hb _ ih =>
    rcases hb with rfl | rfl <;> exact List.mem_cons_of_mem _ (List.mem_cons_of_mem _ ih)
  | _ => exact List.mem_cons_self ..

/-! ### Lodging worlds -/

namespace World.Lodges

theorem mono (h : w.Lodges g a stack) (count : w.activations.size ≤ w'.activations.size)
    (generators : w'.generators = w.generators)
    (parked : ∀ t code, (w'.loop.promise t).parked? = some code →
      (w.loop.promise t).parked? = some code ∨ code.Lodges g a)
    (lodges : stack'.Lodges g a) : w'.Lodges g a stack' where
  born := Nat.lt_of_lt_of_eq h.born (congrArg Array.size generators.symm)
  known := Nat.lt_of_lt_of_le h.known count
  stack := lodges
  parked t code e := (parked t code e).elim (h.parked t code) id
  resting g' code e := by
    rw [World.resting?, World.generator, generators] at e
    exact h.resting g' code e

theorem lodges_of_blank (blank : code.tokens = []) : code.Lodges g a :=
  lodges_of_tokens (by simp [blank]) (by simp [blank])

/-- Only what is on the stack, or tasks without bodies, are new. -/
theorem grow (h : w.Lodges g a stack) (count : w.activations.size ≤ w'.activations.size)
    (generators : w'.generators = w.generators) (parked : w.ParkedIn w') (lodges : stack'.Lodges g a) :
    w'.Lodges g a stack' :=
  h.mono count generators (fun t code e => (parked t code e).imp_right lodges_of_blank) lodges

theorem drop (h : w.Lodges g a stack) (count : w'.activations = w.activations)
    (generators : w'.generators = w.generators) (parked : w.ParkedIn w') (below : stack' <:+ stack) :
    w'.Lodges g a stack' :=
  h.grow (Nat.le_of_eq (congrArg Array.size count.symm)) generators parked (h.stack.suffix below)

theorem stay (h : w.Lodges g a stack) (top : stack.head? ≠ some (.generatorBoundary g))
    (stays : s.Stays program w stack) (parked : w.ParkedIn s.world) : s.world.Lodges g a s.stack := by
  obtain ⟨upper, e, plain⟩ := stays.grows
  refine h.grow (Nat.le_of_eq stays.confined.count.symm) stays.confined.generators parked ?_
  rw [e]
  exact h.stack.under top plain

theorem setGenerator (h : w.Lodges g a stack) (g' : Nat) {state : GeneratorState} (lodges : stack'.Lodges g a)
    (rests : ∀ code, (w.setGenerator g' state).resting? g' = some code → (.activationEnd a ∈ code ↔ g' = g)) :
    (w.setGenerator g' state).Lodges g a stack' where
  born := Nat.lt_of_lt_of_eq h.born (by simp [World.setGenerator])
  known := h.known
  stack := lodges
  parked := h.parked
  resting g'' code e := by
    by_cases same : g'' = g'
    · subst same
      exact rests code e
    · rw [World.resting?_congr (generator_setGenerator_of_ne _ same)] at e
      exact h.resting g'' code e

/-- A generator without code has none that rests. -/
theorem silence (h : w.Lodges g a stack) (g' : Nat) {state : GeneratorState}
    (silent : state = .running ∨ state = .done) (lodges : stack'.Lodges g a) :
    (w.setGenerator g' state).Lodges g a stack' := by
  refine h.setGenerator g' lodges fun code e => ?_
  have none : (w.setGenerator g' state).resting? g' = none := by
    rcases generator_setGenerator w g' state g' with ⟨-, e | e⟩ | ⟨other, -⟩
    · rcases silent with rfl | rfl <;> simp [World.resting?, e]
    · simp [World.resting?, e]
    · exact absurd rfl other
  cases none.symm.trans e

theorem wake (h : w.Lodges g a stack) (top : stack.head? ≠ some (.generatorBoundary g)) {g' : Nat}
    (rests : w.resting? g' = some code) (segment : IsSegment code) :
    (w.setGenerator g' .running).Lodges g a (code ++ .generatorBoundary g' :: stack) := by
  refine h.silence g' (.inl rfl) (segment.lodges_iff.mpr ⟨?_, ?_, h.stack⟩)
  · rw [h.resting g' code rests, Frame.generatorBoundary.injEq]
  · exact ⟨fun e => (by cases e), fun e => absurd e top⟩

theorem pause {g' : Nat} (h : w.Lodges g a (code ++ .generatorBoundary g' :: rest)) (segment : IsSegment code) :
    (w.setGenerator g' (.suspended code)).Lodges g a rest := by
  obtain ⟨own, -, lodges⟩ := segment.lodges_iff.mp h.stack
  refine h.setGenerator g' lodges fun code' e => ?_
  rcases generator_setGenerator w g' (.suspended code) g' with ⟨-, now | now⟩ | ⟨other, -⟩
  · rw [World.resting?, now] at e
    rw [← Option.some.inj e, own, Frame.generatorBoundary.injEq]
  · rw [World.resting?, now] at e
    cases e
  · exact absurd rfl other

/-- The code of a generator that does not run has a place of its own. -/
theorem of_resting (placed : s.Placed) (rests : s.world.resting? g = some code) (mem : .activationEnd a ∈ code) :
    s.world.Lodges g a s.stack := by
  obtain ⟨loc, hw, hs⟩ := placed
  have own : loc (.body a) = .generator g := (hw.resting g _ rests).located _ (mem_tokens_body.mpr mem)
  have still : loc (.step g) = .nowhere := by_contra fun there => by
    rw [World.resting?, hw.steps g there] at rests
    cases rests
  have elsewhere : ∀ {code : Stack} {host : Host}, code.Placed loc host → host ≠ .generator g → host ≠ .nowhere →
      code.Lodges g a := fun placed other there => lodges_of_tokens
    (fun mem => other ((placed.located _ mem).symm.trans own))
    (fun mem => there ((placed.located _ mem).symm.trans still))
  refine ⟨?_, hw.bodies a (by simp [own]), elsewhere hs (by simp) (by simp),
    fun t code e => elsewhere (hw.parked t code e) (by simp) (by simp), fun g' code e => ⟨fun mem => ?_, ?_⟩⟩
  · by_contra outside
    rw [World.resting?, World.generator, Array.getD_eq_getD_getElem?,
      Array.getElem?_eq_none (Nat.le_of_not_lt outside)] at rests
    cases rests
  · have there := (hw.resting g' code e).located _ (mem_tokens_body.mpr mem)
    exact (Host.generator.inj (there.symm.trans own))
  · rintro rfl
    obtain rfl := Option.some.inj (rests.symm.trans e)
    exact mem

end World.Lodges

/-! ### Steps -/

theorem last_finished (stack : Stack) (mode : ResumeMode) (v : Value) (w : World) :
    ∃ c, resume.finished stack mode v w = ⟨w, c, stack⟩ ∧ c.Last w.heap v mode := by
  unfold resume.finished
  cases mode with
  | next => exact ⟨_, rfl, .next⟩
  | «return» => exact ⟨_, rfl, .return⟩
  | throw =>
    refine ⟨_, rfl, ?_⟩
    unfold Heap.thrown
    cases h : w.heap.describe v with
    | ok text => exact .throw h
    | error failure => exact .indescribable h

/-- What resuming a generator means for one that lodges there: it answers, or it is another one, and then
nothing happens to it. -/
theorem World.Lodges.resume (h : w.Lodges g a stack) (top : stack.head? ≠ some (.generatorBoundary g))
    (settled : w.Settled program) (segments : w.KeepsSegments) (g' : Nat) (mode : ResumeMode) (v : Value)
    (parked : w.ParkedIn (w.resume stack g' mode v).world) :
    (w.resume stack g' mode v).world.Lodges g a (w.resume stack g' mode v).stack ∧
      (g' = g → w.Answers stack g a v mode (w.resume stack g' mode v)) ∧
      (g' ≠ g → (w.resume stack g' mode v).world.generator g = w.generator g ∧
        (w.resume stack g' mode v).world.registry a = w.registry a) := by
  have other : ∀ {state : GeneratorState}, g' ≠ g → (w.setGenerator g' state).generator g = w.generator g :=
    fun ne => generator_setGenerator_of_ne _ (Ne.symm ne)
  unfold World.resume at parked ⊢
  split
  · rename_i running
    exact ⟨h, fun own => .busy (own ▸ running), fun _ => ⟨rfl, rfl⟩⟩
  · rename_i done
    obtain ⟨c, e, last⟩ := last_finished stack mode v w
    rw [e]
    exact ⟨h, fun own => .finished (own ▸ done) last, fun _ => ⟨rfl, rfl⟩⟩
  · rename_i closure arguments a' fresh
    have rests : w.resting? g' = some [.activationEnd a'] := by rw [World.resting?, fresh]
    have same : g' = g → a' = a := fun own => by
      have mem := (h.resting g' _ rests).mpr own
      exact (Frame.activationEnd.inj (List.mem_singleton.mp mem)).symm
    split
    · rename_i starts
      simp only [fresh, if_pos starts] at parked
      have woken := h.wake top rests ⟨[], a', rfl, List.forall_mem_nil _⟩
      have running : (w.setGenerator g' .running).Settled program := settled.setGenerator g' fun _ e => (by cases e)
      have stays := stays_startBody _ (.generatorBoundary g' :: stack) running closure a' arguments
      have alive : (w.setGenerator g' .running).generator g' = .running :=
        generator_setGenerator_self _ (by rw [fresh]; simp)
      refine ⟨woken.stay (by simp) stays parked, fun own => ?_, fun ne => ⟨?_, ?_⟩⟩
      · obtain ⟨upper, e, -⟩ := stays.grows
        obtain rfl := same own
        subst own starts
        refine .starts fresh ?_ e
        rwa [World.generator, stays.confined.generators]
      · rw [World.generator, stays.confined.generators]
        exact other ne
      · refine stays.confined.registries a fun e => ne ?_
        rw [← (h.resting g' _ rests), List.mem_singleton, Frame.activationEnd.injEq]
        exact e
    · rename_i closes
      obtain ⟨c, e, last⟩ := last_finished stack mode v (w.setGenerator g' .done)
      rw [e]
      refine ⟨h.silence g' (.inr rfl) h.stack, fun own => ?_, fun ne => ⟨other ne, rfl⟩⟩
      obtain rfl := same own
      subst own
      exact .closes fresh closes last
  · rename_i code suspended
    have rests : w.resting? g' = some code := by rw [World.resting?, suspended]
    have woken := h.wake top rests (segments g' code suspended)
    cases mode with
    | next => exact ⟨woken, fun own => own ▸ .goesOn (own ▸ suspended) (fun e => (by cases e)), fun ne => ⟨other ne, rfl⟩⟩
    | «return» => exact ⟨woken, fun own => own ▸ .goesOn (own ▸ suspended) (fun e => (by cases e)), fun ne => ⟨other ne, rfl⟩⟩
    | throw =>
      simp only
      split
      · rename_i text described
        exact ⟨woken, fun own => own ▸ .goesOn (own ▸ suspended) fun _ => ⟨text, described⟩,
          fun ne => ⟨other ne, rfl⟩⟩
      · rename_i failure indescribable
        refine ⟨h.silence g' (.inr rfl) h.stack, fun own => ?_, fun ne => ⟨other ne, rfl⟩⟩
        subst own
        exact .strands suspended indescribable

/-- Nothing happens to the generators or to the activations. -/
theorem Running.Lives.beside (generators : s'.world.generators = s.world.generators)
    (activations : s'.world.activations = s.world.activations) : s.Lives g a s' := by
  refine .apart ?_ fun _ => ?_
  · rw [World.generator, generators, World.generator]
  · rw [World.registry, World.activation, activations, World.registry, World.activation]

/-- The step of another generator comes to its end. -/
theorem Running.Lives.other {g' : Nat} (ne : g' ≠ g) (state : GeneratorState) (c : Control) (stack' : Stack) :
    s.Lives g a ⟨s.world.setGenerator g' state, c, stack'⟩ :=
  .apart (generator_setGenerator_of_ne _ (Ne.symm ne)) fun _ => rfl

/-- Code of an activation whose generator does not run is of another activation. -/
theorem World.Lodges.idle (h : w.Lodges g a stack) (isOpen : Open stack)
    (runs : .generatorBoundary g ∈ stack → w.generator g = .running) (still : w.generator g ≠ .running) :
    a ≠ stack.setting.activation := by
  rintro rfl
  obtain ⟨upper, caller, e⟩ := h.stack.inside isOpen.activationEnd_mem
  refine still (runs ?_)
  rw [e]
  simp

theorem Running.Confines.lives (h : s'.Confines program s.world stack) (next : s.step = .next s')
    (lodges : s.world.Lodges g a stack) (isOpen : Open stack)
    (runs : .generatorBoundary g ∈ stack → s.world.generator g = .running) (settled : s.world.Settled program)
    (segments : s.world.KeepsSegments) (parked : s.world.ParkedIn s'.world) :
    s'.world.Lodges g a s'.stack ∧ s.Lives g a s' := by
  have top := isOpen.not_boundary (g := g)
  cases h with
  | stays h =>
    refine ⟨lodges.stay top h parked, .apart ?_ fun still => ?_⟩
    · rw [World.generator, h.confined.generators, World.generator]
    · exact h.confined.registries a (lodges.idle isOpen runs still)
  | @calls w' s' upper entered tops h =>
    have other : a ≠ s.world.activations.size := Nat.ne_of_lt lodges.known
    obtain ⟨above, e, plain⟩ := h.grows
    have generators := h.confined.generators.trans entered.generators
    refine ⟨lodges.grow ?_ generators parked ?_, .apart ?_ fun _ => ?_⟩
    · rw [h.confined.count, entered.count]
      exact Nat.le_succ _
    · rw [e]
      refine Stack.Lodges.under ⟨⟨fun e => ?_, fun e => ?_⟩, lodges.stack.under top tops.plain⟩ (by simp) plain
      · exact absurd (Frame.activationEnd.inj e).symm other
      · exact absurd e (not_boundary_append top tops.plain)
    · rw [World.generator, generators, World.generator]
    · rw [h.confined.registries a other, entered.registries a lodges.known]
  | @makes w' closure arguments v heap upper entered closures tops =>
    have size : w'.generators.size = s.world.generators.size := congrArg Array.size entered.generators
    have old : ∀ g' < w'.generators.size,
        (w'.generators.push (.fresh closure arguments s.world.activations.size)).getD g' .done =
          s.world.generator g' := by
      intro g' inside
      rw [World.generator, ← entered.generators]
      simp [Array.getD_eq_getD_getElem?, Array.getElem?_push, Nat.ne_of_lt inside]
    refine ⟨⟨?_, ?_, lodges.stack.under top tops.plain, fun t code e => ?_, fun g' code e => ?_⟩,
      .apart (old g (size ▸ lodges.born)) fun _ => entered.registries a lodges.known⟩
    · rw [Array.size_push, size]
      exact Nat.lt_succ_of_lt lodges.born
    · rw [entered.count]
      exact Nat.lt_succ_of_lt lodges.known
    · exact (parked t code e).elim (lodges.parked t code) World.Lodges.lodges_of_blank
    · by_cases inside : g' < w'.generators.size
      · rw [World.resting?, World.generator, old g' inside] at e
        exact lodges.resting g' code e
      · have new : g' ≠ g := fun own => inside (by rw [own, size]; exact lodges.born)
        refine ⟨fun mem => ?_, fun own => absurd own new⟩
        by_cases last : g' = w'.generators.size
        · simp only [World.resting?, World.generator, last, Array.getD_eq_getD_getElem?, Array.getElem?_push_size,
            Option.getD_some] at e
          obtain rfl := Option.some.inj e
          have own := Frame.activationEnd.inj (List.mem_singleton.mp mem)
          exact absurd lodges.known (own ▸ Nat.lt_irrefl _)
        · have beyond : w'.generators.size < g' := by omega
          simp [World.resting?, World.generator, Array.getD_eq_getD_getElem?, Array.getElem?_push, last,
            inside] at e
  | @resumes w' upper g' mode v touches tops =>
    have minor := touches.minor
    have generators : ∀ i, w'.generator i = s.world.generator i := fun i => by
      rw [World.generator, minor.generators, World.generator]
    have lodges' : w'.Lodges g a (upper ++ stack) := by
      refine lodges.mono (Nat.le_of_eq (congrArg Array.size minor.activations.symm)) minor.generators
        (fun t code e => .inl ?_) (lodges.stack.under top tops.plain)
      rwa [minor.loop] at e
    obtain ⟨lodged, own, other⟩ := lodges'.resume (not_boundary_append top tops.plain) (touches.settled settled)
      (fun i code e => segments i code ((generators i).symm.trans e)) g' mode v
      fun t code e => by rw [minor.loop]; exact parked t code e
    refine ⟨lodged, ?_⟩
    by_cases same : g' = g
    · subst same
      exact .asked ⟨next, minor.generators⟩ minor (own rfl)
    · obtain ⟨state, registry⟩ := other same
      refine .apart (state.trans (generators g)) fun _ => registry.trans ?_
      rw [World.registry, World.activation, minor.activations, World.registry, World.activation]

theorem Running.Placed.running_of_mem (placed : s.Placed) (mem : .generatorBoundary g ∈ s.stack) :
    s.world.generator g = .running := by
  obtain ⟨loc, hw, hs⟩ := placed
  exact hw.steps g (by rw [hs.located _ (mem_tokens_step.mpr mem)]; simp)

theorem lives_served [Node.MainRule] {request : Request} (h : Served s.world stack request s')
    (kept : s.world.Kept) (lodges : s.world.Lodges g a stack) (isOpen : Open stack)
    (runs : .generatorBoundary g ∈ stack → s.world.generator g = .running)
    (belongs : request.Belongs program stack.setting) :
    s'.world.Lodges g a s'.stack ∧ s.Lives g a s' := by
  have settling : Stack.Lodges g a (.settling :: stack) := lodges.stack.push isOpen.not_boundary rfl
  have parks : ∀ {w' : World}, w'.activations = s.world.activations → w'.generators = s.world.generators →
      (∀ t code, (w'.loop.promise t).parked? = some code →
        (s.world.loop.promise t).parked? = some code ∨ code = .settling :: stack) → w'.Lodges g a [] :=
    fun activations generators parked => lodges.mono (Nat.le_of_eq (congrArg Array.size activations.symm)) generators
      (fun t code e => (parked t code e).imp_right fun e => (by rw [e]; exact settling)) trivial
  cases h with
  | settled => exact ⟨lodges.grow (Nat.le_refl _) rfl (fun _ _ => .inl) settling, .beside rfl rfl⟩
  | waits => exact ⟨parks rfl rfl fun t code e => Loop.parked_park e, .beside rfl rfl⟩
  | own | turn => exact ⟨parks rfl rfl fun t code e => Loop.parked_hold e, .beside rfl rfl⟩
  | drain b handle reason =>
    have naps := (follows_drain s.world (.settling :: stack) b handle .async reason kept).evolves.naps
    have stays := stays_drain s.world (.settling :: stack) belongs.1 handle .async belongs.2
    have lodges' : s.world.Lodges g a (.settling :: stack) :=
      lodges.grow (Nat.le_refl _) rfl (fun _ _ => .inl) settling
    refine ⟨lodges'.stay (by simp) stays fun t code e => naps.tokens e, .apart ?_ fun still => ?_⟩
    · rw [World.generator, stays.confined.generators, World.generator]
    · exact stays.confined.registries a (lodges.idle isOpen runs still)
  | refused v failure =>
    exact ⟨lodges.drop rfl rfl (fun _ _ => .inl) (belowDrive_suffix stack), .beside rfl rfl⟩

/-- A step keeps a generator in its place, and does to it what a step may do. -/
theorem Running.lives_step [Node.MainRule] (lodges : s.world.Lodges g a s.stack) (settled : s.Settled program)
    (orderly : s.Orderly) (placed : s.Placed) (next : s.step = .next s') :
    s'.world.Lodges g a s'.stack ∧ s.Lives g a s' := by
  have running : .generatorBoundary g ∈ s.stack → s.world.generator g = .running := placed.running_of_mem
  have segments : s.world.KeepsSegments := fun i code e => by
    have keeps := orderly.kept.generators i
    rw [e] at keeps
    exact keeps.1
  have tail : ∀ {f : Frame} {stack : Stack}, s.stack = f :: stack → s.world.Lodges g a stack := fun e =>
    lodges.drop rfl rfl (fun _ _ => .inl) (e ▸ List.suffix_cons ..)
  have below : ∀ {b : Frame} {rest : Stack}, s.stack.fromBoundary = b :: rest → s.world.Lodges g a rest := fun e =>
    lodges.drop rfl rfl (fun _ _ => .inl) (suffix_of_boundary e)
  have taken : ∀ {b : Frame} {rest : Stack}, s.stack.fromBoundary = b :: rest → s.control.needsCode = true →
      b ≠ .syncBoundary → b ≠ .asyncDrive →
      IsSegment s.stack.segment ∧ s.stack = s.stack.segment ++ b :: rest := by
    intro b rest e needs sync drive
    obtain ⟨b', rest', h⟩ := (orderly.isOpen needs).bounded
    obtain ⟨rfl, -⟩ := List.cons.inj (e.symm.trans h.boundary)
    exact ⟨h.isSegment sync drive, by rw [← e, s.stack.segment_append_fromBoundary]⟩
  cases orderly.moves next with
  | @code w c stack s' isCode h =>
    have isOpen : Open stack := orderly.isOpen (by cases c <;> first | contradiction | rfl)
    exact (confines_code isCode settled next).lives next lodges isOpen running settled.world segments
      fun t code e => h.evolves.naps.tokens e
  | frame outcome plain h =>
    rcases confines_frame outcome plain settled next with confines | ⟨failure, -, -, -, rfl⟩
    · exact confines.lives next (tail rfl) (orderly.stands.isOpen plain)
        (fun mem => running (List.mem_cons_of_mem _ mem)) settled.world segments
        fun t code e => h.evolves.naps.tokens e
    · exact ⟨(tail rfl).drop rfl rfl (fun _ _ => .inl) (belowDrive_suffix _), .beside rfl rfl⟩
  | pass | callEnd => exact ⟨(tail rfl).drop rfl rfl (fun _ _ => .inl) List.suffix_rfl, .beside rfl rfl⟩
  | settled =>
    refine ⟨(tail rfl).drop rfl rfl (fun t code e => .inl ?_) List.suffix_rfl, .beside rfl rfl⟩
    exact (Loop.parked_add e).elim id fun e => by cases e
  | @stepEnd w c c' g' stack outcome =>
    refine ⟨(tail rfl).silence g' (.inr rfl) (tail rfl).stack, ?_⟩
    by_cases own : g' = g
    · subst own
      cases c with
      | value v => 
        obtain ⟨-, rfl, -⟩ := Running.mk.inj (Transition.next.inj next)
        exact .returns rfl rfl
      | raise failure =>
        obtain ⟨-, rfl, -⟩ := Running.mk.inj (Transition.next.inj next)
        exact .fails rfl rfl
      | complete | resumed =>
        have same := congrArg Running.world (Transition.next.inj next)
        exact .beside (congrArg World.generators same.symm) rfl
      | execute | evaluate | suspend => exact absurd rfl (orderly.isOpen rfl).not_boundary
      | parked => exact absurd (orderly.fits.resolve_left id).2 (List.cons_ne_nil _ _)
    · exact .other own .done c' stack
  | start h =>
    exact lives_served h orderly.kept (tail rfl) orderly.stands.isOpen_start
      (fun mem => running (List.mem_cons_of_mem _ mem)) settled.stack.1
  | abandon =>
    exact ⟨(tail rfl).drop rfl rfl (fun _ _ => .inl) (belowDrive_suffix _), .beside rfl rfl⟩
  | refuse boundary => exact ⟨below boundary, .beside rfl rfl⟩
  | @refuseStep w request stack rest g' failure boundary =>
    refine ⟨(below boundary).silence g' (.inr rfl) (below boundary).stack, ?_⟩
    by_cases own : g' = g
    · subst own
      exact .refused rfl (taken boundary rfl (by simp) (by simp)).2
    · exact .other own .done _ rest
  | @yield w v stack rest g' boundary =>
    obtain ⟨segment, whole⟩ := taken boundary rfl (by simp) (by simp)
    replace lodges : w.Lodges g a (stack.segment ++ .generatorBoundary g' :: rest) := whole ▸ lodges
    refine ⟨lodges.pause segment, ?_⟩
    by_cases own : g' = g
    · subst own
      exact .yields rfl whole
    · exact .other own _ _ rest
  | @spawn w request stack rest boundary =>
    obtain ⟨segment, whole⟩ := taken boundary rfl (by simp) (by simp)
    have lodged : Stack.Lodges g a (stack.segment ++ .asyncStart :: rest) := whole ▸ lodges.stack
    have foreign := (segment.lodges_iff.mp lodged).1
    refine ⟨(below boundary).mono (Nat.le_refl _) rfl (fun t code e => (Loop.parked_add e).imp_right fun e => ?_)
      (below boundary).stack, .beside rfl rfl⟩
    obtain rfl := Option.some.inj e
    refine Stack.Lodges.push ?_ ?_ rfl
    · refine segment.lodges_iff.mpr ⟨?_, by simp [Stack.Lodges]⟩
      rw [foreign]
      simp
    · exact segment.not_boundary _
  | serve boundary h =>
    exact lives_served h orderly.kept lodges (orderly.isOpen rfl) running settled.control
  | @nap w v seconds stack =>
    refine ⟨lodges.mono (Nat.le_refl _) rfl (fun t code e => (Loop.parked_rest e).imp_right ?_) trivial,
      .beside rfl rfl⟩
    rintro rfl
    exact (tail rfl).stack
  | taskEnd =>
    refine ⟨lodges.drop rfl rfl (fun t code e => .inl ?_) (List.nil_suffix ..), .beside rfl rfl⟩
    rwa [← Loop.parked_settle]
  | programEnd => exact ⟨lodges.drop rfl rfl (fun _ _ => .inl) (List.nil_suffix ..), .beside rfl rfl⟩
  | resume _ h =>
    obtain ⟨parked, later⟩ := Loop.parked_resume h
    exact ⟨lodges.mono (Nat.le_refl _) rfl (fun t code e => .inl (later t code e)) (lodges.parked _ _ parked),
      .beside rfl rfl⟩
  | internal _ h =>
    refine ⟨lodges.drop rfl rfl (fun t code e => .inl ?_) (List.nil_suffix ..), .beside rfl rfl⟩
    rwa [← Loop.parked_internal h]

end Lodging

/-! ### Whole runs -/

section Runs

variable {config : Config} {program : Node} {L : Ledger} {s t u : Running} {g a : Nat}

theorem Run.lodges_later (run : Run config program L s) (lodges : s.world.Lodges g a s.stack)
    (later : s.Later t) : t.world.Lodges g a t.stack := by
  let _ : Node.MainRule := .any
  induction later with
  | refl => exact lodges
  | step before next ih =>
    obtain ⟨L, run⟩ := run.later before
    exact (Running.lives_step ih run.settled (run.orderly fun _ _ => trivial) run.placed next).1
  | @reorder w stack loop before other ih =>
    refine ih.drop rfl rfl (fun t code e => .inl ?_) List.suffix_rfl
    rwa [Loop.promise, other.promises, ← Loop.promise] at e

theorem Run.lives_of_lodges (run : Run config program L s) (lodges : s.world.Lodges g a s.stack) :
    s.Houses g a ∧ ∀ s', s.step = .next s' → s.Lives g a s' := by
  let _ : Node.MainRule := .any
  have orderly := run.orderly fun _ _ => trivial
  have placed := run.placed
  refine ⟨⟨fun needs own => ?_, lodges.stack.inside, placed.running_of_mem, ?_,
    fun code e => (lodges.resting g code e).mpr rfl⟩, fun s' next =>
      (Running.lives_step lodges run.settled orderly placed next).2⟩
  · rw [← own]
    exact (orderly.isOpen needs).activationEnd_mem
  · obtain ⟨loc, -, hs⟩ := placed
    exact hs.nodup

/-- A generator that is done does nothing. -/
theorem Running.Lives.stays_done (h : s.Lives g a t) (houses : s.Houses g a) (done : s.world.generator g = .done) :
    t.world.generator g = .done := by
  have absent : .generatorBoundary g ∉ s.stack := fun mem => by cases done.symm.trans (houses.running mem)
  cases h with
  | apart state => exact state.trans done
  | @asked w caller mode v s' asks minor answers =>
    have done : w.generator g = .done := by rwa [World.generator, asks.generators]
    cases answers with
    | finished => exact done
    | starts fresh | closes fresh => cases done.symm.trans fresh
    | goesOn suspended | strands suspended => cases done.symm.trans suspended
    | busy running => cases done.symm.trans running
  | yields _ stack | returns _ stack | fails _ stack | refused _ stack =>
    rw [stack] at absent
    simp at absent

theorem Run.stays_done (run : Run config program L s) (lodges : s.world.Lodges g a s.stack)
    (done : s.world.generator g = .done) (later : s.Later t) : t.world.generator g = .done := by
  induction later with
  | refl => exact done
  | step before next ih =>
    obtain ⟨L, later⟩ := run.later before
    obtain ⟨houses, lives⟩ := later.lives_of_lodges (run.lodges_later lodges before)
    exact (lives _ next).stays_done houses ih
  | reorder _ _ ih => exact ih

/-- **Main result.**  From the moment on when a generator is made, in every run of whatever program:  the
body of the generator runs only above its boundary, which stands on the stack once, and only while the
generator runs.  Every step of the run leaves the generator alone, and its frames and actions too unless it
runs, or it is asked for a step, yields or ends as `Lives` says.  And a generator that is done stays done. -/
theorem Run.generator_lives (run : Run config program L s) {closure : Nat} {arguments : List Value}
    (fresh : s.world.generator g = .fresh closure arguments a) (later : s.Later t) :
    t.Houses g a ∧ (∀ t', t.step = .next t' → t.Lives g a t') ∧
      (t.world.generator g = .done → ∀ u, t.Later u → u.world.generator g = .done ∧ .activationEnd a ∉ u.stack) := by
  have rests : s.world.resting? g = some [.activationEnd a] := by rw [World.resting?, fresh]
  have lodges := run.lodges_later (.of_resting run.placed rests (List.mem_singleton_self _)) later
  obtain ⟨L, after⟩ := run.later later
  obtain ⟨houses, lives⟩ := after.lives_of_lodges lodges
  refine ⟨houses, lives, fun done u later => ?_⟩
  have stays := after.stays_done lodges done later
  obtain ⟨L, last⟩ := after.later later
  obtain ⟨houses, -⟩ := last.lives_of_lodges (after.lodges_later lodges later)
  refine ⟨stays, fun mem => ?_⟩
  obtain ⟨upper, caller, e⟩ := houses.inside mem
  cases stays.symm.trans (houses.running (by simp [e]))

/-- What is observed further on is later. -/
theorem later_observe (n : Nat) (moment : Ledger × Running) : moment.2.Later (observe n moment).2 := by
  suffices ∀ s : Running, s.Later moment.2 → s.Later (observe n moment).2 from this _ (.refl _)
  intro s
  induction n generalizing moment with
  | zero => exact id
  | succ n ih =>
    obtain ⟨L, t⟩ := moment
    intro later
    unfold observe
    cases next : t.step with
    | next t' => exact ih _ (later.step next)
    | halt result => exact later

/-- The generator is closed by the loop that is left, and is done from then on. -/
theorem lives_leftLoop : ∃ closure arguments,
    (observed {} (leftLoop []) 7).2.world.generator 0 = .fresh closure arguments 1 ∧
      (observe 20 (observed {} (leftLoop []) 7)).2.Houses 0 1 ∧
      ∀ u, (observe 20 (observed {} (leftLoop []) 7)).2.Later u →
        u.world.generator 0 = .done ∧ .activationEnd 1 ∉ u.stack := by
  have run := Run.observed {} (leftLoop []) 7
  have fresh : (observed {} (leftLoop []) 7).2.world.generator 0 = .fresh 0 [] 1 := by rfl
  have done : (observe 20 (observed {} (leftLoop []) 7)).2.world.generator 0 = .done := by rfl
  obtain ⟨houses, -, stays⟩ := run.generator_lives fresh (later_observe 20 _)
  exact ⟨0, [], fresh, houses, stays done⟩

/-- An integer with too many digits has no description. -/
theorem describe_int (h : Heap) {n : Int} (many : Number.pow10 Number.maxDigits ≤ n.natAbs) :
    h.describe (.number (.int n)) = .error (.single (.host .value none)) := by
  have picture : h.describe (.number (.int n)) = ofNumeric (Number.intText n) := rfl
  rw [picture, Number.intText, if_pos many]
  rfl

/-- A generator that is done does not raise such a number when it is to throw it, but another failure. -/
theorem unraised_int : ∃ n : Int, ∃ w : World, w.generator 0 = .done ∧
    w.resume [] 0 .throw (.number (.int n)) = ⟨w, .raise (.single (.host .value none)), []⟩ := by
  obtain ⟨n, many⟩ : ∃ n : Int, Number.pow10 Number.maxDigits ≤ n.natAbs :=
    ⟨(Number.pow10 Number.maxDigits : Nat), Nat.le_of_eq (Int.natAbs_natCast _).symm⟩
  have thrown : Heap.thrown {} (.number (.int n)) = .single (.host .value none) := by
    rw [Heap.thrown, describe_int {} many]
  refine ⟨n, {}, by rfl, ?_⟩
  show (⟨{}, .raise (Heap.thrown {} (.number (.int n))), []⟩ : Running) = _
  rw [thrown]

end Runs

end ScopeExit.Script
