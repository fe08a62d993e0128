import ScopeExit.Proofs.Script.Lifetime
/-!
Code in progress.

A statement that is in progress has left frames below the code that runs, and whatever the run does in the
meantime these frames stay together with all that is below them in their body.  The code may be suspended
with its generator or parked with its task and go on elsewhere, and calls and steps of generators may come
and go above it.  The frames are met again when the code above them has an outcome, and not before.
-/
namespace ScopeExit.Script

open World Stack

/-! ### Pieces -/

/-- Frames of the code of one activation. -/
def Frame.isInner : Frame → Bool
  | .activationEnd _ | .generatorBoundary _ | .asyncStart => false
  | _ => true

/-- The code of an activation down to the end of its body. -/
def Stack.IsPiece (a : Nat) (piece : Stack) : Prop :=
  ∃ upper, piece = upper ++ [.activationEnd a] ∧ ∀ f ∈ upper, f.isInner = true

section Pieces

variable {a g : Nat} {f b : Frame} {piece stack upper rest : Stack}

theorem Stack.IsPiece.cons (h : piece.IsPiece a) (inner : f.isInner = true) : Stack.IsPiece a (f :: piece) := by
  obtain ⟨upper, rfl, plain⟩ := h
  exact ⟨f :: upper, rfl, List.forall_mem_cons.mpr ⟨inner, plain⟩⟩

theorem Stack.IsPiece.append (h : piece.IsPiece a) (inner : ∀ f ∈ upper, f.isInner = true) :
    Stack.IsPiece a (upper ++ piece) := by
  obtain ⟨frames, rfl, plain⟩ := h
  exact ⟨upper ++ frames, by simp, fun f hf => (List.mem_append.mp hf).elim (inner f) (plain f)⟩

theorem Stack.IsPiece.end_mem (h : piece.IsPiece a) : .activationEnd a ∈ piece := by
  obtain ⟨upper, rfl, -⟩ := h
  simp

theorem Stack.IsPiece.ne_nil (h : piece.IsPiece a) : piece ≠ [] := List.ne_nil_of_mem h.end_mem

/-- What is neither code nor an end of code is not among the frames of a piece. -/
theorem Stack.IsPiece.not_mem (h : piece.IsPiece a) (outer : f.isInner = false) (other : f ≠ .activationEnd a) :
    f ∉ piece := by
  obtain ⟨upper, rfl, plain⟩ := h
  intro mem
  rcases List.mem_append.mp mem with mem | mem
  · rw [plain f mem] at outer
    contradiction
  · exact other (List.mem_singleton.mp mem)

theorem Frame.isInner_of_plain (plain : f.isPlain = true) : f.isInner = true := by
  cases f <;> first | rfl | contradiction

/-- Code that runs has its own piece on top of its stack. -/
theorem Stack.Open.top_piece (h : Open stack) :
    ∃ piece lower, stack = piece ++ lower ∧ piece.IsPiece stack.setting.activation := by
  induction h with
  | @frame f stack plain _ ih =>
    obtain ⟨piece, lower, e, isPiece⟩ := ih
    refine ⟨f :: piece, lower, by rw [e]; rfl, ?_⟩
    rw [show Stack.setting (f :: stack) = stack.setting.above f from rfl,
      Setting.activation_above _ (Frame.token?_of_plain plain)]
    exact isPiece.cons (Frame.isInner_of_plain plain)
  | @action b a d stack hb _ ih =>
    obtain ⟨piece, lower, e, isPiece⟩ := ih
    rcases hb with rfl | rfl <;>
      exact ⟨_ :: .draining a d :: piece, lower, by rw [e]; rfl, (isPiece.cons rfl).cons rfl⟩
  | _ => exact ⟨[.activationEnd _], _, rfl, [], rfl, List.forall_mem_nil _⟩

/-- Some frames that stop before another one. -/
theorem prefix_of_not_mem (h : piece <+: upper ++ b :: rest) (other : b ∉ piece) : piece <+: upper := by
  have cut : upper ++ [b] <+: upper ++ b :: rest := by simp
  rcases List.prefix_or_prefix_of_prefix h cut with h | h
  · rcases List.prefix_concat_iff.mp h with rfl | h
    · simp at other
    · exact h
  · exact absurd (h.subset (by simp)) other

/-- Frames without another one are on one side of it. -/
theorem infix_of_not_mem (h : piece <:+: upper ++ b :: rest) (other : b ∉ piece) :
    piece <:+: upper ∨ piece <:+: rest := by
  induction upper with
  | nil =>
    rcases List.infix_cons_iff.mp h with h | h
    · have empty : piece <+: [] := prefix_of_not_mem h other
      exact .inl empty.isInfix
    · exact .inr h
  | cons f upper ih =>
    rcases List.infix_cons_iff.mp h with h | h
    · have above : piece <+: f :: upper := prefix_of_not_mem h other
      exact .inl above.isInfix
    · exact (ih h).imp_left fun h => h.trans (List.suffix_cons ..).isInfix

end Pieces

/-! ### Where a piece is -/

/-- A piece of code is somewhere: on the stack, in a suspended generator, or parked with a task. -/
inductive Running.Holds (piece : Stack) (s : Running) : Prop
  | running (h : piece <:+: s.stack)
  | suspended {g : Nat} {code : Stack} (suspended : s.world.generator g = .suspended code) (h : piece <:+: code)
  | parked {t : Nat} {code : Stack} (parked : (s.world.loop.promise t).parked? = some code)
      (h : piece <:+: code)

/-- The code above a piece has an outcome. -/
structure Running.Arrives (piece : Stack) (s : Running) : Prop where
  stack : piece <+: s.stack
  outcome : s.control.isOutcome = true

/-- A generator that is suspended with the piece is told to throw a value that cannot be described, and is
given up. -/
inductive Running.Strands (piece : Stack) (s : Running) : Prop
  | mk {g : Nat} {code caller : Stack} {w : World} {v : Value} {failure : Failure}
      (suspended : s.world.generator g = .suspended code) (h : piece <:+: code)
      (asks : s.Asks w caller g .throw v) (indescribable : w.heap.describe v = .error failure)

section Holding

variable {config : Config} {program : Node} {L : Ledger} {a : Nat} {w : World} {c : Control}
  {piece piece' stack stack' code : Stack} {s s' : Running}

theorem Running.Holds.mono (h : s.Holds piece') (sub : piece <:+: piece') : s.Holds piece := by
  cases h with
  | running h => exact .running (sub.trans h)
  | suspended suspended h => exact .suspended suspended (sub.trans h)
  | parked parked h => exact .parked parked (sub.trans h)

theorem Running.Holds.on_top (h : piece <+: s.stack) : s.Holds piece := .running h.isInfix

theorem Running.Follows.holds [Node.MainRule] (h : s'.Follows w stack) (runs : piece <:+: stack) :
    s'.Holds piece := by
  obtain ⟨upper, e, -⟩ := h.grows
  refine .running ?_
  rw [e]
  exact runs.trans (List.suffix_append ..).isInfix

/-- Parked code stays where it is until its task goes on. -/
theorem Running.Schedules.parked_stays (h : s.Schedules s') (tended : s.Tended) {t : Nat}
    (parked : (s.world.loop.promise t).parked? = some code) :
    (s'.world.loop.promise t).parked? = some code ∨ s'.stack = code := by
  have inside : t < s.world.loop.promises.size := tended.world.inside (tended.world.parked t code parked).2
  have extended : ∀ {w' : World}, s.world.Extends w' → (w'.loop.promise t).parked? = some code := by
    intro w' extend
    rwa [extend.promise t inside]
  cases h with
  | goesOn naps => exact .inl (extended naps.extends)
  | settles o => exact .inl (extended (makes_settled o).extends)
  | spawns =>
    refine .inl ((congrArg Promise.parked? ((Loop.adds_spawn _).promise t)).trans ?_)
    rwa [if_neg (Nat.ne_of_lt inside)]
  | parks running _ _ parks =>
    refine .inl ?_
    rw [parks.parked, if_neg ?_]
    · exact parked
    · rintro rfl
      cases ((tended.running running).away).symm.trans parked
  | ends => exact .inl ((Loop.parked_settle ..).trans parked)
  | programEnds => exact .inl parked
  | @resume task code' o loop idle next =>
    have resumes := Loop.resumes_next next
    by_cases own : t = task
    · subst own
      exact .inr (Option.some.inj (resumes.code.symm.trans parked))
    · exact .inl ((resumes.parked t).trans ((if_neg own).trans parked))
  | internal _ turns => exact .inl ((turns.parked t).trans parked)

/-- What asks for something stands where the request is taken. -/
theorem Good.suspends [Node.Strays] {request : Request} (good : Good L ⟨w, .suspend request, stack⟩) :
    (∃ v g rest, request = .yield v ∧ stack.fromBoundary = .generatorBoundary g :: rest) ∨
      (∀ v, request ≠ .yield v) ∧
        ∃ f rest, stack.fromBoundary = f :: rest ∧ (f = .asyncStart ∨ f = .asyncDrive) := by
  cases good with
  | yield r generator =>
    obtain ⟨g, rest, -, -, boundary, -⟩ := r.yielded generator
    exact .inl ⟨_, g, rest, rfl, boundary⟩
  | await r async | drain r async =>
    obtain ⟨marks, spans, -⟩ := r.path
    exact .inr ⟨by simp, spans.async_boundary rfl async⟩

/-- A task that goes on has waited for something else than the next step of a generator. -/
theorem Good.starts [Node.Strays] {request : Request} {v : Value}
    (good : Good L ⟨w, .value v, .taskStart request :: stack⟩) : ∀ v, request ≠ .yield v := by
  cases good with
  | value r form =>
    obtain ⟨marks, spans, -⟩ := r.path
    cases spans with
    | frame takes => cases takes
    | awaiting | closing => simp

/-- What was awaited does not end the code of the task that waited. -/
theorem Good.settling [Node.Strays] {failure : Failure} (good : Good L ⟨w, .raise failure, .settling :: stack⟩) :
    failure.isException = true := by
  cases good with
  | raise r passes =>
    obtain ⟨marks, spans, -⟩ := r.path
    cases spans with
    | frame takes => cases takes
    | settling async => exact (passes.clean_of_ne (permits_ne_of_async async)).isException

theorem Served.holds [Node.MainRule] {request : Request} (h : Served w stack request s') (kept : w.Kept)
    (inside : w.current < w.loop.promises.size) (other : ∀ v, request ≠ .yield v) (runs : piece <:+: stack) :
    s'.Holds piece := by
  have settling : piece <:+: .settling :: stack := runs.trans (List.suffix_cons ..).isInfix
  cases h with
  | settled => exact .running settling
  | waits => exact .parked (((Loop.parks_park inside _).parked _).trans (if_pos rfl)) settling
  | own | turn => exact .parked (((Loop.parks_giveWay inside _).parked _).trans (if_pos rfl)) settling
  | drain b handle reason => exact (follows_drain _ _ b handle .async reason kept).holds settling
  | refused v => exact absurd rfl (other v)

/-- A piece that runs stays where it is, or moves with the code that it belongs to. -/
theorem Running.Moves.holds [Node.Strays] [Node.MainRule] (h : s.Moves s') (next : s.step = .next s')
    (good : Good L s) (orderly : s.Orderly) (placed : s.Placed) (tended : s.Tended) (isPiece : piece.IsPiece a)
    (runs : piece <:+: s.stack) : s'.Holds piece ∨ s.Arrives piece := by
  have popped : ∀ {f : Frame} {stack : Stack}, s.stack = f :: stack → s.control.isOutcome = true →
      (piece <:+: stack → s'.Holds piece) → s'.Holds piece ∨ s.Arrives piece := by
    intro f stack e outcome rest
    rw [e] at runs
    rcases List.infix_cons_iff.mp runs with top | below
    · exact .inr ⟨e ▸ top, outcome⟩
    · exact .inl (rest below)
  have ofOutcome : ∀ o : Outcome, (Control.ofOutcome o).isOutcome = true := fun o => by cases o <;> rfl
  have inside : s.world.current < s.world.loop.promises.size :=
    tended.world.inside (tended.running (runs.ne_nil isPiece.ne_nil)).owns
  have split : ∀ {f : Frame} {rest : Stack}, f.isInner = false → (∀ a, f ≠ .activationEnd a) →
      s.stack.fromBoundary = f :: rest → piece <:+: s.stack.segment ∨ piece <:+: rest := by
    intro f rest outer other e
    rw [← s.stack.segment_append_fromBoundary, e] at runs
    exact infix_of_not_mem runs (isPiece.not_mem outer (other a))
  have bare : .activationEnd a ∈ s.stack := runs.subset isPiece.end_mem
  cases h with
  | code isCode h => exact .inl (h.holds runs)
  | frame outcome plain h => exact popped rfl outcome h.holds
  | pass outcome => exact popped rfl outcome fun below => .running below
  | callEnd o => exact popped rfl (ofOutcome o) fun below => .running below
  | @settled w o => exact popped rfl (ofOutcome o) fun below => .running below
  | stepEnd =>
    have apart : piece <:+: [] ∨ _ := infix_of_not_mem runs (isPiece.not_mem rfl (by simp))
    rcases apart with none | below
    · exact absurd (List.infix_nil.mp none) isPiece.ne_nil
    · exact .inl (.running below)
  | start h => exact popped rfl rfl (h.holds orderly.kept inside good.starts)
  | abandon fatal => exact absurd good.settling (by simp [fatal])
  | refuse boundary =>
    rcases good.suspends with ⟨v, g, rest, -, e⟩ | ⟨-, f, rest, e, hf⟩
    · cases boundary.symm.trans e
    · obtain ⟨rfl, -⟩ := List.cons.inj (boundary.symm.trans e)
      simp at hf
  | refuseStep boundary =>
    rcases good.suspends with ⟨v, g, rest, rfl, -⟩ | ⟨-, f, rest, e, hf⟩
    · have control := congrArg Running.control (Transition.next.inj next)
      rw [World.suspend, boundary] at control
      cases control
    · obtain ⟨rfl, -⟩ := List.cons.inj (boundary.symm.trans e)
      simp at hf
  | @yield w v stack rest g boundary =>
    rcases split rfl (by simp) boundary with taken | below
    · have mem : .generatorBoundary g ∈ stack := by
        rw [← stack.segment_append_fromBoundary, boundary]
        simp
      have running : w.generator g = .running := placed.running_of_mem mem
      exact .inl (.suspended (generator_setGenerator_self _ (by rw [running]; simp)) taken)
    · exact .inl (.running below)
  | @spawn w request stack rest boundary =>
    rcases split rfl (by simp) boundary with taken | below
    · refine .inl (.parked (t := w.loop.promises.size) (congrArg Promise.parked?
        (((Loop.adds_spawn _).promise _).trans (if_pos rfl))) ?_)
      exact (taken.trans (List.prefix_append ..).isInfix).trans (List.suffix_cons ..).isInfix
    · exact .inl (.running below)
  | @serve w request stack rest s' boundary h =>
    refine .inl (h.holds orderly.kept inside (fun v own => ?_) runs)
    rcases good.suspends with ⟨-, g, rest, -, e⟩ | ⟨other, -⟩
    · cases boundary.symm.trans e
    · exact other v own
  | nap =>
    obtain ⟨p, rfl⟩ := orderly.stands.eq_taskEnd
    simp at bare
  | taskEnd | programEnd =>
    obtain rfl := orderly.stands.eq_nil rfl
    simp at bare
  | resume idle | internal idle =>
    obtain rfl := orderly.empty idle
    simp at bare

/-- A suspended piece stays with its generator, goes on with it, or is given up with it. -/
theorem Running.Lives.holds {g : Nat} (h : s.Lives g a s') (placed : s.Placed)
    (suspended : s.world.generator g = .suspended code) (sub : piece <:+: code) :
    s'.Holds piece ∨ s.Strands piece := by
  have away : ∀ (upper caller : Stack), s.stack = upper ++ .generatorBoundary g :: caller → False := by
    intro upper caller e
    have running : s.world.generator g = .running := placed.running_of_mem (e ▸ by simp)
    cases running.symm.trans suspended
  cases h with
  | apart state => exact .inl (.suspended (state.trans suspended) sub)
  | @asked w caller mode v s' asks minor answers =>
    have same : w.generator g = .suspended code := by
      rw [World.generator, minor.generators]
      exact suspended
    cases answers with
    | starts fresh | closes fresh => cases fresh.symm.trans same
    | @goesOn code' mode told =>
      obtain rfl := GeneratorState.suspended.inj (told.symm.trans same)
      exact .inl (.running (sub.trans (List.prefix_append ..).isInfix))
    | strands told indescribable => exact .inr ⟨suspended, sub, asks, indescribable⟩
    | finished done => cases done.symm.trans same
    | busy running => cases running.symm.trans same
  | yields _ stack | refused _ stack => exact (away _ _ stack).elim
  | returns _ stack | fails _ stack => exact (away [] _ stack).elim

end Holding

/-! ### Steps of runs -/

section Runs

variable {config : Config} {program : Node} {L : Ledger} {a : Nat} {piece : Stack} {s s' : Running}

/-- **Main result.**  In a run of an accepted program whose generators yield in blocks only, a piece of code
stays together with the code that it belongs to, whatever the order of tasks, until the code above it has
an outcome.  Only a generator that is told to throw what cannot be described loses it. -/
theorem Run.holds_step (accepted : Accepted config program) (run : Run config program L s)
    (isPiece : piece.IsPiece a) (holds : s.Holds piece) (leads : s.Leads s') :
    s'.Holds piece ∨ s.Arrives piece ∨ s.Strands piece := by
  let _ : Node.Strays := ⟨program.strayLabels⟩
  let _ : Node.MainRule := .any
  obtain ⟨before, trace⟩ := run.trace
  obtain ⟨orderly, tended⟩ := trace.tended fun _ _ => trivial
  have placed := run.placed
  cases leads with
  | step next =>
    cases holds with
    | running runs =>
      have good := run.good accepted fun _ => id
      exact ((orderly.moves next).holds next good orderly placed tended isPiece runs).imp id .inl
    | @suspended g code suspended sub =>
      have rests : s.world.resting? g = some code := by rw [World.resting?, suspended]
      have lodges := World.Lodges.of_resting placed rests (sub.subset isPiece.end_mem)
      have lives := (run.lives_of_lodges lodges).2 s' next
      exact (lives.holds placed suspended sub).imp id .inr
    | parked parked sub =>
      have schedules := (Running.Leads.step next).schedules orderly tended
      rcases schedules.parked_stays tended parked with stays | rfl
      · exact .inl (.parked stays sub)
      · exact .inl (.running sub)
  | @reorder w stack loop other =>
    cases holds with
    | running runs => exact .inl (.running runs)
    | suspended suspended sub => exact .inl (.suspended suspended sub)
    | @parked t code parked sub =>
      refine .inl (.parked (t := t) ?_ sub)
      rwa [Loop.promise, other.promises, ← Loop.promise]

end Runs

end ScopeExit.Script
