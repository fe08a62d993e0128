import ScopeExit.Proofs.Script.Exits
/-!
Loops over generators.

A loop over a generator asks it for an element, runs an iteration with the element, and asks again.  When an
iteration ends the loop, the loop asks the generator to return, once, and goes on to its own exit reason when
the generator has answered.  `GeneratorLoop.follows`, `found` and `closed` say what the loop comes to; the main
result is that every run takes a loop through exactly these stages, whatever the generator does when it is
closed.

The steps of a generator are never suspended: while the loop waits for an answer the code of the generator runs
above its boundary.  An iteration may be suspended for as long as it likes.
-/
namespace ScopeExit.Script

open World Stack

/-- A loop over a generator, with the code below it down to the end of its activation. -/
structure GeneratorLoop where
  loop : ElementLoop
  generator : Nat
  activation : Nat
  below : Stack
  iterates : loop.iterable = .generator generator
  isPiece : below.IsPiece activation

namespace GeneratorLoop

/-- How far a loop has come. -/
inductive Stage where
  /-- The generator is asked for the next element. -/
  | asks
  /-- An iteration is running. -/
  | runs
  /-- The iteration has come to an exit reason. -/
  | ends (reason : ExitReason)
  /-- The generator is asked to return, while an exit reason is pending. -/
  | closes (pending : ExitReason)
  /-- The loop has come to an exit reason. -/
  | results (reason : ExitReason)
  | past
  /-- The iteration has been given up with the generator that its code belongs to. -/
  | lost

/-- The stages of a loop that is not over, apart from its iterations. -/
def Stage.isPrompt : Stage → Bool
  | .runs | .past | .lost => false
  | _ => true

/-- What the loop makes of the answer of the generator to the request for an element. -/
def found : Control → Stage
  | .resumed _ false => .runs
  | .raise failure => .results (.throwing (some failure))
  | _ => .results .normal

/-- What the loop makes of the answer of the generator to the request to return: a failure takes the place of
what is pending, unless that is a failure too. -/
def closed (pending : ExitReason) : Control → Stage
  | .raise failure => .results (if pending.isThrow then pending else .throwing (some failure))
  | _ => .results pending

section Stages

variable (l : GeneratorLoop)

/-- What follows an iteration that has come to an exit reason. -/
def follows (reason : ExitReason) : Stage :=
  match afterPass reason l.loop.labels with
  | none => .asks
  | some pending => .closes pending

/-- What the loop asks the generator for after an iteration. -/
def mode (reason : ExitReason) : ResumeMode :=
  if (afterPass reason l.loop.labels).isSome then .return else .next

/-- The frame that waits while the generator is closed. -/
def closeFrame : ExitReason → Frame
  | .throwing (some failure) => .forOfAbort failure
  | pending => .forOfClose pending

/-- The generator runs for the loop, with a frame of the loop waiting for the answer. -/
def Waits (f : Frame) (s : Running) : Prop := ∃ rest, s.Inside l.generator (f :: (l.below ++ rest))

/-- The generator has answered. -/
def Answered (f : Frame) (s : Running) : Prop := ∃ rest, s.Answers (f :: (l.below ++ rest))

/-- A state of a run, at a stage of a loop. -/
inductive At (config : Config) (program : Node) : Stage → Running → Prop
  | asks {s : Running} (h : l.Waits (.forOfNext l.loop) s ∨ l.Answered (.forOfNext l.loop) s) :
      At config program .asks s
  | runs {s : Running} (h : s.InFrame (.forOfPass l.loop :: l.below)) : At config program .runs s
  /-- The frame of the iteration is drained, and those around the loop are not. -/
  | ends {reason : ExitReason} {s : Running} (h : s.Gives reason (.forOfPass l.loop :: l.below))
      (inOrder : s.InOrder config program) : At config program (.ends reason) s
  | closes {pending : ExitReason} {s : Running} (ordinary : pending.IsOrdinary)
      (h : l.Waits (closeFrame pending) s ∨ l.Answered (closeFrame pending) s) : At config program (.closes pending) s
  | results {reason : ExitReason} {s : Running} (h : s.Gives reason l.below) : At config program (.results reason) s
  | past {s : Running} : At config program .past s
  | lost {s : Running} : At config program .lost s

/-- How a loop gets on in one step of a run. -/
inductive Turn : Stage → Running → Stage → Running → Prop
  | waits {s s' : Running} (h : l.Waits (.forOfNext l.loop) s) : Turn .asks s .asks s'
  | finds {s s' : Running} (h : l.Answered (.forOfNext l.loop) s) : Turn .asks s (found s.control) s'
  | goesOn {s s' : Running} : Turn .runs s .runs s'
  | ends {reason : ExitReason} {s s' : Running} : Turn .runs s (.ends reason) s'
  | follows {reason : ExitReason} {s s' : Running} {w : World} {caller : Stack}
      (asks : s.Asks w caller l.generator (l.mode reason) .undefined) :
      Turn (.ends reason) s (l.follows reason) s'
  | closing {pending : ExitReason} {s s' : Running} (h : l.Waits (closeFrame pending) s) :
      Turn (.closes pending) s (.closes pending) s'
  | closed {pending : ExitReason} {s s' : Running} (h : l.Answered (closeFrame pending) s) :
      Turn (.closes pending) s (closed pending s.control) s'
  | leaves {reason : ExitReason} {s s' : Running} : Turn (.results reason) s .past s'
  | stays {s s' : Running} : Turn .past s .past s'
  /-- The generator that is suspended in the iteration is told to throw a value that cannot be described. -/
  | strands {s s' : Running} (h : s.Strands (.forOfPass l.loop :: l.below)) : Turn .runs s .lost s'
  | staysLost {s s' : Running} : Turn .lost s .lost s'

end Stages

end GeneratorLoop

section Steps

variable {config : Config} {program : Node} {L : Ledger} {l : GeneratorLoop} {w : World} {g : Nat}
  {caller rest : Stack} {f : Frame} {r : ExitReason} {s s' : Running}

/-- A loop lets no failure come out of a completion. -/
theorem calm_afterPass {r r' : ExitReason} {labels : List Text} (calm : r.isThrow = false)
    (e : afterPass r labels = some r') : r'.isThrow = false := by
  unfold afterPass at e
  split at e
  · contradiction
  · contradiction
  · split at e
    · contradiction
    · exact Option.some.inj e ▸ calm
  · split at e
    · exact Option.some.inj e ▸ rfl
    · exact Option.some.inj e ▸ calm
  · exact Option.some.inj e ▸ calm

theorem GeneratorLoop.isPiece_pass (l : GeneratorLoop) :
    Stack.IsPiece l.activation (.forOfPass l.loop :: l.below) := l.isPiece.cons rfl

/-- The step of a generator goes on, or it is over. -/
theorem Run.contains_step (accepted : Accepted config program) (run : Run config program L s)
    (inside : s.Inside g caller) (leads : s.Leads s') : s'.Contains g caller := by
  let _ : Node.Strays := ⟨program.strayLabels⟩
  have good := run.good accepted fun _ => id
  cases leads with
  | step next =>
    obtain ⟨t, step, contains⟩ := good.inside inside
    rwa [Transition.next.inj (next.symm.trans step)]
  | reorder =>
    -- parked code leaves no stack behind
    obtain ⟨upper, stack, -⟩ := inside
    cases good
    simp at stack

theorem Run.contains_asks (accepted : Accepted config program) (run : Run config program L s) {mode : ResumeMode}
    {v : Value} (asks : s.Asks w caller g mode v) (next : s.step = .next s') : s'.Contains g caller := by
  let _ : Node.Strays := ⟨program.strayLabels⟩
  obtain ⟨loc, sys⟩ := (run.good accepted fun _ => id).sys
  rw [Transition.next.inj (next.symm.trans asks.next)]
  exact contains_resume (sys.localGenerators.same asks.generators) caller g mode v

theorem Running.Contains.split (h : s.Contains l.generator (f :: (l.below ++ rest))) :
    l.Waits f s ∨ l.Answered f s := h.imp (fun h => ⟨rest, h⟩) fun h => ⟨rest, h⟩

theorem inFrame_runElement {piece : Stack} (loop : ElementLoop) (v : Value) (w : World) (rest : Stack) :
    (w.runElement (piece ++ rest) loop v).InFrame (.forOfPass loop :: piece) :=
  inFrame_enterFrame (List.cons_prefix_cons.mpr ⟨rfl, List.prefix_append ..⟩)

/-- The generator has answered the request for an element. -/
theorem GeneratorLoop.at_found (l : GeneratorLoop) (h : l.Answered (.forOfNext l.loop) s)
    (next : s.step = .next s') : l.At config program (found s.control) s' := by
  obtain ⟨rest, h⟩ := h
  cases h with
  | @pair w v done =>
    rw [← Transition.next.inj next]
    cases done with
    | true => exact .results (.completes rfl)
    | false => exact .runs (inFrame_runElement l.loop v w rest)
  | fails clean =>
    rw [← Transition.next.inj next]
    exact .results (.fails rfl (Failure.Clean.isException clean))

/-- The generator has answered the request to return. -/
theorem GeneratorLoop.at_closed (l : GeneratorLoop) (ordinary : r.IsOrdinary)
    (h : l.Answered (closeFrame r) s) (next : s.step = .next s') :
    l.At config program (closed r s.control) s' := by
  obtain ⟨rest, h⟩ := h
  by_cases thrown : r.isThrow = true
  · obtain ⟨failure, rfl⟩ : ∃ failure, r = .throwing (some failure) := by
      cases r with
      | throwing e =>
        obtain ⟨failure, rfl, -⟩ := ordinary e rfl
        exact ⟨failure, rfl⟩
      | _ => contradiction
    obtain ⟨_, e, exception⟩ := ordinary _ rfl
    obtain rfl := Option.some.inj e
    cases h with
    | pair =>
      rw [← Transition.next.inj next]
      exact .results (.fails rfl exception)
    | fails clean =>
      rw [← Transition.next.inj next]
      simp only [closeFrame, World.onRaise, if_pos (Failure.Clean.isException clean)]
      exact .results (.fails rfl exception)
  · have calm : r.isThrow = false := by simpa using thrown
    have frame : closeFrame r = .forOfClose r := by
      cases r <;> first | rfl | contradiction
    rw [frame] at h
    cases h with
    | pair =>
      rw [← Transition.next.inj next]
      exact .results (.completes calm)
    | fails clean =>
      rw [← Transition.next.inj next]
      simp only [closed, if_neg thrown]
      exact .results (.fails rfl (Failure.Clean.isException clean))

/-- After an iteration the loop asks the generator for the next element, or to return. -/
theorem GeneratorLoop.asks_follows (l : GeneratorLoop) (h : s.Gives r (.forOfPass l.loop :: l.below)) :
    (∃ w rest, l.follows r = .asks ∧
      s.Asks w (.forOfNext l.loop :: (l.below ++ rest)) l.generator (l.mode r) .undefined) ∨
      ∃ w rest pending, l.follows r = .closes pending ∧ pending.IsOrdinary ∧
        s.Asks w (closeFrame pending :: (l.below ++ rest)) l.generator (l.mode r) .undefined := by
  unfold GeneratorLoop.follows GeneratorLoop.mode
  cases h with
  | @completes w rest calm =>
    cases leaves : afterPass r l.loop.labels with
    | none =>
      refine .inl ⟨w, rest, rfl, ?_, rfl⟩
      simp only [List.cons_append, Running.step, World.onComplete, leaves, World.nextElement, l.iterates]
      rfl
    | some pending =>
      have calm' : pending.isThrow = false := calm_afterPass calm leaves
      have frame : closeFrame pending = .forOfClose pending := by
        cases pending <;> first | rfl | contradiction
      refine .inr ⟨w, rest, pending, rfl, ExitReason.isOrdinary_of_calm calm', ?_⟩
      rw [frame]
      exact asks_leaveForOf l.iterates leaves
  | @fails w rest failure reason exception =>
    obtain rfl := reason
    exact .inr ⟨w, rest, _, rfl, ExitReason.isOrdinary_throwing exception,
      asks_abandonForOf l.iterates exception⟩

/-- A step of a run is a turn of a loop. -/
theorem Run.loop_step (accepted : Accepted config program) (run : Run config program L s)
    {k : GeneratorLoop.Stage} (at_k : l.At config program k s) (leads : s.Leads s') :
    ∃ k', l.Turn k s k' s' ∧ l.At config program k' s' := by
  cases at_k with
  | asks h =>
    rcases h with ⟨rest, inside⟩ | answered
    · exact ⟨_, .waits ⟨rest, inside⟩, .asks (run.contains_step accepted inside leads).split⟩
    · have outcome : s.control.isOutcome = true := by
        obtain ⟨rest, answers⟩ := answered
        cases answers <;> rfl
      exact ⟨_, .finds answered, l.at_found answered (leads.next outcome)⟩
  | runs h =>
    rcases run.inFrame_step accepted l.isPiece_pass h leads with h | ⟨r, h⟩ | strands
    · exact ⟨_, .goesOn, .runs h⟩
    · obtain ⟨r, gives⟩ := h.gives
      exact ⟨_, .ends, .ends gives (accepted.inOrder gives.outcome)⟩
    · exact ⟨_, .strands strands, .lost⟩
  | ends h =>
    have next := leads.next h.outcome
    rcases l.asks_follows h with ⟨w, rest, e, asks⟩ | ⟨w, rest, pending, e, ordinary, asks⟩
    · refine ⟨_, .follows asks, ?_⟩
      rw [e]
      exact .asks (run.contains_asks accepted asks next).split
    · refine ⟨_, .follows asks, ?_⟩
      rw [e]
      exact .closes ordinary (run.contains_asks accepted asks next).split
  | closes ordinary h =>
    rcases h with ⟨rest, inside⟩ | answered
    · exact ⟨_, .closing ⟨rest, inside⟩, .closes ordinary (run.contains_step accepted inside leads).split⟩
    · have outcome : s.control.isOutcome = true := by
        obtain ⟨rest, answers⟩ := answered
        cases answers <;> rfl
      exact ⟨_, .closed answered, l.at_closed ordinary answered (leads.next outcome)⟩
  | results => exact ⟨_, .leaves, .past⟩
  | past => exact ⟨_, .stays, .past⟩
  | lost => exact ⟨_, .staysLost, .lost⟩

/-- In its own stages a loop gets on. -/
theorem Run.loop_prompt (accepted : Accepted config program) (run : Run config program L s)
    {k : GeneratorLoop.Stage} (at_k : l.At config program k s) (prompt : k.isPrompt = true) :
    ∃ s', s.step = .next s' := by
  let _ : Node.Strays := ⟨program.strayLabels⟩
  have good := run.good accepted fun _ => id
  have waits : ∀ {f : Frame}, l.Waits f s ∨ l.Answered f s → ∃ s', s.step = .next s' := by
    rintro f (⟨rest, inside⟩ | ⟨rest, answers⟩)
    · obtain ⟨s', next, -⟩ := good.inside inside
      exact ⟨s', next⟩
    · cases answers <;> exact ⟨_, rfl⟩
  have gives : ∀ {piece : Stack} {r : ExitReason}, piece ≠ [] → s.Gives r piece → ∃ s', s.step = .next s' := by
    rintro (_ | ⟨f, piece⟩) r other h
    · contradiction
    · cases h <;> exact ⟨_, rfl⟩
  cases at_k with
  | asks h | closes _ h => exact waits h
  | ends h => exact gives (by simp) h
  | results h => exact gives l.isPiece.ne_nil h
  | runs | past | lost => contradiction

/-- What a loop runs over has arrived at code that has a body for it. -/
theorem Good.iterates [Node.Strays] {node : Node} {scope : Nat} {labels : List Text} {v : Value} {stack : Stack}
    (good : Good L ⟨w, .value v, .forOfSubject node scope labels :: stack⟩) :
    ∃ iterable body, node.children = [iterable, body] := by
  cases good with
  | value r form =>
    obtain ⟨marks, spans, -⟩ := r.path
    cases spans with
    | frame takes =>
      cases takes with
      | forOfSubject children => exact ⟨_, _, children⟩

/-- **Main result.**  In every run of an accepted program whose generators yield in blocks only, whatever the
order of its tasks, a loop that has got a generator to run over goes through the stages of a loop, one turn after
another, unless a generator that its own code belongs to is given up while an iteration is suspended.  Outside of
its iterations nothing holds the loop up. -/
theorem Run.closes_generators (accepted : Accepted config program) (run : Run config program L s) {node : Node}
    {scope : Nat} {labels : List Text} {stack : Stack} (iterates : s.control = .value (.generator g))
    (loops : s.stack = .forOfSubject node scope labels :: stack) :
    ∃ (l : GeneratorLoop) (rest : Stack) (s₁ : Running),
      (l.generator = g ∧ l.loop.name = node.name ∧ l.loop.labels = labels ∧ l.loop.scope = scope ∧
        node.children[1]? = some l.loop.body) ∧ stack = l.below ++ rest ∧ s.step = .next s₁ ∧
      ∀ u, s₁.Later u → ∃ k, s₁.Goes l.Turn .asks k u ∧ l.At config program k u ∧
        (k.isPrompt = true → ∃ u', u.step = .next u') := by
  let _ : Node.Strays := ⟨program.strayLabels⟩
  let _ : Node.MainRule := .any
  obtain ⟨w, c, code⟩ := s
  obtain rfl : c = _ := iterates
  obtain rfl : code = _ := loops
  obtain ⟨iterable, body, children⟩ := (run.good accepted fun _ => id).iterates
  have isOpen : Open stack := by
    cases (run.orderly fun _ _ => trivial).stands with
    | code h =>
      cases h with
      | frame _ rest => exact rest
      | action hb => rcases hb with hb | hb <;> contradiction
    | boundary hb => rcases hb with hb | hb <;> contradiction
    | bottom h => contradiction
  obtain ⟨below, rest, rfl, isPiece⟩ := Stack.Open.top_piece isOpen
  let l : GeneratorLoop :=
    ⟨{ name := node.name, body, scope, labels, iterable := .generator g, position := 0 }, g, _, below, rfl, isPiece⟩
  have asks : Running.Asks ⟨w, .value (.generator g), .forOfSubject node scope labels :: (below ++ rest)⟩ w
      (.forOfNext l.loop :: (l.below ++ rest)) l.generator .next .undefined := by
    refine ⟨?_, rfl⟩
    simp only [Running.step, World.onValue, World.startForOf, children, List.getElem?_cons_succ,
      List.getElem?_cons_zero, World.nextElement]
    rfl
  have first : l.At config program .asks (w.resume (.forOfNext l.loop :: (l.below ++ rest)) g .next .undefined) :=
    .asks (run.contains_asks accepted asks asks.next).split
  refine ⟨l, rest, _, ⟨rfl, rfl, rfl, rfl, by rw [children]; rfl⟩, rfl, asks.next, fun u later => ?_⟩
  obtain ⟨k, goes, at_k⟩ := (run.step asks.next).goes (l.At config program) first
    (fun run at_k leads => run.loop_step accepted at_k leads) later
  obtain ⟨L', runs⟩ := (run.step asks.next).later later
  exact ⟨k, goes, at_k, fun prompt => runs.loop_prompt accepted at_k prompt⟩

/-- The generator that a loop has got in a state. -/
def Running.iterates? (s : Running) : Option Nat :=
  match s.control, s.stack with
  | .value (.generator g), .forOfSubject .. :: _ => some g
  | _, _ => none

theorem Running.iterates?_eq_some (h : s.iterates? = some g) : ∃ node scope labels stack,
    s.control = .value (.generator g) ∧ s.stack = .forOfSubject node scope labels :: stack := by
  unfold Running.iterates? at h
  split at h
  · rename_i control stack
    obtain rfl := Option.some.inj h
    exact ⟨_, _, _, _, control, stack⟩
  · contradiction

end Steps

/-- The loop that is left in its first iteration asks for an element once, and once to return. -/
theorem closes_generators_leftLoop : ∃ (l : GeneratorLoop) (s₁ : Running),
    (observed {} (leftLoop []) 7).2.step = .next s₁ ∧ (observed {} (leftLoop []) 18).2.closes? = some l.generator ∧
    ∀ u, s₁.Later u → ∃ k, s₁.Goes l.Turn .asks k u ∧ l.At {} (leftLoop []) k u := by
  have iterates : (observed {} (leftLoop []) 7).2.iterates? = some 0 := by decide +kernel
  have closes : (observed {} (leftLoop []) 18).2.closes? = some 0 := by decide +kernel
  obtain ⟨node, scope, labels, stack, control, loops⟩ := Running.iterates?_eq_some iterates
  obtain ⟨l, rest, s₁, ⟨e, -⟩, -, next, goes⟩ :=
    (Run.observed {} (leftLoop []) 7).closes_generators accepted_leftLoop control loops
  refine ⟨l, s₁, next, closes.trans (congrArg some e.symm), fun u later => ?_⟩
  obtain ⟨k, goes, at_k, -⟩ := goes u later
  exact ⟨k, goes, at_k⟩

end ScopeExit.Script
