import ScopeExit.Proofs.Script.Closing
/-!
Journeys of jumps.

A break or a continue is a completion that travels down the stack, from the statement that has caused it to the
frame of its target: the first construct around the statement that takes it, as the text of the program says.
On the way it passes the frames of blocks, which are drained, loops over generators, which close them, and
attempts, whose finalizers run.  The main result is that a jump comes to the frame of its target and is taken
there, unless a drain fails, a generator fails while it is closed, or a finalizer ends with something else; and
that no body of a function, of a deferred action or of the module ever completes with a jump.
-/
namespace ScopeExit

theorem ExitReason.isAbrupt_of_isJump {r : ExitReason} (jump : r.isJump = true) : r.isAbrupt = true := by
  cases r <;> first | rfl | contradiction

theorem ExitReason.calm_of_isJump {r : ExitReason} (jump : r.isJump = true) : r.isThrow = false := by
  cases r <;> first | rfl | contradiction

/-- The construct that takes a jump, as the text of the program says: the first one around it that does. -/
def ExitReason.target? (r : ExitReason) (path : Path) : Option Construct := path.find? (·.meets r)

namespace Script

open World Stack

/-! ### Constructs and frames -/

section Constructs

variable {r : ExitReason} {labels : List Text} {body : Node}

/-- A loop lets a jump pass that it does not take. -/
theorem afterPass_of_not_meets (jump : r.isJump = true)
    (passes : (Construct.loop labels body).meets r = false) : afterPass r labels = some r := by
  have targets : r.targets labels = false := by
    rw [Construct.meets, Bool.and_eq_false_iff] at passes
    rcases passes with other | passes
    · rw [ExitReason.isJump, other] at jump
      contradiction
    · exact passes
  cases r <;> first | contradiction | (simp only [afterPass, ExitReason.kind, targets]; rfl)

/-- A loop that takes a jump goes on after a continue, and ends normally after a break. -/
theorem afterPass_of_meets (meets : (Construct.loop labels body).meets r = true) :
    afterPass r labels = if r.kind = .continue then none else some .normal := by
  rw [Construct.meets, Bool.and_eq_true_iff] at meets
  cases r <;> first | (simp [ExitReason.kind] at meets; done) | (simp [afterPass, ExitReason.kind, meets.2])

theorem afterSwitch_of_not_meets (passes : (Construct.switch labels).meets r = false) : afterSwitch r labels = r :=
  if_neg (by rw [show r.isBreakOf labels = false from passes]; simp)

theorem afterSwitch_of_meets (meets : (Construct.switch labels).meets r = true) : afterSwitch r labels = .normal :=
  if_pos meets

end Constructs

/-- A completion that is a jump to another construct passes the frame. -/
structure Frame.LetsPass (r : ExitReason) (f : Frame) : Prop where
  plain : f.isPlain = true
  inside : f ≠ .functionEnd
  code : ∀ a d, f ≠ .draining a d
  other : ∀ c ∈ f.construct?, c.meets r = false

/-- What a loop does when it goes on with its next pass. -/
def Frame.goesOn (w : World) (stack : Stack) : Frame → Running
  | .whilePass loop => w.testWhile stack loop
  | .doPass loop => ⟨w, .evaluate loop.condition loop.scope, .doCondition loop :: stack⟩
  | .forPass loop scope => w.stepFor stack loop scope
  | .forOfPass loop => w.nextElement stack loop
  | _ => ⟨w, .complete .normal, stack⟩

/-- What a construct does when it ends normally before it has come to its end. -/
def Frame.breaksOff (w : World) (stack : Stack) : Frame → Running
  | .forOfPass loop => w.leaveForOf stack loop .normal
  | _ => ⟨w, .complete .normal, stack⟩

theorem Setting.path_above_of_plain (Γ : Setting) {f : Frame} (plain : f.isPlain = true) :
    (Γ.above f).path = f.construct?.toList ++ Γ.path := by
  cases f <;> first | rfl | contradiction

theorem Frame.isPlain_of_construct {f : Frame} {c : Construct} (h : f.construct? = some c) : f.isPlain = true := by
  cases f <;> first | rfl | contradiction

/-- Code stands on the action of a drain with a boundary between. -/
theorem Spans.ne_draining [Node.Strays] {w : World} {form : Form} {Γ : Region} {upper rest : Stack}
    {marks : List Mark} {q : Port} (h : Spans w (.code form Γ) (upper ++ rest) marks q)
    (plain : ∀ f ∈ upper, f.isPlain = true) : ∀ f ∈ upper, ∀ a d, f ≠ .draining a d := by
  induction upper generalizing form Γ marks with
  | nil => exact List.forall_mem_nil _
  | cons f upper ih =>
    obtain ⟨own, others⟩ := List.forall_mem_cons.mp plain
    cases h with
    | frame takes rest =>
      refine List.forall_mem_cons.mpr ⟨?_, ih rest others⟩
      rintro a d rfl
      cases takes
    | actionEnd rest =>
      refine List.forall_mem_cons.mpr ⟨by simp, ?_⟩
      cases upper with
      | nil => exact List.forall_mem_nil _
      | cons g upper => cases rest <;> simp [Frame.isPlain] at others
    | scopeBody _ rest | settling _ rest => exact List.forall_mem_cons.mpr ⟨by simp, ih rest others⟩
    | activationEnd => contradiction

/-- The frame of the first construct around some code that takes a completion. -/
theorem Stack.Open.target {stack : Stack} (h : Open stack) {program : Node} {w : World} {r : ExitReason}
    {c : Construct} (settled : stack.Settled program w) (code : ∀ {upper rest : Stack}, stack = upper ++ rest →
      (∀ f ∈ upper, f.isPlain = true) → ∀ f ∈ upper, ∀ a d, f ≠ .draining a d)
    (found : stack.setting.path.find? (·.meets r) = some c) : ∃ (upper : Stack) (f : Frame) (below rest : Stack),
      stack = upper ++ f :: (below ++ rest) ∧ f.construct? = some c ∧ c.meets r = true ∧
        below.IsPiece stack.setting.activation ∧ ∀ g ∈ upper, g.LetsPass r := by
  induction h with
  | @frame f stack plain rest ih =>
    have activation : Stack.setting (f :: stack) = stack.setting.above f := rfl
    rw [activation, Setting.path_above_of_plain _ plain] at found
    rw [activation, Setting.activation_above _ (Frame.token?_of_plain plain)]
    by_cases taken : ∃ c', f.construct? = some c' ∧ c'.meets r = true
    · obtain ⟨c', own, meets⟩ := taken
      rw [own, Option.toList_some, List.singleton_append, List.find?_cons_of_pos (by simpa using meets)] at found
      obtain rfl := Option.some.inj found
      obtain ⟨piece, lower, e, isPiece⟩ := Stack.Open.top_piece rest
      exact ⟨[], f, piece, lower, by rw [e]; rfl, own, meets, isPiece, List.forall_mem_nil _⟩
    · have other : ∀ c' ∈ f.construct?, c'.meets r = false := fun c' hc' => by
        simpa using fun meets => taken ⟨c', hc', meets⟩
      have found : stack.setting.path.find? (·.meets r) = some c := by
        cases own : f.construct? with
        | none => simpa [own] using found
        | some c' =>
          rw [own, Option.toList_some, List.singleton_append,
            List.find?_cons_of_neg (by simp [other c' own])] at found
          exact found
      have inside : f ≠ .functionEnd := by
        rintro rfl
        rw [show stack.setting.path = [] from settled.1] at found
        contradiction
      have passes : f.LetsPass r := by
        have single := code (show f :: stack = [f] ++ stack from rfl) (List.forall_mem_singleton.mpr plain)
        exact ⟨plain, inside, single f (List.mem_singleton.mpr rfl), other⟩
      have code : ∀ {upper rest : Stack}, stack = upper ++ rest → (∀ f ∈ upper, f.isPlain = true) →
          ∀ f ∈ upper, ∀ a d, f ≠ .draining a d := by
        intro upper rest e plainUpper
        have whole := code (show f :: stack = (f :: upper) ++ rest by rw [e]; rfl)
          (List.forall_mem_cons.mpr ⟨plain, plainUpper⟩)
        exact (List.forall_mem_cons.mp whole).2
      obtain ⟨upper, f', below, lower, e, own, meets, isPiece, lets⟩ := ih settled.2 code found
      exact ⟨f :: upper, f', below, lower, by rw [e]; rfl, own, meets, isPiece,
        List.forall_mem_cons.mpr ⟨passes, lets⟩⟩
  | action hb => rcases hb with rfl | rfl <;> contradiction
  | call | step | task => contradiction

/-! ### Journeys -/

/-- The way of a jump down a stack to the frame of the construct that takes it. -/
structure Journey where
  reason : ExitReason
  /-- The frames that the jump passes, the first one first. -/
  upper : Stack
  target : Frame
  construct : Construct
  /-- The code below the target down to the end of its activation. -/
  below : Stack
  activation : Nat
  isJump : reason.isJump = true
  stands : target.construct? = some construct
  meets : construct.meets reason = true
  passes : ∀ f ∈ upper, f.LetsPass reason
  isPiece : below.IsPiece activation

namespace Journey

/-- How far a jump has come. -/
inductive Stage where
  /-- The jump has come to some frames, with its target below them. -/
  | comes (frames : Stack)
  /-- A frame of the engine above them is being left. -/
  | leaves (frames : Stack)
  /-- A loop above them asks its generator to return. -/
  | closes (generator : Nat) (frames : Stack)
  /-- A finalizer above them is running. -/
  | finishes (frames : Stack)
  /-- The target has taken the jump. -/
  | taken
  | past
  /-- Something else has taken the place of the jump. -/
  | replaced
  /-- The code has been given up with the generator that it belongs to. -/
  | lost

/-- What a jump comes to next. -/
def next : Stack → Stage
  | [] => .taken
  | .scopeBody .. :: frames => .leaves frames
  | .forOfPass loop :: frames =>
    match loop.iterable with
    | .generator g => .closes g frames
    | _ => .comes frames
  | .tryBody _ finalizer _ :: frames | .catchBody finalizer _ :: frames =>
    if finalizer.isEmpty then .comes frames else .finishes frames
  | _ :: frames => .comes frames

section Stages

variable (j : Journey)

/-- Some frames with the target of the jump and the code of its activation below. -/
def way (frames : Stack) : Stack := frames ++ j.target :: j.below

/-- The target ends or goes on. -/
def takes (w : World) (rest : Stack) : Running :=
  if j.reason.kind = .continue then j.target.goesOn w (j.below ++ rest)
  else j.target.breaksOff w (j.below ++ rest)

/-- A state of a run, at a stage of a jump. -/
inductive At (config : Config) (program : Node) : Stage → Running → Prop
  /-- The frames that the jump has passed are drained, and of those below none is. -/
  | comes {frames rest : Stack} {w : World} (on : frames <:+ j.upper)
      (inOrder : Running.InOrder config program ⟨w, .complete j.reason, j.way frames ++ rest⟩) :
      At config program (.comes frames) ⟨w, .complete j.reason, j.way frames ++ rest⟩
  | leaves {frames : Stack} {b : Nat} {s : Running} (on : frames <:+ j.upper)
      (h : s.Leaves b j.reason (j.way frames)) : At config program (.leaves frames) s
  | closes {frames rest : Stack} {g : Nat} {s : Running} (on : frames <:+ j.upper)
      (h : s.Contains g (.forOfClose j.reason :: (j.way frames ++ rest))) : At config program (.closes g frames) s
  | finishes {frames : Stack} {s : Running} (on : frames <:+ j.upper)
      (h : s.Holds (.finallyBody j.reason :: j.way frames)) : At config program (.finishes frames) s
  | taken {w : World} {rest : Stack} : At config program .taken (j.takes w rest)
  | past {s : Running} : At config program .past s
  | replaced {s : Running} : At config program .replaced s
  | lost {s : Running} : At config program .lost s

/-- How a jump gets on in one step of a run. -/
inductive Turn : Stage → Running → Stage → Running → Prop
  | goes {frames : Stack} {s s' : Running} : Turn (.comes frames) s (next frames) s'
  | leaving {frames : Stack} {s s' : Running} : Turn (.leaves frames) s (.leaves frames) s'
  | drained {frames : Stack} {s s' : Running} : Turn (.leaves frames) s (.comes frames) s'
  | drainFails {frames : Stack} {s s' : Running} {failure : Failure} (h : s'.control = .raise failure) :
      Turn (.leaves frames) s .replaced s'
  | closing {g : Nat} {frames : Stack} {s s' : Running} : Turn (.closes g frames) s (.closes g frames) s'
  | closed {g : Nat} {frames : Stack} {s s' : Running} : Turn (.closes g frames) s (.comes frames) s'
  | closeFails {g : Nat} {frames : Stack} {s s' : Running} {failure : Failure}
      (h : s.control = .raise failure) : Turn (.closes g frames) s .replaced s'
  | finishing {frames : Stack} {s s' : Running} : Turn (.finishes frames) s (.finishes frames) s'
  | finished {frames : Stack} {s s' : Running} : Turn (.finishes frames) s (.comes frames) s'
  /-- The finalizer completes abruptly or fails. -/
  | finallyReplaces {frames : Stack} {s s' : Running}
      (h : (∃ r, s.control = .complete r ∧ r.isAbrupt = true) ∨ ∃ failure, s.control = .raise failure)
      (stack : .finallyBody j.reason :: j.way frames <+: s.stack) : Turn (.finishes frames) s .replaced s'
  | leavesTarget {s s' : Running} : Turn .taken s .past s'
  | stays {k : Stage} {s s' : Running} (h : k = .past ∨ k = .replaced ∨ k = .lost) : Turn k s k s'
  /-- The generator that is suspended on the way is told to throw a value that cannot be described. -/
  | strands {k : Stage} {frames : Stack} {s s' : Running} (h : k = .leaves frames ∨ k = .finishes frames)
      (strands : s.Strands (j.way frames)) : Turn k s .lost s'

end Stages

end Journey

section Steps

variable {config : Config} {program : Node} {L : Ledger} {j : Journey} {w : World} {frames rest : Stack}
  {s s' : Running}

theorem Journey.isPiece_way (j : Journey) (on : frames <:+ j.upper) : (j.way frames).IsPiece j.activation := by
  refine Stack.IsPiece.append ?_ fun f hf => Frame.isInner_of_plain (j.passes f (on.subset hf)).plain
  exact j.isPiece.cons (Frame.isInner_of_plain (Frame.isPlain_of_construct j.stands))

/-- A jump is given to code. -/
theorem Journey.at_comes (accepted : Accepted config program) (on : frames <:+ j.upper) (w : World)
    (rest : Stack) : j.At config program (.comes frames) ⟨w, .complete j.reason, j.way frames ++ rest⟩ :=
  .comes on (accepted.inOrder rfl)

theorem complete_of_calm {r : ExitReason} (calm : r.isThrow = false) (w : World) (stack : Stack) :
    w.complete stack r = ⟨w, .complete r, stack⟩ := by
  unfold World.complete
  split <;> first | rfl | contradiction

/-- The target takes the jump. -/
theorem Journey.taken_step (j : Journey) (w : World) (rest : Stack) :
    Running.step ⟨w, .complete j.reason, j.way [] ++ rest⟩ = .next (j.takes w rest) := by
  obtain ⟨reason, upper, target, construct, below, a, isJump, stands, meets, passes, isPiece⟩ := j
  simp only [Journey.way, Journey.takes, List.nil_append, List.cons_append, Running.step]
  cases target <;> first | contradiction | obtain rfl := Option.some.inj stands
  case whilePass | doPass | forPass =>
    simp only [World.onComplete, World.afterPassThen, afterPass_of_meets meets]
    by_cases again : reason.kind = .continue
    · simp only [if_pos again, Frame.goesOn]
    · simp only [if_neg again, Frame.breaksOff]
  case forOfPass =>
    simp only [World.onComplete, afterPass_of_meets meets]
    by_cases again : reason.kind = .continue
    · simp only [if_pos again, Frame.goesOn]
    · simp only [if_neg again, Frame.breaksOff]
  case switchEnd labels =>
    have breaks : reason.kind ≠ .continue := by
      intro again
      simp [Construct.meets, ExitReason.isBreakOf, again] at meets
    simp only [World.onComplete, afterSwitch_of_meets meets, if_neg breaks, Frame.breaksOff]
  case labeled labels =>
    rw [Construct.meets, Bool.and_eq_true_iff, beq_iff_eq] at meets
    have breaks : reason.kind ≠ .continue := by simp [meets.1]
    rw [if_neg breaks]
    simp only [World.onComplete, afterLabeled, meets, decide_true, Bool.and_self, if_true, Frame.breaksOff]

/-- The jump has come to a frame that lets it pass. -/
theorem Run.journey_next (accepted : Accepted config program)
    (run : Run config program L ⟨w, .complete j.reason, j.way frames ++ rest⟩) (on : frames <:+ j.upper)
    (next : Running.step ⟨w, .complete j.reason, j.way frames ++ rest⟩ = .next s') :
    j.At config program (Journey.next frames) s' := by
  cases frames with
  | nil =>
    rw [← Transition.next.inj ((j.taken_step w rest).symm.trans next)]
    exact .taken
  | cons f frames =>
    obtain ⟨plain, inside, code, other⟩ := j.passes f (on.subset (List.mem_cons_self ..))
    have below : frames <:+ j.upper := (List.suffix_cons ..).trans on
    have comes := j.at_comes accepted below w rest
    have abrupt := ExitReason.isAbrupt_of_isJump j.isJump
    have calm := ExitReason.calm_of_isJump j.isJump
    rw [← Transition.next.inj next]
    cases f with
    | statements | forStart | finallyBody =>
      simp only [World.onComplete, if_pos abrupt]
      exact comes
    | scopeEnd =>
      simp only [World.onComplete, complete_of_calm calm]
      exact comes
    | scopeBody b handle atEnd =>
      have kind : j.reason.kind ≠ .normal := by
        intro normal
        have jump := j.isJump
        simp [ExitReason.isJump, normal] at jump
      simp only [World.onComplete, if_neg kind]
      exact .leaves below leaves_leaveBody
    | whilePass | doPass | forPass =>
      simp only [World.onComplete, World.afterPassThen, afterPass_of_not_meets j.isJump (other _ rfl)]
      exact comes
    | forOfPass loop =>
      simp only [World.onComplete, afterPass_of_not_meets j.isJump (other _ rfl), World.leaveForOf, Journey.next]
      cases iterable : loop.iterable with
      | generator g =>
        have asks : Running.Asks ⟨w, .complete j.reason, j.way (.forOfPass loop :: frames) ++ rest⟩ w
            (.forOfClose j.reason :: (j.way frames ++ rest)) g .return .undefined :=
          asks_leaveForOf iterable (afterPass_of_not_meets j.isJump (other _ rfl))
        exact .closes below (run.contains_asks accepted asks asks.next)
      | _ => exact comes
    | switchEnd =>
      simp only [World.onComplete, afterSwitch_of_not_meets (other _ rfl)]
      exact comes
    | labeled labels =>
      have passes : (decide (j.reason.kind = .break) && labels.contains j.reason.label?) = false := by
        have passes := other _ rfl
        rwa [Construct.meets, beq_eq_decide] at passes
      simp only [World.onComplete, afterLabeled, passes]
      exact comes
    | tryBody handler finalizer scope | catchBody finalizer scope =>
      simp only [World.onComplete, World.finish, Journey.next, complete_of_calm calm]
      split
      · exact comes
      · exact .finishes below (.running ⟨[], rest, by simp [Journey.way]⟩)
    | draining a d => exact absurd rfl (code a d)
    | functionEnd => contradiction
    | activationEnd | callEnd | syncBoundary | asyncStart | asyncDrive | generatorBoundary | taskStart | nap
    | taskEnd | programEnd => contradiction
    | _ => exact comes

/-- A step of a run is a turn of a jump. -/
theorem Run.journey_step (accepted : Accepted config program) (run : Run config program L s)
    {k : Journey.Stage} (at_k : j.At config program k s) (leads : s.Leads s') :
    ∃ k', j.Turn k s k' s' ∧ j.At config program k' s' := by
  let _ : Node.Strays := ⟨program.strayLabels⟩
  have good := run.good accepted fun _ => id
  cases at_k with
  | comes on => exact ⟨_, .goes, run.journey_next accepted on (leads.next rfl)⟩
  | leaves on h =>
    rcases run.leaves_step accepted (j.isPiece_way on) h leads with h | h | strands
    · exact ⟨_, .leaving, .leaves on h⟩
    · cases h with
      | completes => exact ⟨_, .drained, j.at_comes accepted on _ _⟩
      | raises => exact ⟨_, .drainFails rfl, .replaced⟩
    · exact ⟨_, .strands (.inl rfl) strands, .lost⟩
  | closes on h =>
    rcases h with inside | answers
    · exact ⟨_, .closing, .closes on (run.contains_step accepted inside leads)⟩
    · cases answers with
      | pair =>
        rw [← Transition.next.inj (leads.next rfl)]
        exact ⟨_, .closed, j.at_comes accepted on _ _⟩
      | fails => exact ⟨_, .closeFails rfl, .replaced⟩
  | @finishes frames _ on h =>
    rcases run.holds_step accepted ((j.isPiece_way on).cons rfl) h leads with h | arrives | strands
    · exact ⟨_, .finishing, .finishes on h⟩
    · obtain ⟨w, c, rest, rfl, outcome⟩ := arrives.split
      have stack : .finallyBody j.reason :: j.way frames <+: .finallyBody j.reason :: j.way frames ++ rest :=
        List.prefix_append ..
      cases good.completed outcome rfl with
      | @complete r =>
        by_cases abrupt : r.isAbrupt = true
        · exact ⟨_, .finallyReplaces (.inl ⟨r, rfl, abrupt⟩) stack, .replaced⟩
        · rw [← Transition.next.inj (leads.next outcome)]
          simp only [World.onComplete, if_neg abrupt, complete_of_calm (ExitReason.calm_of_isJump j.isJump)]
          exact ⟨_, .finished, j.at_comes accepted on w rest⟩
      | raise | forced => exact ⟨_, .finallyReplaces (.inr ⟨_, rfl⟩) stack, .replaced⟩
    · exact ⟨_, .strands (.inr rfl) (strands.mono (List.suffix_cons ..).isInfix), .lost⟩
  | taken => exact ⟨_, .leavesTarget, .past⟩
  | past => exact ⟨_, .stays (.inl rfl), .past⟩
  | replaced => exact ⟨_, .stays (.inr (.inl rfl)), .replaced⟩
  | lost => exact ⟨_, .stays (.inr (.inr rfl)), .lost⟩

/-! ### Bodies -/

/-- Frames at which a body of a function, of a deferred action or of the module has completed. -/
def Frame.endsBody : Frame → Bool
  | .functionEnd | .activationEnd _ | .syncBoundary | .asyncDrive => true
  | _ => false

/-- No body completes with a jump, if every jump of the program has a target. -/
theorem Run.body_not_jump (run : Run config program L s) (meet : program.withIdentities.JumpsMeet)
    {r : ExitReason} (completes : s.control = .complete r) {f : Frame} {below : Stack}
    (stack : s.stack = f :: below) (ends : f.endsBody = true) : r.isJump = false := by
  obtain ⟨w, c, code⟩ := s
  obtain rfl : c = _ := completes
  obtain rfl : code = _ := stack
  have settled := run.settled
  have path : (Stack.setting (f :: below)).path = [] := by
    cases f <;> first | contradiction | rfl | exact settled.stack.1
  by_contra jump
  obtain ⟨c, hc, -⟩ := settled.control meet (by simpa using jump)
  rw [path] at hc
  contradiction

/-! ### Jumps of runs -/

/-- A statement that is executed stands on the action of a drain with a boundary between. -/
theorem Good.ne_draining [Node.Strays] {n : Node} {scope : Nat} {upper : Stack}
    (good : Good L ⟨w, .execute n scope, upper ++ rest⟩) (plain : ∀ f ∈ upper, f.isPlain = true) :
    ∀ f ∈ upper, ∀ a d, f ≠ .draining a d := by
  generalize e : upper ++ rest = stack at good
  cases good with
  | execute r =>
    obtain ⟨marks, spans, -⟩ := r.path
    exact Spans.ne_draining (e ▸ spans) plain
  | action r =>
    obtain ⟨marks, spans, -⟩ := r.path
    cases upper with
    | nil => exact List.forall_mem_nil _
    | cons f upper =>
      have own : f.isPlain = true := plain f (List.mem_cons_self ..)
      rw [← e] at spans
      cases spans <;> contradiction

/-- A jump that is executed sets out for its target. -/
theorem Run.sets_out (accepted : Accepted config program) (meet : program.JumpsMeet) {n : Node} {scope : Nat}
    {stack : Stack} (run : Run config program L ⟨w, .execute n scope, stack⟩) {r : ExitReason}
    (leaves : n.leaves? = some r) : ∃ (j : Journey) (path : Path) (rest : Stack) (w' : World),
      program.Occurs path n ∧ r.target? path = some j.construct ∧ j.reason = r ∧
        stack = j.way j.upper ++ rest ∧ Running.step ⟨w, .execute n scope, stack⟩ = .next ⟨w', .complete r, stack⟩ := by
  let _ : Node.Strays := ⟨program.strayLabels⟩
  let _ : Node.MainRule := .any
  have good := run.good accepted fun _ => id
  have isOpen := (run.orderly fun _ _ => trivial).isOpen rfl
  have settled := run.settled
  rw [accepted.wellFormed.withIdentities_eq] at settled
  have occurs : program.Occurs stack.setting.path n := settled.control.occurs n (List.mem_singleton.mpr rfl)
  obtain ⟨c, found⟩ : ∃ c, r.target? stack.setting.path = some c := by
    obtain ⟨c, hc, meets⟩ := meet _ n r occurs leaves
    exact Option.isSome_iff_exists.mp (List.find?_isSome.mpr ⟨c, hc, meets⟩)
  obtain ⟨upper, f, below, rest, e, stands, meets, isPiece, passes⟩ :=
    isOpen.target settled.stack (fun e plain => by cases e; exact good.ne_draining plain) found
  refine ⟨⟨r, upper, f, c, below, _, Node.isJump_of_leaves leaves, stands, meets, passes, isPiece⟩, _, rest,
    { w with stats := { w.stats with statements := w.stats.statements + 1 } }, occurs, found, rfl, ?_, ?_⟩
  · rw [Journey.way, List.append_assoc]
    exact e
  · unfold Node.leaves? at leaves
    split at leaves <;> first | contradiction | obtain rfl := Option.some.inj leaves
    all_goals
      rename_i kind
      simp only [Running.step, World.execute, kind]

/-- **Main result.**  Let every break and every continue of a program have a target, a construct around it in the
same function and in the same deferred action that takes it.  Then in every run of the program, if it is accepted
and its generators yield in blocks only, no body ever completes with a jump.  A jump that is executed sets out
for the first construct around it that takes it, and it comes there past the frames between, which have been
drained by then, innermost first, and it ends that construct or goes on with it.  Only a drain that fails, a
generator that fails when it is closed, and a finalizer that completes abruptly or fails put something else
in its place, unless the generator that its code belongs to is given up. -/
theorem Run.delivers_jumps (accepted : Accepted config program) (meet : program.JumpsMeet)
    (run : Run config program L s) :
    (∀ r f below, s.control = .complete r → s.stack = f :: below → f.endsBody = true → r.isJump = false) ∧
    ∀ n scope r, s.control = .execute n scope → n.leaves? = some r →
      ∃ (j : Journey) (path : Path) (rest : Stack) (s₁ : Running), program.Occurs path n ∧
        r.target? path = some j.construct ∧ j.reason = r ∧ s.stack = j.way j.upper ++ rest ∧ s.step = .next s₁ ∧
        ∀ u, s₁.Later u → ∃ k, s₁.Goes j.Turn (.comes j.upper) k u ∧ j.At config program k u ∧
          ∀ frames, k = .comes frames → ∃ u', u.step = .next u' ∧
            j.At config program (Journey.next frames) u' := by
  constructor
  · intro r f below completes stack ends
    exact run.body_not_jump (accepted.wellFormed.withIdentities_eq.symm ▸ meet) completes stack ends
  · intro n scope r executes leaves
    obtain ⟨w, c, stack⟩ := s
    obtain rfl : c = _ := executes
    obtain ⟨j, path, rest, w', occurs, found, rfl, rfl, next⟩ := run.sets_out accepted meet leaves
    refine ⟨j, path, rest, _, occurs, found, rfl, rfl, next, fun u later => ?_⟩
    have comes := j.at_comes accepted (List.suffix_refl _) w' rest
    obtain ⟨k, goes, at_k⟩ := (run.step next).goes (j.At config program) comes
      (fun run at_k leads => run.journey_step accepted at_k leads) later
    refine ⟨k, goes, at_k, ?_⟩
    rintro frames rfl
    obtain ⟨L', runs⟩ := (run.step next).later later
    cases at_k with
    | @comes _ rest w on =>
      obtain ⟨u', next⟩ : ∃ u', Running.step ⟨w, .complete j.reason, j.way frames ++ rest⟩ = .next u' := by
        cases frames <;> exact ⟨_, rfl⟩
      exact ⟨u', next, runs.journey_next accepted on next⟩

/-- The jump that a state executes. -/
def Running.jump? (s : Running) : Option ExitReason :=
  match s.control with
  | .execute n _ => n.leaves?
  | _ => none

theorem Running.jump?_eq_some {r : ExitReason} (h : s.jump? = some r) :
    ∃ n scope, s.control = .execute n scope ∧ n.leaves? = some r := by
  unfold Running.jump? at h
  split at h
  · rename_i control
    exact ⟨_, _, control, h⟩
  · contradiction

end Steps

/-- A break to a block around a loop, with a finalizer and a deferred action on its way. -/
def longWay : Node :=
  { kind := .program, children := [
    { kind := .labeled, label := some "a", children := [
      { kind := .block, children := [
        { kind := .whileLoop, children := [
          { kind := .literal, value := .bool true },
          { kind := .block, children := [
            { kind := .defer, children := [
              { kind := .expressionStatement, children := [{ kind := .literal, value := .bool true }] }] },
            { kind := .try, children := [
              { kind := .block, children := [{ kind := .break, label := some "a" }] },
              { kind := .empty },
              { kind := .block }] }] }] }] }] }] }

theorem wellFormed_longWay : longWay.WellFormed := by
  refine ⟨rfl, ⟨rfl, fun _ => rfl⟩, List.forall_mem_singleton.mpr ?_⟩
  refine .labeled ⟨rfl, fun _ => rfl⟩ rfl rfl (.block ⟨rfl, fun _ => rfl⟩ rfl (List.forall_mem_singleton.mpr ?_))
  refine .whileLoop ⟨rfl, fun _ => rfl⟩ rfl rfl (.leaf ⟨rfl, fun _ => rfl⟩ (.inr rfl) rfl) ?_
  refine .block ⟨rfl, fun _ => rfl⟩ rfl (List.forall_mem_cons.mpr ⟨?_, List.forall_mem_singleton.mpr ?_⟩)
  · refine .defer ⟨rfl, fun _ => rfl⟩ rfl rfl (.simple ⟨rfl, fun _ => rfl⟩ (.inl rfl) ?_)
    exact List.forall_mem_singleton.mpr (.leaf ⟨rfl, fun _ => rfl⟩ (.inr rfl) rfl)
  · refine .attempt ⟨rfl, fun _ => rfl⟩ rfl rfl ?_ (.noHandler ⟨rfl, fun _ => rfl⟩ rfl rfl)
      (.block ⟨rfl, fun _ => rfl⟩ rfl (List.forall_mem_nil _))
    refine .block ⟨rfl, fun _ => rfl⟩ rfl (List.forall_mem_singleton.mpr ?_)
    exact .jump ⟨rfl, fun _ => rfl⟩ (.inl rfl) rfl

theorem accepted_longWay : Accepted {} longWay := ⟨wellFormed_longWay, by decide +kernel, _, rfl⟩

theorem jumpsMeet_longWay : longWay.JumpsMeet :=
  Node.jumpsMeet_of_level (k := 7) (by decide +kernel) (by decide +kernel)

/-- The break comes through the finalizer and the drain to the labeled statement, which it ends. -/
theorem delivers_jumps_longWay : ∃ (n : Node) (scope : Nat) (j : Journey) (s₁ : Running),
    (observed {} longWay 13).2.control = .execute n scope ∧ n.leaves? = some (.breaking (some "a")) ∧
    j.reason = .breaking (some "a") ∧ (observed {} longWay 13).2.step = .next s₁ ∧
    ∀ u, s₁.Later u → ∃ k, s₁.Goes j.Turn (.comes j.upper) k u ∧ j.At {} longWay k u := by
  have jumps : (observed {} longWay 13).2.jump? = some (.breaking (some "a")) := rfl
  obtain ⟨n, scope, executes, leaves⟩ := Running.jump?_eq_some jumps
  obtain ⟨-, delivers⟩ := (Run.observed {} longWay 13).delivers_jumps accepted_longWay jumpsMeet_longWay
  obtain ⟨j, path, rest, s₁, -, -, reason, -, next, goes⟩ := delivers n scope _ executes leaves
  refine ⟨n, scope, j, s₁, executes, leaves, reason, next, fun u later => ?_⟩
  obtain ⟨k, goes, at_k, -⟩ := goes u later
  exact ⟨k, goes, at_k⟩

end Script

end ScopeExit
