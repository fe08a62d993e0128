import Mathlib.Data.List.Basic
import ScopeExit.Proofs.Loop.Waking
import ScopeExit.Proofs.Script.Steps
/-!
What a step means for the tasks.

Every promise that the program has made belongs to one task, or was settled from the start.  The code of
the task ends with the frame that settles the promise, wherever the code is: on the stack or parked with
the promise.  So a promise is settled once, by its own task, and a promise that is not settled yet has
code that is still to run.  `Schedules` says what each of the moves does to tasks and promises, and
`Tended` is what all of them keep.
-/
namespace ScopeExit.Script

open World Stack

/-! ### Events -/

/-- An await: the task that the awaiting code belongs to, the promise, and the code that the answer
goes to. -/
structure Await where
  task : Nat
  promise : Nat
  code : Stack

/-- The await of a promise that a state evaluates.  Before its first suspension a body runs on the stack
of its caller, and the await makes a task of it. -/
def Running.await? (s : Running) : Option Await :=
  match s.control, s.stack.fromBoundary with
  | .suspend (.await (.promise p)), .asyncDrive :: _ => some ⟨s.world.current, p, s.stack⟩
  | .suspend (.await (.promise p)), .asyncStart :: _ =>
    let task := s.world.loop.promises.size
    some ⟨task, p, s.stack.segment ++ [.asyncDrive, .taskEnd task]⟩
  | _, _ => none

/-- The promise of a body that ends with a failure in a state, and the failure.  A body that ends before
its first suspension makes its promise only then, and only if scripts may see the failure. -/
def Running.rejects? (s : Running) : Option (Nat × Failure) :=
  match s.control, s.stack with
  | .raise failure, .asyncStart :: _ =>
    if failure.isException then some (s.world.loop.promises.size, failure) else none
  | .raise failure, .taskEnd p :: _ => some (p, failure)
  | _, _ => none

/-! ### Whose code it is -/

/-- The code of a task ends with the end of the task, and that of the program with the end of the
program. -/
def World.Owns (w : World) (t : Nat) (code : Stack) : Prop :=
  code.getLast? = some (.taskEnd t) ∧ t ∈ w.tracked ∨ code.getLast? = some .programEnd ∧ t = 0

/-- The promises of a world and the code that is parked with them. -/
structure World.Tended (w : World) : Prop where
  /-- There is the promise of the program. -/
  main : 0 < w.loop.promises.size
  minded : ∃ cause, w.loop.Minds cause
  /-- Timers settle promises of their own. -/
  rings : ∀ p, w.loop.Rings p → 0 < p ∧ p < w.loop.promises.size ∧ p ∉ w.tracked ∧
    ∀ o, w.loop.outcome? p = some o → o = .ok .null
  sorted : w.tracked.toList.Pairwise (· < ·)
  made : ∀ p ∈ w.tracked, 0 < p ∧ p < w.loop.promises.size
  parked : ∀ t code, (w.loop.promise t).parked? = some code →
    w.loop.outcome? t = none ∧ w.Owns t code

/-- A task that is running: its promise is to be settled by the code that runs. -/
structure World.Drives (w : World) (t : Nat) (code : Stack) : Prop where
  away : (w.loop.promise t).parked? = none
  pending : w.loop.outcome? t = none
  owns : w.Owns t code

/-- What holds of tasks and promises in every state of a run. -/
structure Running.Tended (s : Running) : Prop where
  world : s.world.Tended
  running : s.stack ≠ [] → s.world.Drives s.world.current s.stack
  /-- The code of the program runs no more when the program has ended. -/
  ended : s.world.ending? ≠ none →
    (s.world.loop.promise 0).parked? = none ∧ (s.stack ≠ [] → s.world.current ≠ 0)

/-- Old promises stay, and so does what the program has made. -/
structure World.Extends (w w' : World) : Prop where
  size : w.loop.promises.size ≤ w'.loop.promises.size
  promise : ∀ t < w.loop.promises.size, w'.loop.promise t = w.loop.promise t
  tracked : ∀ p ∈ w.tracked, p ∈ w'.tracked

section Owns

variable {w w' : World} {t : Nat} {code code' : Stack}

theorem World.Owns.mono (h : w.Owns t code) (tracked : ∀ p ∈ w.tracked, p ∈ w'.tracked)
    (bottom : code'.getLast? = code.getLast?) : w'.Owns t code' :=
  h.imp (fun h => ⟨bottom.trans h.1, tracked t h.2⟩) fun h => ⟨bottom.trans h.1, h.2⟩

theorem World.Tended.inside (h : w.Tended) (owns : w.Owns t code) : t < w.loop.promises.size := by
  rcases owns with ⟨-, ht⟩ | ⟨-, rfl⟩
  · exact (h.made t ht).2
  · exact h.main

theorem World.Extends.refl (w : World) : w.Extends w := ⟨Nat.le_refl _, fun _ _ => rfl, fun _ => id⟩

theorem World.Extends.trans {w'' : World} (h : w.Extends w') (h' : w'.Extends w'') : w.Extends w'' where
  size := Nat.le_trans h.size h'.size
  promise t ht := (h'.promise t (Nat.lt_of_lt_of_le ht h.size)).trans (h.promise t ht)
  tracked p hp := h'.tracked p (h.tracked p hp)

theorem World.Extends.outcome (h : w.Extends w') (inside : t < w.loop.promises.size) :
    w'.loop.outcome? t = w.loop.outcome? t := by
  rw [Loop.outcome?, h.promise t inside, Loop.outcome?]

theorem World.Drives.mono (h : w.Drives t code) (tended : w.Tended) (extend : w.Extends w')
    (bottom : code'.getLast? = code.getLast?) : w'.Drives t code' where
  away := by
    rw [extend.promise t (tended.inside h.owns)]
    exact h.away
  pending := (extend.outcome (tended.inside h.owns)).trans h.pending
  owns := h.owns.mono extend.tracked bottom

end Owns

/-! ### New promises -/

section Making

variable {w w' : World} {q : Promise Stack}

/-- The program makes a promise. -/
structure World.Makes (w : World) (q : Promise Stack) (w' : World) : Prop where
  adds : w.loop.Adds q w'.loop
  tracked : w'.tracked = w.tracked.push w.loop.promises.size
  code : ∀ code, q.parked? = some code →
    q.outcome? = none ∧ code.getLast? = some (.taskEnd w.loop.promises.size)

theorem World.Makes.extends (h : w.Makes q w') : w.Extends w' where
  size := by
    rw [h.adds.size]
    exact Nat.le_succ _
  promise t ht := by rw [h.adds.promise, if_neg (Nat.ne_of_lt ht)]
  tracked p hp := by
    rw [h.tracked]
    exact Array.mem_push_of_mem _ hp

theorem World.Makes.tended (h : w.Makes q w') (before : w.Tended) : w'.Tended := by
  have size := h.adds.size
  have tracked : ∀ p, p ∈ w'.tracked ↔ p ∈ w.tracked ∨ p = w.loop.promises.size := by
    intro p
    rw [h.tracked]
    exact Array.mem_push
  refine ⟨by omega, ?_, fun p hp => ?_, ?_, fun p hp => ?_, fun t code e => ?_⟩
  · obtain ⟨cause, minds⟩ := before.minded
    obtain ⟨c?, minds'⟩ := h.adds.minds cause minds
    exact ⟨_, minds'⟩
  · obtain ⟨positive, inside, untracked, settled⟩ := before.rings p (h.adds.rings p hp)
    refine ⟨positive, by omega, fun ht => ?_, fun o e => settled o ?_⟩
    · rcases (tracked p).mp ht with ht | ht
      · exact untracked ht
      · omega
    · rwa [← h.extends.outcome inside]
  · rw [h.tracked, Array.toList_push, List.pairwise_append]
    refine ⟨before.sorted, List.pairwise_singleton _ _, fun p hp q hq => ?_⟩
    rw [List.mem_singleton.mp hq]
    exact (before.made p (Array.mem_toList_iff.mp hp)).2
  · rcases (tracked p).mp hp with hp | rfl
    · have := before.made p hp
      omega
    · have := before.main
      omega
  · rw [h.adds.promise] at e
    split at e
    · rename_i new
      obtain ⟨pending, bottom⟩ := h.code code e
      rw [Loop.outcome?, h.adds.promise, if_pos new, new]
      exact ⟨pending, .inl ⟨bottom, (tracked _).mpr (.inr rfl)⟩⟩
    · obtain ⟨pending, owns⟩ := before.parked t code e
      have inside := before.inside owns
      exact ⟨(h.extends.outcome inside).trans pending, owns.mono h.extends.tracked rfl⟩

theorem makes_spawn (code : Stack) (bottom : code.getLast? = some (.taskEnd w.loop.promises.size))
    (loop : w'.loop = (w.loop.spawn code).2) (tracked : w'.tracked = w.tracked.push w.loop.promises.size) :
    w.Makes { parked? := some code } w' where
  adds := by
    rw [loop]
    exact Loop.adds_spawn code
  tracked := tracked
  code c e := by
    obtain rfl := Option.some.inj e
    exact ⟨rfl, bottom⟩

theorem makes_settled (o : Outcome) : w.Makes { outcome? := some o } (w.settledPromise o).2 where
  adds := Loop.adds_add rfl
  tracked := rfl
  code _ e := by cases e

theorem makes_nap {seconds : Float}
    (loop : w'.loop = (w.loop.spawn [.nap seconds, .taskEnd w.loop.promises.size]).2)
    (tracked : w'.tracked = w.tracked.push w.loop.promises.size) :
    w.Makes { parked? := some [.nap seconds, .taskEnd w.loop.promises.size] } w' :=
  makes_spawn _ rfl loop tracked

theorem World.Tended.congr (h : w.Tended) (loop : w'.loop = w.loop) (tracked : w'.tracked = w.tracked) :
    w'.Tended := by
  refine ⟨loop ▸ h.main, loop ▸ h.minded, ?_, tracked ▸ h.sorted, ?_, fun t code e => ?_⟩
  · rw [loop, tracked]
    exact h.rings
  · rw [loop, tracked]
    exact h.made
  · rw [loop] at e ⊢
    obtain ⟨pending, owns⟩ := h.parked t code e
    exact ⟨pending, owns.mono (fun p hp => tracked ▸ hp) rfl⟩

theorem Naps.extends (h : Naps w w') : w.Extends w' := by
  induction h with
  | none loop tracked =>
    exact ⟨Nat.le_of_eq (by rw [loop]), fun _ _ => by rw [loop], fun _ hp => tracked ▸ hp⟩
  | nap _ seconds loop tracked ih => exact ih.trans (makes_nap loop tracked).extends

theorem Naps.tended (h : Naps w w') (before : w.Tended) : w'.Tended := by
  induction h with
  | none loop tracked => exact before.congr loop tracked
  | nap _ seconds loop tracked ih => exact (makes_nap loop tracked).tended ih

/-- What the loop does by itself. -/
theorem World.Tended.turns (h : w.Tended) {loop : Loop Stack} (next : w.loop.next = .internal loop) :
    w.loop.Turns loop := Loop.turns_internal next fun p hp => (h.rings p hp).2.2.2

end Making

/-! ### Steps -/

/-- What is left of a stack, or has grown from it: code of the same task, which has taken its first
step. -/
structure Stack.Continues (stack stack' : Stack) : Prop where
  bottom : stack' ≠ [] → stack ≠ [] ∧ stack'.getLast? = stack.getLast?
  started : ¬ IsFirst stack'

/-- What a step means for tasks and promises. -/
inductive Running.Schedules (s : Running) : Running → Prop
  /-- The code of the task goes on, and may have made tasks that sleep. -/
  | goesOn {s' : Running} (naps : Naps s.world s'.world) (current : s'.world.current = s.world.current)
      (ending : s'.world.ending? = s.world.ending?) (stack : s.stack.Continues s'.stack) : Schedules s s'
  /-- The body of an asynchronous function has ended before its first suspension. -/
  | settles {c : Control} {stack : Stack} (o : Outcome)
      (failed : ∀ e, o = .error e → s.rejects? = some (s.world.loop.promises.size, e))
      (continues : s.stack.Continues stack) : Schedules s ⟨(s.world.settledPromise o).2, c, stack⟩
  /-- The body becomes a task at its first suspension. -/
  | spawns {request : Request} {c : Control} {rest : Stack} (asks : s.control = .suspend request)
      (boundary : s.stack.fromBoundary = .asyncStart :: rest) (continues : s.stack.Continues rest) :
      Schedules s ⟨(s.world.spawn fun task =>
        .taskStart request :: s.stack.segment ++ [.asyncDrive, .taskEnd task]).2, c, rest⟩
  | parks {s' : Running} {code : Stack} (running : s.stack ≠ []) (started : ¬ IsFirst code)
      (bottom : code.getLast? = s.stack.getLast?)
      (parks : s.world.loop.Parks s.world.current code s'.world.loop)
      (tracked : s'.world.tracked = s.world.tracked) (ending : s'.world.ending? = s.world.ending?)
      (empty : s'.stack = []) : Schedules s s'
  | ends {p : Nat} {o : Outcome} (stack : s.stack = [.taskEnd p])
      (failed : ∀ e, o = .error e → s.rejects? = some (p, e)) :
      Schedules s ⟨{ s.world with loop := s.world.loop.settle p o }, .parked, []⟩
  | programEnds (failure? : Option Failure) (stack : s.stack = [.programEnd]) :
      Schedules s ⟨{ s.world with ending? := some failure? }, .parked, []⟩
  | resume {task : Nat} {code : Stack} {o : Outcome} {loop : Loop Stack} (idle : s.stack = [])
      (next : s.world.loop.next = .resume task code o loop) :
      Schedules s ⟨{ s.world with loop := loop, current := task }, .ofOutcome o, code⟩
  | internal {loop : Loop Stack} (idle : s.stack = []) (turns : s.world.loop.Turns loop) :
      Schedules s ⟨{ s.world with loop := loop }, .parked, []⟩

section Stacks

variable {f : Frame} {stack stack' upper rest : Stack}

theorem Stack.Open.ne_nil (h : Open stack) : stack ≠ [] := by
  cases h <;> exact List.cons_ne_nil _ _

/-- Code that runs has taken its first step. -/
theorem Stack.Open.started (h : Open stack) (request : Request) : .taskStart request ∉ stack := by
  induction h with
  | frame plain _ ih =>
    rintro (- | ⟨_, h⟩)
    · contradiction
    · exact ih h
  | action hb _ ih => rcases hb with rfl | rfl <;> simpa using ih
  | call hb _ ih => rcases hb with rfl | rfl <;> simpa using ih
  | step _ ih => simpa using ih
  | @task a f bottom => cases f <;> first | contradiction | simp

theorem Stack.Stands.started (h : Stands (f :: stack)) (request : Request) : .taskStart request ∉ stack := by
  cases h with
  | code h => exact fun hr => h.started request (List.mem_cons_of_mem _ hr)
  | start rest | callEnd rest | generator rest => exact rest.started request
  | boundary _ rest => simpa using rest.started request
  | @drive f bottom => cases f <;> first | contradiction | simp
  | bottom | nap => simp

/-- Nothing stands below the end of a task. -/
theorem Stack.Stands.eq_nil (h : Stands (f :: stack)) (bottom : f.isBottom = true) : stack = [] := by
  cases h with
  | code h =>
    cases h with
    | frame plain => cases f <;> contradiction
    | action hb | call hb => rcases hb with rfl | rfl <;> contradiction
    | step | task => contradiction
  | boundary hb => rcases hb with rfl | rfl <;> contradiction
  | start | callEnd | generator | drive | nap => contradiction
  | bottom => rfl

/-- A sleep stands on the end of its task. -/
theorem Stack.Stands.eq_taskEnd {seconds : Float} (h : Stands (.nap seconds :: stack)) :
    ∃ p, stack = [.taskEnd p] := by
  cases h with
  | code h =>
    cases h with
    | frame plain => contradiction
    | action hb => rcases hb with hb | hb <;> contradiction
  | boundary hb => rcases hb with hb | hb <;> contradiction
  | bottom bottom => contradiction
  | nap => exact ⟨_, rfl⟩

theorem not_isFirst (h : ∀ request, .taskStart request ∉ stack) : ¬ IsFirst stack := by
  rintro ⟨request, rest, rfl⟩
  exact h request (List.mem_cons_self ..)

theorem Stack.Continues.suffix (h : stack' <:+ stack) (started : ∀ request, .taskStart request ∉ stack') :
    stack.Continues stack' where
  bottom full := by
    obtain ⟨upper, rfl⟩ := h
    exact ⟨List.append_ne_nil_of_right_ne_nil _ full, (List.getLast?_append_of_ne_nil _ full).symm⟩
  started := not_isFirst started

theorem belowDrive_suffix (stack : Stack) : stack.belowDrive <:+ stack := by
  induction stack with
  | nil => exact List.suffix_rfl
  | cons f stack ih =>
    unfold Stack.belowDrive
    split
    · contradiction
    · rename_i e
      rw [(List.cons.inj e).2]
      exact List.suffix_cons ..
    · rename_i e
      rw [← (List.cons.inj e).2]
      exact ih.trans (List.suffix_cons ..)

theorem suffix_of_boundary {b : Frame} (h : stack.fromBoundary = b :: rest) : rest <:+ stack := by
  refine .trans (List.suffix_cons b rest) ?_
  rw [← h]
  exact List.dropWhile_suffix _

end Stacks

section Scheduling

variable {w : World} {f : Frame} {stack upper : Stack} {s s' : Running}

/-- Code on top of some of a stack that is not empty is code of the same task. -/
theorem Stack.Continues.grow {stack' : Stack} (below : stack <:+ stack') (full : stack ≠ [])
    (started : ∀ request, .taskStart request ∉ upper ++ stack) : stack'.Continues (upper ++ stack) where
  bottom _ := by
    obtain ⟨covered, rfl⟩ := below
    rw [List.getLast?_append_of_ne_nil _ full, List.getLast?_append_of_ne_nil _ full]
    exact ⟨List.append_ne_nil_of_right_ne_nil _ full, rfl⟩
  started := not_isFirst started

/-- Only the code changes. -/
theorem schedules_pop (below : stack <:+ s.stack) (started : ∀ request, .taskStart request ∉ stack)
    {c : Control} (loop : w.loop = s.world.loop) (tracked : w.tracked = s.world.tracked)
    (current : w.current = s.world.current) (ending : w.ending? = s.world.ending?) :
    s.Schedules ⟨w, c, stack⟩ := .goesOn (.none loop tracked) current ending (.suffix below started)

variable [Node.MainRule]

/-- What is built on code of a task is code of that task. -/
theorem Running.Follows.schedules (h : s'.Follows s.world stack) (code : Open stack)
    (below : stack <:+ s.stack) : s.Schedules s' := by
  obtain ⟨upper, hstack, pile, -⟩ := h.grows
  refine .goesOn h.evolves.naps h.evolves.current h.evolves.ending ?_
  rw [hstack]
  exact .grow below code.ne_nil (pile.isOpen code).started

theorem Served.schedules {request : Request} (h : Served s.world stack request s') (hk : s.world.Kept)
    (code : Open stack) (below : stack <:+ s.stack)
    (inside : s.world.current < s.world.loop.promises.size) : s.Schedules s' := by
  have hopen : Open (.settling :: stack) := .frame rfl code
  have continues : s.stack.Continues ([.settling] ++ stack) := .grow below code.ne_nil hopen.started
  obtain ⟨running, bottom⟩ := continues.bottom (List.cons_ne_nil _ _)
  cases h with
  | settled h => exact .goesOn (.none rfl rfl) rfl rfl continues
  | waits => exact .parks running continues.started bottom (Loop.parks_park inside _) rfl rfl rfl
  | own | turn => exact .parks running continues.started bottom (Loop.parks_giveWay inside _) rfl rfl rfl
  | drain a handle reason =>
    obtain ⟨upper, hstack, pile, -⟩ := (follows_drain s.world _ a handle .async reason hk).grows
    have evolves := (follows_drain s.world (.settling :: stack) a handle .async reason hk).evolves
    refine .goesOn evolves.naps evolves.current evolves.ending ?_
    rw [hstack, ← List.singleton_append, ← List.append_assoc]
    refine .grow below code.ne_nil ?_
    rw [List.append_assoc, List.singleton_append]
    exact (pile.isOpen hopen).started
  | refused =>
    refine schedules_pop ((belowDrive_suffix stack).trans below) (fun request h => ?_) rfl rfl rfl rfl
    exact code.started request (belowDrive_subset _ h)

/-- **Main result.**  Each move does one of these things to tasks and promises. -/
theorem Running.Moves.schedules (h : s.Moves s') (orderly : s.Orderly) (tended : s.Tended) :
    s.Schedules s' := by
  have stands := orderly.stands
  have tail : ∀ {f : Frame} {stack : Stack}, s.stack = f :: stack →
      stack <:+ s.stack ∧ ∀ request, .taskStart request ∉ stack := by
    intro f stack e
    rw [e] at stands ⊢
    exact ⟨List.suffix_cons .., stands.started⟩
  have below : ∀ {b : Frame} {rest : Stack}, s.stack.fromBoundary = b :: rest →
      s.control.needsCode = true → rest <:+ s.stack ∧ ∀ request, .taskStart request ∉ rest := by
    intro b rest e needs
    exact ⟨suffix_of_boundary e, fun request h => (orderly.isOpen needs).started request (mem_of_boundary e h)⟩
  have inside : s.stack ≠ [] → s.world.current < s.world.loop.promises.size := fun full =>
    tended.world.inside (tended.running full).owns
  cases h with
  | @code w c stack s' isCode h =>
    refine h.schedules (s := ⟨w, c, stack⟩) (orderly.isOpen ?_) List.suffix_rfl
    cases c <;> first | rfl | contradiction
  | @frame w c f stack s' _ plain h =>
    exact h.schedules (s := ⟨w, c, f :: stack⟩) (stands.isOpen plain) (List.suffix_cons ..)
  | pass | callEnd => exact schedules_pop (tail rfl).1 (tail rfl).2 rfl rfl rfl rfl
  | @settled w o stack exception =>
    refine .settles o (fun e he => ?_) (.suffix (tail rfl).1 (tail rfl).2)
    subst he
    simp only [Control.ofOutcome, Running.rejects?, exception e rfl, if_true]
  | stepEnd => exact schedules_pop (tail rfl).1 (tail rfl).2 rfl rfl rfl rfl
  | @start w v request stack s' h =>
    exact h.schedules (s := ⟨w, .value v, .taskStart request :: stack⟩) orderly.kept stands.isOpen_start
      (List.suffix_cons ..) (inside (List.cons_ne_nil _ _))
  | @abandon w failure stack =>
    refine schedules_pop ((belowDrive_suffix stack).trans (tail rfl).1) (fun request h => ?_) rfl rfl rfl rfl
    exact (tail rfl).2 request (belowDrive_subset _ h)
  | refuse boundary => exact schedules_pop (below boundary rfl).1 (below boundary rfl).2 rfl rfl rfl rfl
  | refuseStep boundary => exact schedules_pop (below boundary rfl).1 (below boundary rfl).2 rfl rfl rfl rfl
  | yield boundary => exact schedules_pop (below boundary rfl).1 (below boundary rfl).2 rfl rfl rfl rfl
  | spawn boundary =>
    exact .spawns rfl boundary (.suffix (below boundary rfl).1 (below boundary rfl).2)
  | @serve w request stack rest s' boundary h =>
    have code : Open stack := orderly.isOpen rfl
    exact h.schedules (s := ⟨w, .suspend request, stack⟩) orderly.kept code List.suffix_rfl
      (inside code.ne_nil)
  | @nap w v seconds stack =>
    obtain ⟨p, rfl⟩ := stands.eq_taskEnd
    have bottom : List.getLast? [Frame.taskEnd p] = List.getLast? [.nap seconds, .taskEnd p] := rfl
    exact .parks (List.cons_ne_nil _ _) (not_isFirst (by simp)) bottom
      (Loop.parks_rest (inside (List.cons_ne_nil _ _)) seconds) rfl rfl rfl
  | @taskEnd w o p stack =>
    obtain rfl := stands.eq_nil rfl
    exact .ends rfl fun e he => by rw [he]; rfl
  | programEnd failure? =>
    obtain rfl := stands.eq_nil rfl
    exact .programEnds failure? rfl
  | resume idle h =>
    obtain rfl := orderly.empty idle
    exact .resume rfl h
  | internal idle h =>
    obtain rfl := orderly.empty idle
    exact .internal rfl (tended.world.turns h)

end Scheduling

/-! ### What all steps keep -/

section Keeping

variable {w w' : World} {s s' : Running}

/-- The loop changes, and the program makes no promise.  A promise may come to be settled by its task or
by its timer, and code of a task may come to be parked. -/
theorem World.Tended.relooped (h : w.Tended) (tracked : w'.tracked = w.tracked)
    (size : w.loop.promises.size ≤ w'.loop.promises.size) (minded : ∃ cause, w'.loop.Minds cause)
    (rings : ∀ p, w'.loop.Rings p →
      w.loop.Rings p ∨ w.loop.promises.size ≤ p ∧ p < w'.loop.promises.size)
    (outcome : ∀ p, w'.loop.outcome? p = w.loop.outcome? p ∨
      (p ∈ w.tracked ∧ (w'.loop.promise p).parked? = none) ∨
      (w.loop.Rings p ∧ w'.loop.outcome? p = some (.ok .null)))
    (parked : ∀ t code, (w'.loop.promise t).parked? = some code →
      w.loop.outcome? t = none ∧ w.Owns t code) : w'.Tended := by
  have inside : ∀ p ∈ w.tracked, p < w'.loop.promises.size := fun p hp =>
    Nat.lt_of_lt_of_le (h.made p hp).2 size
  refine ⟨Nat.lt_of_lt_of_le h.main size, minded, fun p hp => ?_, tracked ▸ h.sorted, fun p hp => ?_,
    fun t code e => ?_⟩
  · rw [tracked]
    rcases rings p hp with hp | ⟨new, hlt⟩
    · obtain ⟨positive, hlt, untracked, settled⟩ := h.rings p hp
      refine ⟨positive, Nat.lt_of_lt_of_le hlt size, untracked, fun o e => ?_⟩
      rcases outcome p with same | ⟨made, -⟩ | ⟨-, rung⟩
      · exact settled o (same ▸ e)
      · exact absurd made untracked
      · exact Option.some.inj (e.symm.trans rung)
    · have untracked : p ∉ w.tracked := fun made => absurd (h.made p made).2 (Nat.not_lt.mpr new)
      refine ⟨Nat.lt_of_lt_of_le h.main new, hlt, untracked, fun o e => ?_⟩
      rcases outcome p with same | ⟨made, -⟩ | ⟨-, rung⟩
      · rw [same, Loop.outcome?, Loop.promise_of_size_le _ new] at e
        contradiction
      · exact absurd made untracked
      · exact Option.some.inj (e.symm.trans rung)
  · rw [tracked] at hp
    exact ⟨(h.made p hp).1, inside p hp⟩
  · obtain ⟨pending, owns⟩ := parked t code e
    refine ⟨?_, owns.mono (fun p hp => tracked ▸ hp) rfl⟩
    rcases outcome t with same | ⟨-, gone⟩ | ⟨rung, -⟩
    · exact same.trans pending
    · rw [gone] at e
      contradiction
    · obtain ⟨positive, -, untracked, -⟩ := h.rings t rung
      rcases owns with ⟨-, made⟩ | ⟨-, rfl⟩
      · exact absurd made untracked
      · exact absurd positive (Nat.lt_irrefl 0)

/-- The loop goes on by itself. -/
theorem World.Tended.turned (h : w.Tended) {loop : Loop Stack} (turns : w.loop.Turns loop) :
    World.Tended { w with loop := loop } := by
  obtain ⟨cause, minds⟩ := h.minded
  refine h.relooped rfl (Nat.le_of_eq turns.size.symm) ⟨cause, turns.minds cause minds⟩
    (fun p hp => .inl (turns.rings p hp)) (fun p => (turns.outcome p).imp_right .inr) fun t code e => ?_
  rw [turns.parked] at e
  exact h.parked t code e

/-- A promise is settled by its task. -/
theorem World.Tended.settle (h : w.Tended) {p : Nat} (made : p ∈ w.tracked)
    (away : (w.loop.promise p).parked? = none) (pending : w.loop.outcome? p = none) (o : Outcome) :
    World.Tended { w with loop := w.loop.settle p o } := by
  obtain ⟨cause, minds⟩ := h.minded
  have once : ∀ o', w.loop.outcome? p = some o' → o' = o := by
    intro o' e
    rw [pending] at e
    contradiction
  refine h.relooped rfl (Nat.le_of_eq (Loop.size_settle ..).symm) ⟨cause, minds.settle once⟩
    (fun q hq => .inl (Loop.rings_settle hq)) (fun q => ?_) fun t code e => ?_
  · by_cases own : q = p
    · subst own
      exact .inr (.inl ⟨made, (Loop.parked_settle ..).trans away⟩)
    · exact .inl ((Loop.outcome_settle (h.made p made).2 q).trans (if_neg own))
  · rw [Loop.parked_settle] at e
    exact h.parked t code e

/-- A task is handed out, to go on. -/
theorem World.Tended.resume (h : w.Tended) {task : Nat} {code : Stack} {o : Outcome} {loop : Loop Stack}
    (resumes : w.loop.Resumes task code o loop) :
    World.Tended { w with loop := loop, current := task } ∧
      World.Drives { w with loop := loop, current := task } task code := by
  obtain ⟨cause, minds⟩ := h.minded
  obtain ⟨pending, owns⟩ := h.parked task code resumes.code
  refine ⟨?_, (resumes.parked task).trans (if_pos rfl), (resumes.outcome task).trans pending, owns⟩
  refine h.relooped rfl (Nat.le_of_eq resumes.size.symm) ⟨_, (resumes.minds cause minds).2⟩
    (fun q hq => .inl (resumes.rings q hq)) (fun q => .inl (resumes.outcome q)) fun t code' e => ?_
  rw [resumes.parked] at e
  split at e
  · contradiction
  · exact h.parked t code' e

/-- The task that comes to its end is one that the program has made, and its promise is not settled yet. -/
theorem Running.Tended.ending (h : s.Tended) {p : Nat} (stack : s.stack = [.taskEnd p]) :
    p ∈ s.world.tracked ∧ (s.world.loop.promise p).parked? = none ∧ s.world.loop.outcome? p = none := by
  have drives := h.running (stack ▸ List.cons_ne_nil _ _)
  rcases drives.owns with ⟨bottom, made⟩ | ⟨bottom, -⟩
  · rw [stack] at bottom
    obtain rfl := Frame.taskEnd.inj (Option.some.inj bottom)
    exact ⟨made, drives.away, drives.pending⟩
  · rw [stack] at bottom
    cases bottom

/-- **Main result.**  Tasks and promises are in order after a step if they were before. -/
theorem Running.Schedules.tended (h : s.Schedules s') (before : s.Tended) : s'.Tended := by
  have extended : ∀ {w' : World} {c : Control} {stack : Stack}, s.world.Extends w' → w'.Tended →
      w'.current = s.world.current → w'.ending? = s.world.ending? → s.stack.Continues stack →
      Running.Tended ⟨w', c, stack⟩ := by
    intro w' c stack extend tended current ending continues
    refine ⟨tended, fun full => ?_, fun finished => ?_⟩
    · obtain ⟨running, bottom⟩ := continues.bottom full
      have drives := (before.running running).mono before.world extend bottom
      exact (congrArg (World.Drives w' · stack) current).mpr drives
    · obtain ⟨away, other⟩ := before.ended (ending ▸ finished)
      refine ⟨?_, fun full => ?_⟩
      · rw [extend.promise 0 before.world.main]
        exact away
      · exact current ▸ other (continues.bottom full).1
  cases h with
  | goesOn naps current ending continues =>
    exact extended naps.extends (naps.tended before.world) current ending continues
  | settles o failed continues =>
    have makes := makes_settled (w := s.world) o
    exact extended makes.extends (makes.tended before.world) rfl rfl continues
  | @spawns request c rest asks boundary continues =>
    have makes : s.world.Makes _ (s.world.spawn fun task =>
        .taskStart request :: s.stack.segment ++ [.asyncDrive, .taskEnd task]).2 :=
      makes_spawn _ (List.getLast?_append_of_ne_nil _ (List.cons_ne_nil _ _)) rfl rfl
    exact extended makes.extends (makes.tended before.world) rfl rfl continues
  | @parks s' code running started bottom parks tracked ending empty =>
    have drives := before.running running
    obtain ⟨cause, minds⟩ := before.world.minded
    obtain ⟨c, minds'⟩ := parks.minds cause minds (minds.free drives.away)
    refine ⟨?_, fun full => absurd empty full, fun finished => ?_⟩
    · refine before.world.relooped tracked parks.size ⟨_, minds'⟩ parks.rings
        (fun q => .inl (parks.outcome q)) fun t code' e => ?_
      rw [parks.parked] at e
      split at e
      · rename_i own
        obtain rfl := Option.some.inj e
        exact own ▸ ⟨drives.pending, drives.owns.mono (fun _ => id) bottom⟩
      · exact before.world.parked t code' e
    · obtain ⟨away, other⟩ := before.ended (ending ▸ finished)
      refine ⟨?_, fun full => absurd empty full⟩
      rw [parks.parked, if_neg fun main => other running main.symm]
      exact away
  | ends stack failed =>
    obtain ⟨made, away, pending⟩ := before.ending stack
    refine ⟨before.world.settle made away pending _, fun full => absurd rfl full, fun finished => ?_⟩
    refine ⟨?_, fun full => absurd rfl full⟩
    exact (Loop.parked_settle ..).trans (before.ended finished).1
  | programEnds failure? stack =>
    have drives := before.running (stack ▸ List.cons_ne_nil _ _)
    refine ⟨before.world.congr rfl rfl, fun full => absurd rfl full, fun _ => ⟨?_, fun full => absurd rfl full⟩⟩
    rcases drives.owns with ⟨bottom, -⟩ | ⟨-, main⟩
    · rw [stack] at bottom
      cases bottom
    · exact main ▸ drives.away
  | @resume task code o loop idle next =>
    have resumes := Loop.resumes_next next
    obtain ⟨tended, drives⟩ := before.world.resume resumes
    refine ⟨tended, fun _ => drives, fun finished => ?_⟩
    have away := (before.ended finished).1
    have other : task ≠ 0 := by
      rintro rfl
      rw [resumes.code] at away
      contradiction
    refine ⟨?_, fun _ => other⟩
    rw [resumes.parked, if_neg other.symm]
    exact away
  | internal idle turns =>
    refine ⟨before.world.turned turns, fun full => absurd rfl full, fun finished => ?_⟩
    exact ⟨(turns.parked 0).trans (before.ended finished).1, fun full => absurd rfl full⟩

end Keeping

/-! ### What a step changes -/

section Changes

variable {w w' : World} {s s' : Running} {t : Nat} {code : Stack} {c : Loop.Cause}

theorem World.Makes.keeps {q : Promise Stack} (h : w.Makes q w') : w.loop.Keeps w'.loop := h.adds.keeps

theorem World.Makes.heeds {q : Promise Stack} (h : w.Makes q w') (heeds : w.loop.Heeds t c)
    (old : t < w.loop.promises.size) : w'.loop.Heeds t c := by
  obtain ⟨cause, minds, hc⟩ := heeds
  obtain ⟨c?, minds'⟩ := h.adds.minds cause minds
  exact ⟨_, minds', (Function.update_of_ne (Nat.ne_of_lt old) ..).trans hc⟩

theorem Naps.keeps (h : Naps w w') : w.loop.Keeps w'.loop := by
  induction h with
  | none loop => exact fun p o e => loop ▸ e
  | nap _ seconds loop tracked ih => exact fun p o e => (makes_nap loop tracked).keeps p o (ih p o e)

theorem Naps.heeds (h : Naps w w') (heeds : w.loop.Heeds t c) (old : t < w.loop.promises.size) :
    w'.loop.Heeds t c := by
  induction h with
  | none loop => exact loop ▸ heeds
  | nap before seconds loop tracked ih =>
    exact (makes_nap loop tracked).heeds ih (Nat.lt_of_lt_of_le old before.extends.size)

theorem Naps.parked_before (h : Naps w w') (other : ∀ seconds p, code ≠ [.nap seconds, .taskEnd p])
    (parked : (w'.loop.promise t).parked? = some code) : (w.loop.promise t).parked? = some code := by
  induction h with
  | none loop => exact loop ▸ parked
  | nap _ seconds loop tracked ih =>
    rw [loop] at parked
    rcases Loop.parked_add parked with parked | e
    · exact ih parked
    · exact absurd (Option.some.inj e).symm (other _ _)

theorem Naps.rejected (h : Naps w w') {p : Nat} {e : Failure} (made : p ∈ w'.tracked)
    (failed : w'.loop.outcome? p = some (.error e)) :
    p ∈ w.tracked ∧ w.loop.outcome? p = some (.error e) := by
  induction h with
  | none loop tracked => exact ⟨tracked ▸ made, loop ▸ failed⟩
  | @nap w' w'' _ seconds loop tracked ih =>
    have hadd := (Loop.outcome_add (l := w'.loop)
      (q := { parked? := some [.nap seconds, .taskEnd w'.loop.promises.size] }) p).symm.trans
      ((congrArg (Loop.outcome? · p) loop).symm.trans failed)
    rw [tracked] at made
    split at hadd
    · contradiction
    · rename_i old
      exact ih ((Array.mem_push.mp made).resolve_right old) hadd

/-- A promise that is settled stays as it is. -/
theorem Running.Schedules.keeps (h : s.Schedules s') (before : s.Tended) :
    s.world.loop.Keeps s'.world.loop := by
  cases h with
  | goesOn naps => exact naps.keeps
  | settles o => exact (makes_settled o).keeps
  | spawns => exact (Loop.adds_spawn _).keeps
  | parks _ _ _ parks => exact fun p o e => (parks.outcome p).trans e
  | ends stack failed =>
    refine Loop.keeps_settle fun o' e => ?_
    rw [(before.ending stack).2.2] at e
    contradiction
  | programEnds => exact fun _ _ => id
  | resume idle next => exact fun p o e => ((Loop.resumes_next next).outcome p).trans e
  | internal idle turns => exact turns.keeps

/-- What the program has made stays with it. -/
theorem Running.Schedules.tracked (h : s.Schedules s') {p : Nat} (made : p ∈ s.world.tracked) :
    p ∈ s'.world.tracked := by
  cases h with
  | goesOn naps => exact naps.extends.tracked p made
  | settles o => exact (makes_settled o).extends.tracked p made
  | spawns => exact Array.mem_push_of_mem _ made
  | parks _ _ _ _ tracked => exact tracked ▸ made
  | ends | programEnds | resume | internal => exact made

/-- Code that is to take its first step was parked, or has just become a task. -/
theorem Running.Schedules.first (h : s.Schedules s') {request : Request}
    (parked : (s'.world.loop.promise t).parked? = some (.taskStart request :: code)) :
    (s.world.loop.promise t).parked? = some (.taskStart request :: code) ∨
      s.control = .suspend request ∧ ∃ rest, s.stack.fromBoundary = .asyncStart :: rest := by
  cases h with
  | goesOn naps => exact .inl (naps.parked_before (fun seconds p => by simp) parked)
  | settles => exact .inl ((Loop.parked_add parked).elim id fun e => by cases e)
  | spawns asks boundary =>
    refine (Loop.parked_add parked).imp_right fun e => ?_
    obtain ⟨e, -⟩ := List.cons.inj (Option.some.inj e)
    obtain rfl := Frame.taskStart.inj e
    exact ⟨asks, _, boundary⟩
  | parks _ started _ parks =>
    rw [parks.parked] at parked
    split at parked
    · exact absurd ⟨_, _, Option.some.inj parked⟩ started
    · exact .inl parked
  | ends => exact .inl ((Loop.parked_settle ..).symm.trans parked)
  | programEnds => exact .inl parked
  | resume _ next =>
    rw [(Loop.resumes_next next).parked] at parked
    split at parked
    · contradiction
    · exact .inl parked
  | internal _ turns => exact .inl ((turns.parked t).symm.trans parked)

/-- Only a task that is handed out takes its first step. -/
theorem Running.Schedules.top (h : s.Schedules s') {request : Request}
    (top : s'.stack = .taskStart request :: code) :
    ∃ t, (s.world.loop.promise t).parked? = some (.taskStart request :: code) := by
  cases h with
  | goesOn _ _ _ continues => exact absurd ⟨_, _, top⟩ continues.started
  | settles _ _ continues | spawns _ _ continues => exact absurd ⟨_, _, top⟩ continues.started
  | parks _ _ _ _ _ _ empty =>
    rw [empty] at top
    contradiction
  | resume _ next => exact ⟨_, (Loop.resumes_next next).code.trans (congrArg some top)⟩
  | ends | programEnds | internal => contradiction

/-- A promise that has come to be rejected belongs to a body that has ended with the failure. -/
theorem Running.Schedules.rejected (h : s.Schedules s') (before : s.Tended) {p : Nat} {e : Failure}
    (made : p ∈ s'.world.tracked) (failed : s'.world.loop.outcome? p = some (.error e)) :
    p ∈ s.world.tracked ∧ s.world.loop.outcome? p = some (.error e) ∨ s.rejects? = some (p, e) := by
  cases h with
  | goesOn naps => exact .inl (naps.rejected made failed)
  | settles o rejects =>
    have hadd := (Loop.outcome_add (l := s.world.loop) (q := { outcome? := some o }) p).symm.trans failed
    split at hadd
    · rename_i new
      exact .inr (new ▸ rejects e (Option.some.inj hadd))
    · rename_i old
      exact .inl ⟨(Array.mem_push.mp made).resolve_right old, hadd⟩
  | spawns =>
    have hadd := (Loop.outcome_add (l := s.world.loop) (q := { parked? := some _ }) p).symm.trans failed
    split at hadd
    · contradiction
    · rename_i old
      exact .inl ⟨(Array.mem_push.mp made).resolve_right old, hadd⟩
  | parks _ _ _ parks tracked => exact .inl ⟨tracked ▸ made, (parks.outcome p).symm.trans failed⟩
  | @ends p' o stack rejects =>
    have inside := (before.world.made p' (before.ending stack).1).2
    have hsettle := (Loop.outcome_settle inside p).symm.trans failed
    split at hsettle
    · rename_i own
      exact .inr (own ▸ rejects e (Option.some.inj hsettle))
    · exact .inl ⟨made, hsettle⟩
  | programEnds => exact .inl ⟨made, failed⟩
  | resume _ next => exact .inl ⟨made, ((Loop.resumes_next next).outcome p).symm.trans failed⟩
  | internal _ turns =>
    rcases turns.outcome p with same | ⟨-, rung⟩
    · exact .inl ⟨made, same.symm.trans failed⟩
    · cases rung.symm.trans failed

/-- A task goes on with what it was parked with, on being told what it waits for. -/
def Running.Resumed (s : Running) (t : Nat) (code : Stack) (c : Loop.Cause) : Prop :=
  s.world.current = t ∧ s.stack = code ∧ ∃ o, s.control = .ofOutcome o ∧ s.world.loop.Tells c o

/-- A parked task stays parked, for the same cause, until it is told. -/
theorem Running.Schedules.stays (h : s.Schedules s') (before : s.Tended)
    (parked : (s.world.loop.promise t).parked? = some code) (heeds : s.world.loop.Heeds t c) :
    (s'.world.loop.promise t).parked? = some code ∧ s'.world.loop.Heeds t c ∨ s'.Resumed t code c := by
  have old := before.world.inside (before.world.parked t code parked).2
  have keeps := h.keeps before
  obtain ⟨cause, minds, hc⟩ := heeds
  cases h with
  | goesOn naps =>
    refine .inl ⟨?_, naps.heeds ⟨cause, minds, hc⟩ old⟩
    rw [naps.extends.promise t old]
    exact parked
  | settles o =>
    have makes := makes_settled (w := s.world) o
    refine .inl ⟨?_, makes.heeds ⟨cause, minds, hc⟩ old⟩
    rw [makes.extends.promise t old]
    exact parked
  | spawns =>
    refine .inl ⟨?_, _, minds.spawn _, (Function.update_of_ne (Nat.ne_of_lt old) ..).trans hc⟩
    refine (congrArg Promise.parked? ((Loop.adds_spawn _).promise t)).trans ?_
    rwa [if_neg (Nat.ne_of_lt old)]
  | parks running _ _ parks =>
    have drives := before.running running
    have other : t ≠ s.world.current := by
      rintro rfl
      rw [drives.away] at parked
      contradiction
    obtain ⟨c', minds'⟩ := parks.minds cause minds (minds.free drives.away)
    refine .inl ⟨?_, _, minds', (Function.update_of_ne other ..).trans hc⟩
    rwa [parks.parked, if_neg other]
  | ends stack failed =>
    refine .inl ⟨(Loop.parked_settle ..).trans parked, cause, minds.settle fun o' e => ?_, hc⟩
    rw [(before.ending stack).2.2] at e
    contradiction
  | programEnds => exact .inl ⟨parked, cause, minds, hc⟩
  | @resume task code' o loop idle next =>
    have resumes := Loop.resumes_next next
    obtain ⟨⟨c', hc', tells⟩, minds'⟩ := resumes.minds cause minds
    by_cases own : t = task
    · subst own
      obtain rfl := Option.some.inj (parked.symm.trans resumes.code)
      obtain rfl := Option.some.inj (hc.symm.trans hc')
      exact .inr ⟨rfl, rfl, o, rfl, keeps.tells tells⟩
    · refine .inl ⟨?_, _, minds', (Function.update_of_ne own ..).trans hc⟩
      rwa [resumes.parked, if_neg own]
  | internal idle turns =>
    exact .inl ⟨(turns.parked t).trans parked, cause, turns.minds cause minds, hc⟩

end Changes

end ScopeExit.Script
