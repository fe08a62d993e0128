import ScopeExit.Proofs.Script.Tasks
/-!
Where the failures of tasks go.

A body that ends with a failure rejects its promise, and then the failure has to show somewhere: where
the promise is awaited, or, if nobody ever awaits it, in the report of the run.  Neither is lost and
neither comes twice.

An await is followed from the state that evaluates it.  Its task may have to take its first step, it may
be parked until the promise is settled, and then the answer is on its way to the code that awaits.  In
all these states the task does nothing else, and it is called once.  So when all tasks have come to their
ends every await has been answered, and answered as the promise was settled.
-/
namespace ScopeExit.Script

open World Stack

/-! ### Runs and what they went through -/

/-- A state comes right after another one: by a step, or because the tasks that may go on do so in
another order. -/
inductive Running.Leads : Running → Running → Prop
  | step {s s' : Running} (next : s.step = .next s') : Leads s s'
  | reorder {w : World} {stack : Stack} {loop : Loop Stack} (other : w.loop.Reorders loop) :
      Leads ⟨w, .parked, stack⟩ ⟨{ w with loop := loop }, .parked, stack⟩

/-- A run as far as it has come: the states that it has been through, the last one first, and the state
that it has come to. -/
inductive Trace (config : Config) (program : Node) : List Running → Running → Prop
  | start : Trace config program [] (.start config program.withIdentities)
  | next {before : List Running} {s s' : Running} (trace : Trace config program before s)
      (leads : s.Leads s') : Trace config program (s :: before) s'

section Traces

variable {config : Config} {program : Node} {before : List Running} {s s' : Running}

theorem Trace.run (trace : Trace config program before s) : ∃ L, Run config program L s := by
  induction trace with
  | start => exact ⟨_, .start⟩
  | next _ leads ih =>
    obtain ⟨L, run⟩ := ih
    cases leads with
    | step next => exact ⟨_, run.step next⟩
    | reorder other => exact ⟨_, run.reorder other⟩

theorem Trace.config_eq (trace : Trace config program before s) : s.world.config = config := by
  obtain ⟨L, run⟩ := trace.run
  exact run.config_eq

variable [Node.MainRule]

theorem Running.Leads.schedules (h : s.Leads s') (orderly : s.Orderly) (tended : s.Tended) :
    s.Schedules s' := by
  cases h with
  | step next => exact (orderly.moves next).schedules orderly tended
  | @reorder w stack loop other =>
    obtain rfl := orderly.empty (.inl rfl)
    exact .internal rfl other.requeues.turns

theorem World.Blank.promise {w : World} (blank : w.Blank config) (t : Nat) : w.loop.promise t = {} := by
  rw [blank.loop, Loop.promise_push]
  split
  · rfl
  · exact Loop.promise_of_size_le _ (Nat.zero_le t)

/-- At the start there is only the promise of the program, and its code is running. -/
theorem tended_start (config : Config) (program : Node)
    (admits : ∀ n ∈ program.children, Node.MainRule.admits n) : (Running.start config program).Tended := by
  obtain ⟨w, blank, follows⟩ := follows_start config program admits
  have idle : ({} : Loop Stack).Minds fun _ => none := by
    refine ⟨List.nodup_nil, fun t o ht => ?_, fun p => ?_, fun p t ht => ?_, fun t ht => ?_⟩
    · simp [Loop.queue] at ht
    · rw [Loop.promise_of_size_le _ (Nat.zero_le p)]
      exact List.nodup_nil
    · rw [Loop.promise_of_size_le _ (Nat.zero_le p)] at ht
      contradiction
    · contradiction
  have pending := blank.promise
  have tended : w.Tended := by
    refine ⟨?_, ⟨fun _ => none, ?_⟩, fun p hp => ?_, ?_, fun p hp => ?_, fun t code e => ?_⟩
    · rw [blank.loop]
      exact Nat.one_pos
    · rw [blank.loop]
      exact idle.add rfl
    · rw [blank.loop] at hp
      rcases hp with hp | ⟨x, hx, -⟩
      · simp [Loop.queue, Loop.add] at hp
      · simp [Loop.add] at hx
    · rw [blank.tracked]
      exact List.Pairwise.nil
    · rw [blank.tracked] at hp
      simp at hp
    · rw [pending] at e
      contradiction
  have drives : w.Drives w.current [.activationEnd 0, .asyncDrive, .programEnd] := by
    refine ⟨?_, ?_, .inr ⟨rfl, blank.current⟩⟩
    · rw [pending]
    · rw [Loop.outcome?, pending]
  have before : Running.Tended ⟨w, .parked, [.activationEnd 0, .asyncDrive, .programEnd]⟩ :=
    ⟨tended, fun _ => drives, fun finished => absurd blank.ending finished⟩
  exact (follows.schedules (s := ⟨w, .parked, [.activationEnd 0, .asyncDrive, .programEnd]⟩) (.task rfl)
    List.suffix_rfl).tended before

/-- Every state of a run is in order. -/
theorem Trace.tended (trace : Trace config program before s)
    (admits : ∀ n ∈ program.withIdentities.children, Node.MainRule.admits n) : s.Orderly ∧ s.Tended := by
  obtain ⟨L, run⟩ := trace.run
  refine ⟨run.orderly admits, ?_⟩
  clear run L
  induction trace with
  | start => exact tended_start config _ admits
  | next trace leads ih =>
    obtain ⟨L, run⟩ := trace.run
    exact (leads.schedules (run.orderly admits) ih).tended ih

end Traces

/-! ### The way of an await -/

/-- What the task of an await is told: how the promise was settled, or, if the promise is its own, that
it may not wait for it. -/
def Await.cause (a : Await) : Loop.Cause :=
  if a.task = a.promise then .turn (.error (.host .runtime)) else .promise a.promise

/-- The answer arrives at the code that awaits. -/
def Running.Replies (s : Running) (a : Await) (o : Outcome) : Prop :=
  s.world.current = a.task ∧ s.control = .ofOutcome o ∧ s.stack = a.code

/-- An await that has been evaluated and not been answered yet. -/
inductive Running.Owes (s : Running) (a : Await) : Prop
  /-- The body has become a task. -/
  | fresh (parked : (s.world.loop.promise a.task).parked? =
        some (.taskStart (.await (.promise a.promise)) :: a.code))
      (heeds : s.world.loop.Heeds a.task (.turn (.ok .null)))
  | starting {v : Value} (current : s.world.current = a.task) (control : s.control = .value v)
      (stack : s.stack = .taskStart (.await (.promise a.promise)) :: a.code)
  | waiting (observed : a.promise ∈ s.world.observed)
      (parked : (s.world.loop.promise a.task).parked? = some (.settling :: a.code))
      (heeds : s.world.loop.Heeds a.task a.cause)
  | arriving {o : Outcome} (observed : a.promise ∈ s.world.observed) (current : s.world.current = a.task)
      (control : s.control = .ofOutcome o) (stack : s.stack = .settling :: a.code)
      (tells : s.world.loop.Tells a.cause o)

section Awaits

variable {w : World} {s s' : Running} {a b : Await} {stack : Stack} {p : Nat}

/-- A task whose await is served waits for the answer, or has it. -/
theorem Served.owes (h : Served w stack (.await (.promise p)) s') (tended : w.Tended) {code : Stack}
    (drives : w.Drives w.current code) : s'.Owes ⟨w.current, p, stack⟩ := by
  have inside := tended.inside drives.owns
  obtain ⟨cause, minds⟩ := tended.minded
  have free := minds.free drives.away
  cases h with
  | settled h =>
    have other : w.current ≠ p := by
      rintro rfl
      rw [drives.pending] at h
      contradiction
    refine .arriving (List.mem_cons_self ..) rfl rfl rfl ?_
    rw [Await.cause, if_neg other]
    exact h
  | waits pending other =>
    refine .waiting (List.mem_cons_self ..) (((Loop.parks_park inside p).parked _).trans (if_pos rfl)) ?_
    rw [Await.cause, if_neg other.symm]
    exact ⟨_, minds.park free inside p, Function.update_self ..⟩
  | own pending =>
    refine .waiting (List.mem_cons_self ..) (((Loop.parks_giveWay inside _).parked _).trans (if_pos rfl)) ?_
    rw [Await.cause, if_pos rfl]
    exact ⟨_, minds.giveWay free inside _, Function.update_self ..⟩
  | turn other => exact absurd rfl (other p)

/-- An await that is evaluated is owed an answer in the next state. -/
theorem Running.Tended.owes (tended : s.Tended) (await : s.await? = some a) (leads : s.Leads s') :
    s'.Owes a := by
  obtain ⟨w, c, stack⟩ := s
  simp only [Running.await?] at await
  split at await
  · rename_i p rest boundary
    obtain rfl := Option.some.inj await
    have full : stack ≠ [] := by
      rintro rfl
      contradiction
    cases leads with
    | step next =>
      obtain rfl := Transition.next.inj next
      simp only [World.suspend, boundary]
      exact (served w stack (.await (.promise p))).owes tended.world (tended.running full)
  · rename_i p rest boundary
    obtain rfl := Option.some.inj await
    cases leads with
    | step next =>
      obtain rfl := Transition.next.inj next
      obtain ⟨cause, minds⟩ := tended.world.minded
      simp only [World.suspend, boundary]
      refine .fresh ?_ ⟨_, minds.spawn _, Function.update_self ..⟩
      exact (congrArg Promise.parked? ((Loop.adds_spawn _).promise _)).trans (congrArg _ (if_pos rfl))
  · contradiction

/-- A promise is awaited in a state: its await is served there. -/
def Running.TakesUp (s : Running) (p : Nat) : Prop :=
  (∃ a, s.await? = some a ∧ a.promise = p) ∨
    ∃ v code, s.control = .value v ∧ s.stack = .taskStart (.await (.promise p)) :: code

variable [Node.MainRule]

theorem Served.observed {request : Request} (h : Served w stack request s') (hk : w.Kept) :
    s'.world.observed = w.observed ∨
      ∃ p, request = .await (.promise p) ∧ s'.world.observed = p :: w.observed := by
  cases h with
  | settled | waits | own => exact .inr ⟨_, rfl, rfl⟩
  | turn | refused => exact .inl rfl
  | drain a handle reason => exact .inl (follows_drain w _ a handle .async reason hk).evolves.observed

/-- A promise counts as awaited from the state on in which an await of it is served. -/
theorem Running.Moves.observed (h : s.Moves s') (hk : s.world.Kept) :
    s'.world.observed = s.world.observed ∨
      ∃ p, s.TakesUp p ∧ s'.world.observed = p :: s.world.observed := by
  cases h with
  | code _ h | frame _ _ h => exact .inl h.evolves.observed
  | start h =>
    refine (h.observed hk).imp_right ?_
    rintro ⟨p, rfl, e⟩
    exact ⟨p, .inr ⟨_, _, rfl, rfl⟩, e⟩
  | serve boundary h =>
    refine (h.observed hk).imp_right ?_
    rintro ⟨p, rfl, e⟩
    exact ⟨p, .inl ⟨_, by rw [Running.await?, boundary], rfl⟩, e⟩
  | _ => exact .inl rfl

theorem Running.Leads.observed (h : s.Leads s') (orderly : s.Orderly) :
    s'.world.observed = s.world.observed ∨
      ∃ p, s.TakesUp p ∧ s'.world.observed = p :: s.world.observed := by
  cases h with
  | step next => exact (orderly.moves next).observed orderly.kept
  | reorder => exact .inl rfl

theorem Running.Leads.keeps_observed (h : s.Leads s') (orderly : s.Orderly)
    (observed : p ∈ s.world.observed) : p ∈ s'.world.observed := by
  rcases h.observed orderly with e | ⟨q, -, e⟩
  · exact e ▸ observed
  · exact e ▸ List.mem_cons_of_mem _ observed

/-- An await that is owed an answer still is in the next state, or has its answer there.  Only a failure
that no script can catch is not an answer: it ends the task. -/
theorem Running.Owes.step (owes : s.Owes a) (orderly : s.Orderly) (tended : s.Tended) (leads : s.Leads s') :
    s'.Owes a ∨ a.promise ∈ s'.world.observed ∧ ∃ o, s'.world.loop.Tells a.cause o ∧
      (s'.Replies a o ∨ ∃ f, o = .error f ∧ f.isException = false) := by
  have schedules := leads.schedules orderly tended
  have keeps := schedules.keeps tended
  cases owes with
  | fresh parked heeds =>
    rcases schedules.stays tended parked heeds with ⟨parked, heeds⟩ | ⟨current, stack, o, control, tells⟩
    · exact .inl (.fresh parked heeds)
    · have first : o = .ok .null := tells
      exact .inl (.starting current (control.trans (congrArg _ first)) stack)
  | @starting v current control stack =>
    obtain ⟨w, c, code⟩ := s
    obtain rfl : c = .value v := control
    obtain rfl : code = .taskStart (.await (.promise a.promise)) :: a.code := stack
    cases leads with
    | step next =>
      obtain rfl := Transition.next.inj next
      have served := served w a.code (.await (.promise a.promise))
      have owes := served.owes tended.world (tended.running (List.cons_ne_nil _ _))
      exact .inl ((congrArg (fun t => Running.Owes _ ⟨t, a.promise, a.code⟩) current).mp owes)
  | waiting observed parked heeds =>
    have observed := leads.keeps_observed orderly observed
    rcases schedules.stays tended parked heeds with ⟨parked, heeds⟩ | ⟨current, stack, o, control, tells⟩
    · exact .inl (.waiting observed parked heeds)
    · exact .inl (.arriving observed current control stack tells)
  | @arriving o observed current control stack tells =>
    refine .inr ⟨leads.keeps_observed orderly observed, o, keeps.tells tells, ?_⟩
    obtain ⟨w, c, code⟩ := s
    obtain rfl : c = .ofOutcome o := control
    obtain rfl : code = .settling :: a.code := stack
    cases o with
    | ok v =>
      cases leads with
      | step next =>
        obtain rfl := Transition.next.inj next
        exact .inl ⟨current, rfl, rfl⟩
    | error f =>
      cases hexception : f.isException with
      | false => exact .inr ⟨f, rfl, hexception⟩
      | true =>
        cases leads with
        | step next =>
          obtain rfl := Transition.next.inj next
          simp only [World.onRaise, World.pass, hexception, if_true]
          exact .inl ⟨current, rfl, rfl⟩

omit [Node.MainRule] in
/-- While a task is owed an answer it evaluates no other await. -/
theorem Running.Owes.alone (owes : s.Owes a) (tended : s.Tended) (await : s.await? = some b) :
    b.task ≠ a.task := by
  obtain ⟨w, c, stack⟩ := s
  have parked : ∀ {code : Stack}, (w.loop.promise a.task).parked? = some code → b.task ≠ a.task := by
    intro code parked
    simp only [Running.await?] at await
    split at await
    · rename_i p rest boundary
      obtain rfl := Option.some.inj await
      have full : stack ≠ [] := by
        rintro rfl
        contradiction
      rintro own
      rw [← own, (tended.running full).away] at parked
      contradiction
    · obtain rfl := Option.some.inj await
      rintro own
      rw [← own, Loop.parked_of_size_le (Nat.le_refl _)] at parked
      contradiction
    · contradiction
  cases owes with
  | fresh h => exact parked h
  | waiting _ h => exact parked h
  | starting _ control =>
    obtain rfl : c = _ := control
    simp [Running.await?] at await
  | @arriving o _ _ control =>
    obtain rfl : c = .ofOutcome o := control
    cases o <;> simp [Running.await?, Control.ofOutcome] at await

end Awaits

/-! ### Whole runs -/

/-- No await of the same task is evaluated in the states. -/
def Await.Alone (a : Await) (states : List Running) : Prop :=
  ∀ m ∈ states, ∀ b, m.await? = some b → b.task ≠ a.task

/-- An await gets its answer in one of the states, the last one first, before its task evaluates any
other. -/
def Await.Gets (a : Await) (states : List Running) (o : Outcome) : Prop :=
  ∃ newer m between, states = newer ++ m :: between ∧ m.Replies a o ∧ a.Alone between

/-- What has become of an await in the states after it, the last one first, and in the state after
these. -/
inductive Await.Fate (a : Await) (later : List Running) (s : Running) : Prop
  | owed (owes : s.Owes a) (alone : a.Alone later)
  | answered {o : Outcome} (observed : a.promise ∈ s.world.observed)
      (tells : s.world.loop.Tells a.cause o) (gets : a.Gets (s :: later) o)
  | abandoned {f : Failure} (observed : a.promise ∈ s.world.observed)
      (tells : s.world.loop.Tells a.cause (.error f)) (fatal : f.isException = false)

/-- A promise was awaited in one of the states. -/
def Awaited (states : List Running) (p : Nat) : Prop :=
  ∃ m ∈ states, ∃ a, m.await? = some a ∧ a.promise = p

section Runs

variable {config : Config} {program : Node} {before : List Running} {s : Running}

/-- Every await is owed an answer or has got one. -/
theorem Trace.fate (trace : Trace config program before s) {later earlier : List Running} {m : Running}
    (split : before = later ++ m :: earlier) {a : Await} (await : m.await? = some a) :
    a.Fate later s := by
  let _ : Node.MainRule := .any
  induction trace generalizing later with
  | start => cases later <;> contradiction
  | @next before s s' trace leads ih =>
    obtain ⟨orderly, tended⟩ := trace.tended fun _ _ => trivial
    cases later with
    | nil =>
      obtain ⟨rfl, -⟩ := List.cons.inj split
      exact .owed (tended.owes await leads) (List.forall_mem_nil _)
    | cons m' later =>
      obtain ⟨rfl, rest⟩ := List.cons.inj split
      have keeps := (leads.schedules orderly tended).keeps tended
      cases ih rest with
      | owed owes alone =>
        have alone : a.Alone (s :: later) := List.forall_mem_cons.mpr ⟨fun b => owes.alone tended, alone⟩
        rcases owes.step orderly tended leads with owes | ⟨observed, o, tells, answers | ⟨f, rfl, fatal⟩⟩
        · exact .owed owes alone
        · exact .answered observed tells ⟨[], s', _, rfl, answers, alone⟩
        · exact .abandoned observed tells fatal
      | answered observed tells gets =>
        obtain ⟨newer, m, between, split, answers, alone⟩ := gets
        exact .answered (leads.keeps_observed orderly observed) (keeps.tells tells)
          ⟨s' :: newer, m, between, congrArg _ split, answers, alone⟩
      | abandoned observed tells fatal =>
        exact .abandoned (leads.keeps_observed orderly observed) (keeps.tells tells) fatal

/-- What counts as awaited was awaited, and so was what the task is going to await with its first step. -/
theorem Trace.awaited (trace : Trace config program before s) :
    (∀ p ∈ s.world.observed, Awaited before p) ∧
    (∀ t p code, (s.world.loop.promise t).parked? = some (.taskStart (.await (.promise p)) :: code) →
      Awaited before p) ∧
    ∀ p code, s.stack = .taskStart (.await (.promise p)) :: code → Awaited before p := by
  let _ : Node.MainRule := .any
  induction trace with
  | start =>
    obtain ⟨w, blank, follows⟩ := follows_start config program.withIdentities fun _ _ => trivial
    obtain ⟨upper, hstack, pile, -⟩ := follows.grows
    refine ⟨fun p hp => ?_, fun t p code e => ?_, fun p code e => ?_⟩
    · rw [follows.evolves.observed, blank.observed] at hp
      contradiction
    · have old := follows.evolves.naps.parked_before (fun seconds q => by simp) e
      rw [blank.promise] at old
      contradiction
    · have started := (pile.isOpen (.task (a := 0) (f := .programEnd) rfl)).started (.await (.promise p))
      rw [← hstack, e] at started
      exact absurd (List.mem_cons_self ..) started
  | @next before s s' trace leads ih =>
    obtain ⟨orderly, tended⟩ := trace.tended fun _ _ => trivial
    have schedules := leads.schedules orderly tended
    obtain ⟨observed, parked, running⟩ := ih
    have earlier : ∀ {p}, Awaited before p → Awaited (s :: before) p := by
      rintro p ⟨m, hm, a, ha⟩
      exact ⟨m, List.mem_cons_of_mem _ hm, a, ha⟩
    refine ⟨fun p hp => ?_, fun t p code e => ?_, fun p code e => ?_⟩
    · rcases leads.observed orderly with same | ⟨q, takes, new⟩
      · exact earlier (observed p (same ▸ hp))
      · rw [new] at hp
        rcases List.mem_cons.mp hp with rfl | hp
        · rcases takes with ⟨a, await, rfl⟩ | ⟨v, code, -, top⟩
          · exact ⟨s, List.mem_cons_self .., a, await, rfl⟩
          · exact earlier (running p code top)
        · exact earlier (observed p hp)
    · rcases schedules.first e with old | ⟨asks, rest, boundary⟩
      · exact earlier (parked t p code old)
      · exact ⟨s, List.mem_cons_self .., _, by rw [Running.await?, asks, boundary], rfl⟩
    · obtain ⟨t, top⟩ := schedules.top e
      exact earlier (parked t p code top)

/-- The step after a body has ended settles its promise. -/
theorem Running.Leads.rejects {s' : Running} [Node.MainRule] (leads : s.Leads s') (orderly : s.Orderly)
    (tended : s.Tended) {p : Nat} {e : Failure} (rejects : s.rejects? = some (p, e)) :
    p ∈ s'.world.tracked ∧ s'.world.loop.outcome? p = some (.error e) := by
  obtain ⟨w, c, stack⟩ := s
  simp only [Running.rejects?] at rejects
  split at rejects
  · rename_i failure stack
    split at rejects
    · rename_i exception
      obtain ⟨rfl, rfl⟩ := Prod.mk.inj (Option.some.inj rejects)
      cases leads with
      | step next =>
        obtain rfl := Transition.next.inj next
        simp only [World.onRaise, exception, if_true]
        refine ⟨Array.mem_push_self, ?_⟩
        exact (Loop.outcome_add w.loop.promises.size).trans (if_pos rfl)
    · contradiction
  · rename_i failure p stack
    obtain ⟨rfl, rfl⟩ := Prod.mk.inj (Option.some.inj rejects)
    obtain rfl := orderly.stands.eq_nil rfl
    obtain ⟨made, -, -⟩ := tended.ending rfl
    cases leads with
    | step next =>
      obtain rfl := Transition.next.inj next
      exact ⟨made, (Loop.outcome_settle (tended.world.made p made).2 p).trans (if_pos rfl)⟩
  · contradiction

/-- A promise is rejected if its body has ended with a failure. -/
theorem Trace.rejected (trace : Trace config program before s) (p : Nat) (e : Failure) :
    p ∈ s.world.tracked ∧ s.world.loop.outcome? p = some (.error e) ↔
      ∃ m ∈ before, m.rejects? = some (p, e) := by
  let _ : Node.MainRule := .any
  induction trace with
  | start =>
    obtain ⟨w, blank, follows⟩ := follows_start config program.withIdentities fun _ _ => trivial
    constructor
    · rintro ⟨made, failed⟩
      obtain ⟨made, -⟩ := follows.evolves.naps.rejected made failed
      rw [blank.tracked] at made
      simp at made
    · rintro ⟨m, hm, -⟩
      contradiction
  | @next before s s' trace leads ih =>
    obtain ⟨orderly, tended⟩ := trace.tended fun _ _ => trivial
    have schedules := leads.schedules orderly tended
    constructor
    · rintro ⟨made, failed⟩
      rcases schedules.rejected tended made failed with old | rejects
      · obtain ⟨m, hm, rejects⟩ := ih.mp old
        exact ⟨m, List.mem_cons_of_mem _ hm, rejects⟩
      · exact ⟨s, List.mem_cons_self .., rejects⟩
    · rintro ⟨m, hm, rejects⟩
      rcases List.mem_cons.mp hm with rfl | hm
      · exact leads.rejects orderly tended rejects
      · obtain ⟨made, failed⟩ := ih.mpr ⟨m, hm, rejects⟩
        exact ⟨schedules.tracked made, schedules.keeps tended p _ failed⟩

/-- A run that is over has settled what the program has made. -/
theorem World.settled_of_end? {w : World} {fin : Finished} (background : w.config.settleBackground = true)
    (finished : w.end? = some (.ok fin)) :
    fin.world = w ∧ w.ending? ≠ none ∧ ∀ p ∈ w.tracked, w.loop.outcome? p ≠ none := by
  have settled : w.isSettled = true → ∀ p ∈ w.tracked, w.loop.outcome? p ≠ none := by
    intro h p hp e
    obtain ⟨i, hi, rfl⟩ := Array.mem_iff_getElem.mp hp
    have hpending := Array.all_eq_true.mp h i hi
    simp [Loop.isPending, e] at hpending
  unfold World.end? at finished
  rw [background, Bool.true_and] at finished
  split at finished
  · contradiction
  · rename_i failure ending
    split at finished
    · cases Option.some.inj finished
    · split at finished
      · contradiction
      · rename_i h
        obtain rfl := Except.ok.inj (Option.some.inj finished)
        exact ⟨rfl, by rw [ending]; simp, settled (by simpa using h)⟩
  · rename_i ending
    split at finished
    · contradiction
    · rename_i h
      obtain rfl := Except.ok.inj (Option.some.inj finished)
      exact ⟨rfl, by rw [ending]; simp, settled (by simpa using h)⟩

/-- When the program has ended and its promises are settled, no task has any code left. -/
theorem Running.Tended.at_rest (tended : s.Tended) (ended : s.world.ending? ≠ none)
    (settled : ∀ p ∈ s.world.tracked, s.world.loop.outcome? p ≠ none) :
    s.stack = [] ∧ ∀ t, (s.world.loop.promise t).parked? = none := by
  obtain ⟨away, other⟩ := tended.ended ended
  constructor
  · by_contra full
    have drives := tended.running full
    rcases drives.owns with ⟨-, made⟩ | ⟨-, main⟩
    · exact settled _ made drives.pending
    · exact other full main
  · intro t
    cases hcode : (s.world.loop.promise t).parked? with
    | none => rfl
    | some code =>
      obtain ⟨pending, owns⟩ := tended.world.parked t code hcode
      rcases owns with ⟨-, made⟩ | ⟨-, rfl⟩
      · exact absurd pending (settled t made)
      · rw [away] at hcode
        contradiction

/-- Where no task has any code left, no await is owed an answer. -/
theorem Running.Owes.not_at_rest {a : Await} (owes : s.Owes a) (stack : s.stack = [])
    (parked : ∀ t, (s.world.loop.promise t).parked? = none) : False := by
  cases owes with
  | fresh h | waiting _ h =>
    rw [parked] at h
    contradiction
  | starting _ _ h | arriving _ _ _ h =>
    rw [stack] at h
    contradiction

/-- The failures that nobody has awaited, with the promises that they belong to. -/
def World.unawaited (w : World) : List (Nat × Failure) :=
  w.tracked.toList.filterMap fun p =>
    match w.loop.outcome? p with
    | some (.error failure) => if w.observed.contains p then none else some (p, failure)
    | _ => none

theorem World.rejections_eq (w : World) : w.rejections = w.unawaited.map Prod.snd := by
  rw [World.rejections, World.unawaited, List.map_filterMap]
  congr 1
  funext p
  cases w.loop.outcome? p with
  | none => rfl
  | some o =>
    cases o with
    | ok v => rfl
    | error failure =>
      simp only
      split <;> rfl

theorem World.mem_unawaited {w : World} {p : Nat} {e : Failure} :
    (p, e) ∈ w.unawaited ↔ (p ∈ w.tracked ∧ w.loop.outcome? p = some (.error e)) ∧ p ∉ w.observed := by
  simp only [World.unawaited, List.mem_filterMap, Array.mem_toList_iff]
  constructor
  · rintro ⟨q, made, h⟩
    split at h
    · rename_i f failed
      split at h
      · contradiction
      · rename_i new
        obtain ⟨rfl, rfl⟩ := Prod.mk.inj (Option.some.inj h)
        exact ⟨⟨made, failed⟩, by simpa using new⟩
    · contradiction
  · rintro ⟨⟨made, failed⟩, new⟩
    refine ⟨p, made, ?_⟩
    simp [failed, new]

theorem World.sorted_unawaited {w : World} (sorted : w.tracked.toList.Pairwise (· < ·)) :
    (w.unawaited.map Prod.fst).Pairwise (· < ·) := by
  have sub : (w.unawaited.map Prod.fst).Sublist w.tracked.toList := by
    rw [World.unawaited]
    generalize w.tracked.toList = promises
    induction promises with
    | nil => exact .slnil
    | cons p promises ih =>
      rw [List.filterMap_cons]
      split
      · exact ih.cons p
      · rename_i entry h
        split at h
        · split at h
          · contradiction
          · obtain rfl := Option.some.inj h
            exact ih.cons_cons p
        · contradiction
  exact sorted.sublist sub

/-- A run that is over has halted. -/
theorem Running.Orderly.halts [Node.MainRule] (orderly : s.Orderly) (stack : s.stack = []) {result : RunEnd}
    (finished : s.world.end? = some result) : s.step = .halt result := by
  obtain ⟨w, c, code⟩ := s
  obtain rfl : code = [] := stack
  have halts : w.continue = .halt result := by rw [World.continue, finished]
  cases c with
  | execute | evaluate | suspend => exact absurd rfl (orderly.isOpen rfl).ne_nil
  | parked | value | complete | resumed | raise => exact halts

theorem Trace.earlier (trace : Trace config program before s) {m : Running} (hm : m ∈ before) :
    ∃ earlier, Trace config program earlier m := by
  induction trace with
  | start => contradiction
  | next trace _ ih =>
    rcases List.mem_cons.mp hm with rfl | hm
    · exact ⟨_, trace⟩
    · exact ih hm

/-- Bodies of accepted programs end with failures that scripts can see. -/
theorem Good.rejects [Node.Strays] {L : Ledger} (good : Good L s) {p : Nat} {e : Failure}
    (rejects : s.rejects? = some (p, e)) : e.isException = true := by
  obtain ⟨w, c, stack⟩ := s
  simp only [Running.rejects?] at rejects
  split at rejects
  · split at rejects
    · rename_i exception
      obtain ⟨-, rfl⟩ := Prod.mk.inj (Option.some.inj rejects)
      exact exception
    · contradiction
  · obtain ⟨-, rfl⟩ := Prod.mk.inj (Option.some.inj rejects)
    cases good with
    | raise r passes =>
      obtain ⟨marks, spans, -⟩ := r.path
      cases spans with
      | frame takes => cases takes
      | _ => exact Failure.Clean.isException passes
  · contradiction

/-- Accepted programs await only where the await can be served. -/
theorem Good.awaits [Node.Strays] {L : Ledger} (good : Good L s) {p : Nat}
    (asks : s.control = .suspend (.await (.promise p))) : ∃ a, s.await? = some a ∧ a.promise = p := by
  cases good with
  | await r async =>
    obtain rfl := Request.await.inj (Control.suspend.inj asks)
    obtain ⟨marks, spans, -⟩ := r.path
    obtain ⟨f, rest, boundary, rfl | rfl⟩ := spans.async_boundary rfl async
    · exact ⟨_, by rw [Running.await?, boundary], rfl⟩
    · exact ⟨_, by rw [Running.await?, boundary], rfl⟩
  | _ => cases asks

/-- When a run is over every await has its answer, if there can be one. -/
theorem Trace.gets (trace : Trace config program before s) (stack : s.stack = [])
    (parked : ∀ t, (s.world.loop.promise t).parked? = none) {later earlier : List Running} {m : Running}
    (split : before = later ++ m :: earlier) {a : Await} (await : m.await? = some a) :
    a.promise ∈ s.world.observed ∧ ∃ o, s.world.loop.Tells a.cause o ∧
      ((∀ f, o = .error f → f.isException = true) → a.Gets (s :: later) o) := by
  cases trace.fate split await with
  | owed owes => exact (owes.not_at_rest stack parked).elim
  | answered observed tells gets => exact ⟨observed, _, tells, fun _ => gets⟩
  | @abandoned f observed tells fatal =>
    refine ⟨observed, _, tells, fun visible => ?_⟩
    rw [visible f rfl] at fatal
    contradiction

/-- **Main result.**  Failures of tasks are neither lost nor reported twice.  A run, of whatever program
and in whatever order of its tasks, that waits for what it has started and comes to its end reports
failures of different promises, in the order in which the promises were made: those of the bodies that
have ended with a failure and whose promises nobody has awaited, once each.  A promise of which that
cannot be said, because it was awaited, is rejected with one failure, and that failure arrives at every
await: at the code that awaits, before its task comes to any other await, if scripts can see the failure
at all.  Only a task that awaits itself is told that it may not.  In runs of accepted programs scripts can
see every failure of a body, and every await of a promise is one of these. -/
theorem Trace.accounts_for_failures (trace : Trace config program before s)
    (background : config.settleBackground = true) {fin : Finished} (finished : s.world.end? = some (.ok fin)) :
    (s.stack = [] ∧ s.step = .halt (.ok fin)) ∧
    (∃ failed : List (Nat × Failure),
      fin.world.rejections = failed.map Prod.snd ∧ fin.world.unhandledRejections = failed.length ∧
      (failed.map Prod.fst).Pairwise (· < ·) ∧
      ∀ p e, (p, e) ∈ failed ↔ (∃ m ∈ before, m.rejects? = some (p, e)) ∧ ¬ Awaited before p) ∧
    (∀ p e, (∃ m ∈ before, m.rejects? = some (p, e)) →
      (∀ e', (∃ m ∈ before, m.rejects? = some (p, e')) → e' = e) ∧
      ∀ later m earlier a, before = later ++ m :: earlier → m.await? = some a → a.promise = p →
        (a.task ≠ p → e.isException = true → a.Gets (s :: later) (.error e)) ∧
        (a.task = p → a.Gets (s :: later) (.error (.host .runtime)))) ∧
    (Accepted config program → ∀ m ∈ before, ∀ p,
      (∀ e, m.rejects? = some (p, e) → e.isException = true) ∧
      (m.control = .suspend (.await (.promise p)) → ∃ a, m.await? = some a ∧ a.promise = p)) := by
  let _ : Node.MainRule := .any
  obtain ⟨orderly, tended⟩ := trace.tended fun _ _ => trivial
  obtain ⟨hworld, ended, settled⟩ := World.settled_of_end? (trace.config_eq ▸ background) finished
  obtain ⟨stack, parked⟩ := tended.at_rest ended settled
  have awaited : ∀ p, Awaited before p → p ∈ s.world.observed := by
    rintro p ⟨m, hm, a, await, rfl⟩
    obtain ⟨later, earlier, split⟩ := List.append_of_mem hm
    exact (trace.gets stack parked split await).1
  refine ⟨⟨stack, orderly.halts stack finished⟩, ⟨s.world.unawaited, ?_, ?_, ?_, fun p e => ?_⟩, ?_, ?_⟩
  · rw [hworld, World.rejections_eq]
  · rw [hworld, World.unhandledRejections, World.rejections_eq, List.length_map]
  · exact World.sorted_unawaited tended.world.sorted
  · rw [World.mem_unawaited, trace.rejected p e]
    exact and_congr_right fun _ => not_congr ⟨trace.awaited.1 p, awaited p⟩
  · intro p e rejects
    obtain ⟨-, failed⟩ := (trace.rejected p e).mpr rejects
    refine ⟨fun e' rejects' => ?_, fun later m earlier a split await promise => ?_⟩
    · obtain ⟨-, failed'⟩ := (trace.rejected p e').mpr rejects'
      exact Except.error.inj (Option.some.inj (failed'.symm.trans failed))
    · obtain ⟨-, o, tells, gets⟩ := trace.gets stack parked split await
      refine ⟨fun other visible => ?_, fun own => ?_⟩
      · have hcause : a.cause = .promise p := by rw [Await.cause, promise, if_neg other]
        rw [hcause] at tells
        obtain rfl := Option.some.inj (tells.symm.trans failed)
        exact gets fun f e => Except.error.inj e ▸ visible
      · have hcause : a.cause = .turn (.error (.host .runtime)) := by rw [Await.cause, promise, if_pos own]
        rw [hcause] at tells
        obtain rfl : o = .error (.host .runtime) := tells
        exact gets fun f e => Except.error.inj e ▸ rfl
  · intro accepted m hm p
    let _ : Node.Strays := ⟨program.strayLabels⟩
    obtain ⟨earlier, trace'⟩ := trace.earlier hm
    obtain ⟨L, run⟩ := trace'.run
    have good := run.good accepted fun _ => id
    exact ⟨fun e rejects => good.rejects rejects, good.awaits⟩

end Runs

/-- A run some steps further, with its tasks in their own order. -/
def follow : Nat → List Running → Running → List Running × Running
  | 0, before, s => (before, s)
  | n + 1, before, s =>
    match s.step with
    | .next s' => follow n (s :: before) s'
    | .halt _ => (before, s)

theorem Trace.follow {config : Config} {program : Node} (n : Nat) {before : List Running} {s : Running}
    (trace : Trace config program before s) :
    Trace config program (follow n before s).1 (follow n before s).2 := by
  induction n generalizing before s with
  | zero => exact trace
  | succ n ih =>
    unfold Script.follow
    cases hstep : s.step with
    | halt result => exact trace
    | next s' => exact ih (trace.next (.step hstep))

/-- A function that fails after its first suspension is called twice, and the second call is awaited. -/
def failingTasks : Node :=
  { kind := .program, children := [
    { kind := .function, value := .text "f", isAsync := true, children := [
      { kind := .block, children := [
        { kind := .expressionStatement, children := [
          { kind := .await, children := [{ kind := .literal, value := .bool true }] }] },
        { kind := .throw, children := [{ kind := .literal, value := .bool true }] }] }] },
    { kind := .expressionStatement, children := [call] },
    { kind := .try, children := [
      { kind := .block, children := [
        { kind := .expressionStatement, children := [{ kind := .await, children := [call] }] }] },
      { kind := .catch, children := [{ kind := .block }] },
      { kind := .empty }] }] }
where
  call : Node := { kind := .call, children := [{ kind := .identifier, value := .text "f" }] }

/-- The failure of the first call is reported, and that of the second one arrives in the program. -/
theorem accounts_for_failures_failingTasks :
    ∃ before s fin, Trace {} failingTasks before s ∧ s.world.end? = some (.ok fin) ∧
      fin.world.rejections.length = 1 ∧
      (∃ failed : List (Nat × Failure), fin.world.rejections = failed.map Prod.snd ∧
        ∀ p e, (p, e) ∈ failed ↔ (∃ m ∈ before, m.rejects? = some (p, e)) ∧ ¬ Awaited before p) ∧
      ∃ (later : List Running) (a : Await) (e : Failure), a.task = 0 ∧ a.promise = 2 ∧
        a.Gets (s :: later) (.error e) := by
  obtain ⟨moment, hmoment⟩ : ∃ moment, moment = follow 100 [] (.start {} failingTasks.withIdentities) :=
    ⟨_, rfl⟩
  have trace : Trace {} failingTasks moment.1 moment.2 := hmoment ▸ Trace.start.follow 100
  have finished : (moment.2.world.end?.any fun result =>
      result.toOption.any fun fin => fin.world.rejections.length == 1) = true := by
    rw [hmoment]
    decide +kernel
  have awaits : (moment.1.any fun m => m.await?.any fun a => a.task == 0 && a.promise == 2) = true := by
    rw [hmoment]
    decide +kernel
  have rejects : (moment.1.any fun m => m.rejects?.any fun r => r.1 == 2 && r.2.isException) = true := by
    rw [hmoment]
    decide +kernel
  obtain ⟨before, s⟩ := moment
  obtain ⟨ends, hends⟩ := (Option.any_eq_true_iff_get ..).mp finished
  have hfin := (Option.some_get ends).symm
  generalize s.world.end?.get ends = result at hends hfin
  obtain failure | fin := result
  · contradiction
  obtain ⟨-, ⟨failed, hfailed, -, -, reported⟩, delivered, -⟩ := trace.accounts_for_failures rfl hfin
  obtain ⟨m, hm, hawait⟩ := List.any_eq_true.mp awaits
  obtain ⟨awaits, ha⟩ := (Option.any_eq_true_iff_get ..).mp hawait
  obtain ⟨m', hm', hreject⟩ := List.any_eq_true.mp rejects
  obtain ⟨rejects, hp⟩ := (Option.any_eq_true_iff_get ..).mp hreject
  have await := (Option.some_get awaits).symm
  have reject := (Option.some_get rejects).symm
  generalize m.await?.get awaits = a at ha await
  generalize m'.rejects?.get rejects = rejected at hp reject
  obtain ⟨p, e⟩ := rejected
  simp only [Bool.and_eq_true, beq_iff_eq] at ha hp
  obtain ⟨main, promise⟩ := ha
  obtain ⟨rfl, visible⟩ := hp
  obtain ⟨later, earlier, split⟩ := List.append_of_mem hm
  have gets := ((delivered 2 e ⟨m', hm', reject⟩).2 later m earlier a split await promise).1
  exact ⟨before, s, fin, trace, hfin, by simpa [Except.toOption] using hends, ⟨failed, hfailed, reported⟩,
    later, a, e, main, promise, gets (by rw [main]; decide) visible⟩

/-- A function whose body awaits the promise of its own call, and then fails. -/
def selfAwaiting : Node :=
  { kind := .program, children := [
    { kind := .function, value := .text "f", isAsync := true, children := [
      { kind := .block, children := [
        { kind := .expressionStatement, children := [
          { kind := .await, children := [{ kind := .literal, value := .bool true }] }] },
        { kind := .try, children := [
          { kind := .block, children := [
            { kind := .expressionStatement, children := [
              { kind := .await, children := [{ kind := .identifier, value := .text "p" }] }] }] },
          { kind := .empty },
          { kind := .block, children := [
            { kind := .throw, children := [{ kind := .literal, value := .text "lost" }] }] }] }] }] },
    { kind := .declaration, value := .text "const", children := [
      { kind := .declarator, value := .text "p", children := [
        { kind := .call, children := [{ kind := .identifier, value := .text "f" }] }] }] }] }

theorem wellFormed_selfAwaiting : selfAwaiting.WellFormed := by
  refine ⟨rfl, ⟨rfl, fun _ => rfl⟩, List.forall_mem_cons.mpr ⟨?_, List.forall_mem_singleton.mpr ?_⟩⟩
  · refine .function ⟨rfl, fun _ => rfl⟩ rfl (List.forall_mem_nil _) (List.forall_mem_singleton.mpr ?_)
    refine .blockBody ⟨rfl, fun _ => rfl⟩ rfl
      (List.forall_mem_cons.mpr ⟨?_, List.forall_mem_singleton.mpr ?_⟩)
    · refine .simple ⟨rfl, fun _ => rfl⟩ (.inl rfl) (List.forall_mem_singleton.mpr ?_)
      refine .operation ⟨rfl, fun _ => rfl⟩ rfl (List.forall_mem_singleton.mpr ?_)
      exact .leaf ⟨rfl, fun _ => rfl⟩ (.inr rfl) rfl
    · refine .attempt ⟨rfl, fun _ => rfl⟩ rfl rfl ?_ (.noHandler ⟨rfl, fun _ => rfl⟩ rfl rfl) ?_
      · refine .block ⟨rfl, fun _ => rfl⟩ rfl (List.forall_mem_singleton.mpr ?_)
        refine .simple ⟨rfl, fun _ => rfl⟩ (.inl rfl) (List.forall_mem_singleton.mpr ?_)
        refine .operation ⟨rfl, fun _ => rfl⟩ rfl (List.forall_mem_singleton.mpr ?_)
        exact .leaf ⟨rfl, fun _ => rfl⟩ (.inl rfl) rfl
      · refine .block ⟨rfl, fun _ => rfl⟩ rfl (List.forall_mem_singleton.mpr ?_)
        refine .simple ⟨rfl, fun _ => rfl⟩ (.inr (.inr rfl)) (List.forall_mem_singleton.mpr ?_)
        exact .leaf ⟨rfl, fun _ => rfl⟩ (.inr rfl) rfl
  · refine .declaration ⟨rfl, fun _ => rfl⟩ rfl (List.forall_mem_singleton.mpr ?_)
    refine .declarator ⟨rfl, fun _ => rfl⟩ rfl (List.forall_mem_singleton.mpr (.part ?_))
    refine .operation ⟨rfl, fun _ => rfl⟩ rfl (List.forall_mem_singleton.mpr ?_)
    exact .leaf ⟨rfl, fun _ => rfl⟩ (.inl rfl) rfl

/-- A failure that a script may catch is on its way. -/
def Running.throws (s : Running) : Bool :=
  match s.control with
  | .raise failure => failure.isScript
  | _ => false

theorem Running.Replies.throws {s : Running} {a : Await} {e : Failure} (h : s.Replies a (.error e))
    (script : e.isScript = true) : s.throws = true := by
  rw [Running.throws, h.2.1]
  exact script

/-- The body fails with a value that it throws itself.  Its promise was awaited, so nothing is reported,
and yet the failure never arrives at the await: neither of the two places where a failure should show has
it. -/
theorem lost_selfAwaiting : Accepted {} selfAwaiting ∧
    ∃ before s fin e, Trace {} selfAwaiting before s ∧ s.world.end? = some (.ok fin) ∧
      (∃ m ∈ before, m.rejects? = some (1, e)) ∧ Awaited before 1 ∧ fin.world.rejections = [] ∧
      ∀ m ∈ before, ∀ a, m.await? = some a → a.promise = 1 →
        ∀ m' ∈ s :: before, ¬ m'.Replies a (.error e) := by
  refine ⟨⟨wellFormed_selfAwaiting, by decide +kernel, _, rfl⟩, ?_⟩
  obtain ⟨moment, hmoment⟩ : ∃ moment, moment = follow 100 [] (.start {} selfAwaiting.withIdentities) :=
    ⟨_, rfl⟩
  have trace : Trace {} selfAwaiting moment.1 moment.2 := hmoment ▸ Trace.start.follow 100
  have finished : (moment.2.world.end?.any fun result =>
      result.toOption.any fun fin => fin.world.rejections.isEmpty) = true := by
    rw [hmoment]
    decide +kernel
  have rejects : (moment.1.any fun m => m.rejects?.any fun r => r.1 == 1 && r.2.isScript) = true := by
    rw [hmoment]
    decide +kernel
  have awaits : (moment.1.any fun m => m.await?.any fun a => a.promise == 1) = true := by
    rw [hmoment]
    decide +kernel
  have silent : (moment.1.all fun m => m.await?.all fun a => a.promise != 1 ||
      (moment.2 :: moment.1).all fun m' => !(m'.throws && m'.stack.length == a.code.length)) = true := by
    rw [hmoment]
    decide +kernel
  obtain ⟨before, s⟩ := moment
  obtain ⟨ends, hends⟩ := (Option.any_eq_true_iff_get ..).mp finished
  have hfin := (Option.some_get ends).symm
  generalize s.world.end?.get ends = result at hends hfin
  obtain failure | fin := result
  · contradiction
  obtain ⟨m, hm, hreject⟩ := List.any_eq_true.mp rejects
  obtain ⟨rejects, hp⟩ := (Option.any_eq_true_iff_get ..).mp hreject
  have reject := (Option.some_get rejects).symm
  generalize m.rejects?.get rejects = rejected at hp reject
  obtain ⟨p, e⟩ := rejected
  simp only [Bool.and_eq_true, beq_iff_eq] at hp
  obtain ⟨rfl, script⟩ := hp
  obtain ⟨n, hn, hawait⟩ := List.any_eq_true.mp awaits
  obtain ⟨awaits, ha⟩ := (Option.any_eq_true_iff_get ..).mp hawait
  refine ⟨before, s, fin, e, trace, hfin, ⟨m, hm, reject⟩, ?_, ?_, ?_⟩
  · exact ⟨n, hn, _, (Option.some_get awaits).symm, by simpa using ha⟩
  · simpa [Except.toOption] using hends
  · intro m hm a await own m' hm' replies
    have quiet := List.all_eq_true.mp silent m hm
    rw [await, Option.all_some, own, bne_self_eq_false, Bool.false_or] at quiet
    have quiet := List.all_eq_true.mp quiet m' hm'
    rw [replies.throws script, replies.2.2] at quiet
    simp at quiet

end ScopeExit.Script
