import ScopeExit.Proofs.Script.Resumption
import ScopeExit.Proofs.Script.Steps
/-!
How deep calls go.

The limit counts calls and nothing else.  A call counts from the moment that its body is entered until
the body has come to its end, and a call that would go beyond the limit fails before any of its code
runs.  So there are never more calls in progress than the limit allows, whatever the program does and in
whatever order its tasks run.

A body may be entered without a call: when a generator takes a step, and when a task goes on.  Neither
counts, so more bodies may be nested than the limit says.  The bodies on a stack are as many as the calls
and the steps of generators that are in progress there, and that of the task itself.
-/
namespace ScopeExit

namespace Loop

/-- How many calls are in progress in the code of the tasks that are parked. -/
def parkedCalls (l : Loop Script.Stack) : Nat :=
  Script.Stack.calls (l.promises.toList.flatMap fun p => p.parked?.getD [])

section ParkedCalls

variable {l : Loop Script.Stack}

theorem calls_flatMap_modify {α : Type} (g : α → Script.Stack) (f : α → α) (xs : List α) {i : Nat} {x : α}
    (h : xs[i]? = some x) :
    Script.Stack.calls ((xs.modify i f).flatMap g) + (g x).calls =
      Script.Stack.calls (xs.flatMap g) + (g (f x)).calls := by
  induction xs generalizing i with
  | nil => simp at h
  | cons y xs ih =>
    cases i with
    | zero =>
      obtain rfl : y = x := by simpa using h
      simp only [List.modify_zero_cons, List.flatMap_cons, Script.Stack.calls_append]
      omega
    | succ i =>
      have hrest := ih (i := i) (by simpa using h)
      simp only [List.modify_succ_cons, List.flatMap_cons, Script.Stack.calls_append]
      omega

theorem parkedCalls_modify (p : Nat) (f : Promise Script.Stack → Promise Script.Stack) :
    (l.modify p f).parkedCalls + Script.Stack.calls ((l.promise p).parked?.getD []) ≤
      l.parkedCalls + Script.Stack.calls ((f (l.promise p)).parked?.getD []) := by
  cases h : l.promises[p]? with
  | none =>
    have hlist : l.promises.toList.modify p f = l.promises.toList := by
      refine List.modify_eq_self ?_
      simpa using h
    have hpromise : l.promise p = default := by simp [promise, Array.getD_eq_getD_getElem?, h]
    have hsame : (l.modify p f).parkedCalls = l.parkedCalls := by
      simp only [parkedCalls, modify, Array.toList_modify, hlist]
    rw [hpromise, hsame]
    exact Nat.le_add_right ..
  | some q =>
    have hpromise : l.promise p = q := by simp [promise, Array.getD_eq_getD_getElem?, h]
    have hget : l.promises.toList[p]? = some q := by simpa using h
    have hsum := calls_flatMap_modify (fun p => p.parked?.getD []) f _ hget
    rw [hpromise]
    simp only [parkedCalls, modify, Array.toList_modify]
    omega

theorem parkedCalls_add (q : Promise Script.Stack) :
    (l.add q).2.parkedCalls = l.parkedCalls + Script.Stack.calls (q.parked?.getD []) := by
  simp [parkedCalls, add]

/-- Only what is parked matters. -/
theorem parkedCalls_keep {p : Nat} {f : Promise Script.Stack → Promise Script.Stack}
    (same : ∀ q, (f q).parked? = q.parked?) : (l.modify p f).parkedCalls ≤ l.parkedCalls := by
  have hmodify := parkedCalls_modify (l := l) p f
  rw [same] at hmodify
  omega

theorem parkedCalls_hold (task : Nat) (code : Script.Stack) :
    (l.modify task fun p => { p with parked? := some code }).parkedCalls ≤ l.parkedCalls + code.calls := by
  have hmodify := parkedCalls_modify (l := l) task fun p => { p with parked? := some code }
  simp only [Option.getD_some] at hmodify
  omega

theorem parkedCalls_park (task : Nat) (code : Script.Stack) (p : Nat) :
    (l.park task code p).parkedCalls ≤ l.parkedCalls + code.calls :=
  Nat.le_trans (parkedCalls_keep fun _ => rfl) (parkedCalls_hold task code)

theorem parkedCalls_rest (task : Nat) (code : Script.Stack) (seconds : Float) :
    (l.rest task code seconds).parkedCalls ≤ l.parkedCalls + code.calls := by
  unfold rest
  split
  · exact parkedCalls_hold task code
  · have hadd := parkedCalls_add (l := l) {}
    refine Nat.le_trans (parkedCalls_park ..) ?_
    exact Nat.add_le_add_right (Nat.le_of_eq hadd) _

theorem parkedCalls_settle (p : Nat) (outcome : Outcome) :
    (l.settle p outcome).parkedCalls ≤ l.parkedCalls := by
  have henqueue : ∀ (tasks : List Nat) (l : Loop Script.Stack),
      (tasks.foldl (fun l task => l.enqueue (.wake task outcome)) l).parkedCalls = l.parkedCalls := by
    intro tasks
    induction tasks with
    | nil => exact fun l => rfl
    | cons task tasks ih => exact fun l => ih _
  exact Nat.le_trans (Nat.le_of_eq (henqueue ..)) (parkedCalls_keep fun _ => rfl)

theorem parkedCalls_congr {l' : Loop Script.Stack} (h : l'.promises = l.promises) :
    l'.parkedCalls = l.parkedCalls := by rw [parkedCalls, h, parkedCalls]

theorem parkedCalls_internal {l' : Loop Script.Stack} (h : l.next = .internal l') :
    l'.parkedCalls ≤ l.parkedCalls := by
  have hgoes := l.goes_next
  rw [h] at hgoes
  cases hgoes with
  | ring job => exact parkedCalls_settle (l := { l with turn := _ }) ..
  | stale => exact Nat.le_refl _
  | turn => exact Nat.le_of_eq (parkedCalls_congr (promises_startTurn l))

/-- Code that goes on is parked no longer. -/
theorem parkedCalls_resume {l' : Loop Script.Stack} {task : Nat} {code : Script.Stack} {outcome : Outcome}
    (h : l.next = .resume task code outcome l') : l'.parkedCalls + code.calls ≤ l.parkedCalls := by
  have hgoes := l.goes_next
  rw [h] at hgoes
  cases hgoes with
  | @wake task outcome turn code job parked =>
    have hmodify := parkedCalls_modify (l := { l with turn := turn }) task
      fun p => { p with parked? := none }
    have hcode : (({ l with turn := turn } : Loop Script.Stack).promise task).parked? = some code := parked
    rw [hcode] at hmodify
    exact hmodify

end ParkedCalls

end Loop

namespace Script

open World Stack

/-! ### Calls in progress -/

section Counts

variable {stack : Stack}

theorem calls_of_boundary {b : Frame} {rest : Stack} (h : stack.fromBoundary = b :: rest) :
    stack.segment.calls + rest.calls ≤ stack.calls := by
  have hsplit := congrArg calls stack.segment_append_fromBoundary
  have hcons := calls_cons rest (f := b)
  rw [h, calls_append] at hsplit
  omega

theorem calls_tail (f : Frame) (stack : Stack) : stack.calls ≤ calls (f :: stack) := by
  rw [calls_cons]
  exact Nat.le_add_right ..

theorem calls_belowDrive (stack : Stack) : stack.belowDrive.calls ≤ stack.calls := by
  induction stack with
  | nil => exact Nat.le_refl _
  | cons f stack ih =>
    unfold Stack.belowDrive
    split
    · contradiction
    · rename_i e
      rw [(List.cons.inj e).2]
      exact calls_tail ..
    · rename_i e
      rw [← (List.cons.inj e).2]
      exact Nat.le_trans ih (calls_tail f stack)

end Counts

/-- The calls that are in progress somewhere are counted, and the count is within the limit. -/
structure Running.Counted (s : Running) : Prop where
  calls : (s.stack.calls + s.world.loop.parkedCalls : Nat) ≤ s.world.depth
  limit : s.world.depth ≤ max s.world.config.maxCallDepth 0

/-- What leaves the count alone and puts no call into play. -/
theorem Running.Counted.of_le {w w' : World} {c c' : Control} {stack stack' : Stack}
    (before : Running.Counted ⟨w, c, stack⟩)
    (le : stack'.calls + w'.loop.parkedCalls ≤ stack.calls + w.loop.parkedCalls)
    (depth : w'.depth = w.depth) (config : w'.config = w.config) :
    Running.Counted ⟨w', c', stack'⟩ where
  calls := by
    have hcalls := before.calls
    rw [depth]
    exact Int.le_trans (Int.ofNat_le.mpr le) hcalls
  limit := by
    rw [depth, config]
    exact before.limit

theorem Naps.parkedCalls {w w' : World} (h : Naps w w') : w'.loop.parkedCalls = w.loop.parkedCalls := by
  induction h with
  | none loop => rw [loop]
  | nap _ seconds loop _ ih =>
    rw [loop, ← ih]
    exact Loop.parkedCalls_add _

section Steps

variable [Node.MainRule] {w : World} {c : Control} {stack : Stack} {s s' : Running}

theorem Running.Follows.counted (h : s.Follows w stack) (before : Running.Counted ⟨w, c, stack⟩) :
    s.Counted := by
  obtain ⟨upper, hstack, -, -, hdepth⟩ := h.grows
  have hlimit := h.limit
  have hcalls : ((stack.calls + w.loop.parkedCalls : Nat) : Int) ≤ w.depth := before.calls
  have hbefore : w.depth ≤ max w.config.maxCallDepth 0 := before.limit
  refine ⟨?_, ?_⟩
  · rw [hstack, calls_append, hdepth, h.evolves.naps.parkedCalls]
    omega
  · rw [h.evolves.config]
    omega

theorem Served.counted {request : Request} (h : Served w stack request s) (hk : w.Kept)
    (before : Running.Counted ⟨w, c, stack⟩) : s.Counted := by
  have hsettling : Stack.calls (.settling :: stack) = stack.calls := calls_plain _ rfl
  cases h with
  | settled => exact before.of_le (Nat.le_of_eq (congrArg (· + _) hsettling)) rfl rfl
  | waits =>
    have hpark := Loop.parkedCalls_park (l := w.loop) w.current (.settling :: stack)
    refine before.of_le ?_ rfl rfl
    rw [calls_nil, Nat.zero_add, Nat.add_comm stack.calls, ← hsettling]
    exact hpark _
  | own | turn =>
    have hhold := Loop.parkedCalls_hold (l := w.loop) w.current (.settling :: stack)
    refine before.of_le ?_ rfl rfl
    rw [calls_nil, Nat.zero_add, Nat.add_comm stack.calls, ← hsettling]
    exact hhold
  | drain a handle reason =>
    exact (follows_drain w _ a handle .async reason hk).counted (c := c)
      (before.of_le (Nat.le_of_eq (congrArg (· + _) hsettling)) rfl rfl)
  | refused => exact before.of_le (Nat.add_le_add_right (calls_belowDrive stack) _) rfl rfl

/-- A step keeps count of the calls. -/
theorem Running.Moves.counted (h : s.Moves s') (hk : s.world.Kept) (before : s.Counted) : s'.Counted := by
  have tail : ∀ {f : Frame} {stack : Stack} {n : Nat}, s.stack = f :: stack →
      stack.calls + n ≤ s.stack.calls + n := by
    intro f stack n e
    rw [e]
    exact Nat.add_le_add_right (calls_tail f stack) n
  have below : ∀ {b : Frame} {rest : Stack} {n : Nat}, s.stack.fromBoundary = b :: rest →
      rest.calls + n ≤ s.stack.calls + n := by
    intro b rest n e
    have hcalls := calls_of_boundary e
    omega
  cases h with
  | code _ h => exact h.counted before
  | @frame w c f stack s' _ _ h =>
    exact h.counted (c := c) (before.of_le (tail rfl) rfl rfl)
  | pass => exact before.of_le (tail rfl) rfl rfl
  | @callEnd w o o' stack =>
    have hend : Stack.calls (.callEnd :: stack) = stack.calls + 1 := calls_cons stack
    have hcalls : ((Stack.calls (.callEnd :: stack) + w.loop.parkedCalls : Nat) : Int) ≤ w.depth :=
      before.calls
    have hlimit : w.depth ≤ max w.config.maxCallDepth 0 := before.limit
    refine ⟨?_, Int.le_trans (Int.sub_le_self _ (by decide)) hlimit⟩
    dsimp only
    omega
  | @settled w o stack =>
    have hadd := Loop.parkedCalls_add (l := w.loop) { outcome? := some o }
    refine before.of_le ?_ rfl rfl
    exact Nat.le_trans (Nat.le_of_eq (congrArg (stack.calls + ·) hadd)) (tail rfl)
  | stepEnd => exact before.of_le (tail rfl) rfl rfl
  | @start w v request stack s' h => exact h.counted (c := .value v) hk (before.of_le (tail rfl) rfl rfl)
  | @abandon w failure stack =>
    exact before.of_le (Nat.le_trans (Nat.add_le_add_right (calls_belowDrive stack) _) (tail rfl)) rfl rfl
  | refuse boundary => exact before.of_le (below boundary) rfl rfl
  | refuseStep boundary => exact before.of_le (below boundary) rfl rfl
  | yield boundary => exact before.of_le (below boundary) rfl rfl
  | @spawn w request stack rest boundary =>
    have hadd := Loop.parkedCalls_add (l := w.loop)
      { parked? := some (.taskStart request :: stack.segment ++ [.asyncDrive, .taskEnd w.loop.promises.size]) }
    have hcalls := calls_of_boundary boundary
    have hcode : Stack.calls (.taskStart request :: stack.segment ++
        [.asyncDrive, .taskEnd w.loop.promises.size]) = stack.segment.calls := by
      rw [calls_append, calls_cons]
      rfl
    simp only [Option.getD_some, hcode] at hadd
    refine before.of_le ?_ rfl rfl
    refine Nat.le_trans (Nat.le_of_eq (congrArg (rest.calls + ·) hadd)) ?_
    omega
  | @serve w request stack rest s' boundary h => exact h.counted hk before
  | @nap w v seconds stack =>
    have hrest := Loop.parkedCalls_rest (l := w.loop) w.current stack seconds
    refine before.of_le ?_ rfl rfl
    refine Nat.le_trans ?_ (tail rfl)
    rw [calls_nil, Nat.zero_add, Nat.add_comm]
    exact hrest
  | @taskEnd w o p stack =>
    refine before.of_le ?_ rfl rfl
    rw [calls_nil, Nat.zero_add]
    exact Nat.le_trans (Loop.parkedCalls_settle p o) (Nat.le_add_left ..)
  | programEnd => exact before.of_le (by rw [calls_nil]; exact Nat.add_le_add_right (Nat.zero_le _) _) rfl rfl
  | @resume w c stack code task o loop _ h =>
    refine before.of_le ?_ rfl rfl
    rw [Nat.add_comm]
    exact Nat.le_trans (Loop.parkedCalls_resume h) (Nat.le_add_left ..)
  | @internal w c stack loop _ h =>
    refine before.of_le ?_ rfl rfl
    rw [calls_nil, Nat.zero_add]
    exact Nat.le_trans (Loop.parkedCalls_internal h) (Nat.le_add_left ..)

end Steps

/-- In every state of every run the calls in progress are counted. -/
theorem Run.counted {config : Config} {program : Node} {L : Ledger} {s : Running}
    (run : Run config program L s) : s.Counted := by
  let _ : Node.MainRule := .any
  induction run with
  | start =>
    obtain ⟨w, blank, follows⟩ := follows_start config program.withIdentities fun _ _ => trivial
    refine follows.counted (c := .parked) ⟨?_, ?_⟩
    · rw [blank.depth, blank.loop]
      exact Int.le_refl 0
    · rw [blank.depth]
      exact Int.le_max_right ..
  | step before next ih =>
    have orderly := before.orderly fun _ _ => trivial
    exact (orderly.moves next).counted orderly.kept ih
  | @reorder L w stack loop before other ih =>
    refine ih.of_le ?_ rfl rfl
    exact Nat.le_of_eq (congrArg _ (Loop.parkedCalls_congr other.promises))

/-! ### Accepted programs -/

/-- Below what a task waits for, or drives itself, no call is in progress. -/
def Stack.Rooted : Stack → Prop
  | [] => True
  | f :: rest => (f.isLocal = false → calls rest = 0) ∧ Rooted rest

namespace Stack

theorem rooted_of_calls {stack : Stack} (h : stack.calls = 0) : stack.Rooted := by
  induction stack with
  | nil => trivial
  | cons f stack ih =>
    have hrest : calls stack = 0 := Nat.le_zero.mp (h ▸ calls_tail f stack)
    exact ⟨fun _ => hrest, ih hrest⟩

/-- What is local needs no root. -/
theorem Rooted.append {upper stack : Stack} (h : stack.Rooted) (isLocal : ∀ f ∈ upper, f.isLocal = true) :
    Rooted (upper ++ stack) := by
  induction upper with
  | nil => exact h
  | cons f upper ih =>
    obtain ⟨hf, hupper⟩ := List.forall_mem_cons.mp isLocal
    exact ⟨fun other => absurd (hf.symm.trans other) (by decide), ih hupper⟩

theorem Rooted.of_append {upper stack : Stack} (h : Rooted (upper ++ stack)) : stack.Rooted := by
  induction upper with
  | nil => exact h
  | cons f upper ih => exact ih h.2

theorem Rooted.below {b : Frame} {stack rest : Stack} (h : stack.Rooted)
    (boundary : stack.fromBoundary = b :: rest) : Rooted (b :: rest) := by
  rw [← stack.segment_append_fromBoundary, boundary] at h
  exact h.of_append

end Stack

section Drains

variable (w : World) (stack : Stack)

theorem calls_leaveFrame (a : Nat) (handle : FrameHandle) (result : Except Failure DrainOutcome) :
    (w.leaveFrame stack a handle result).stack.calls = stack.calls := by
  simp only [World.leaveFrame]
  split <;> rfl

/-- The actions of a drain run on top of the stack, in no call. -/
theorem calls_proceed (a : Nat) (handle : FrameHandle) (next : DrainStep Deferred × Registry Deferred) :
    (w.proceed stack a handle next).stack.calls = stack.calls := by
  obtain ⟨step, r⟩ := next
  cases step with
  | run action d =>
    simp only [World.proceed]
    split <;> simp [calls_cons, Frame.isCallEnd]
  | ended result => exact calls_leaveFrame ..

theorem calls_drain (a : Nat) (handle : FrameHandle) (mode : ActionMode) (reason : ExitReason) :
    (w.drain stack a handle mode reason).stack.calls = stack.calls := by
  unfold World.drain
  split
  · exact calls_proceed ..
  · exact calls_leaveFrame ..

end Drains

/-- The calls on the stack are all that is counted. -/
structure Running.Balanced (s : Running) : Prop where
  depth : s.world.depth = s.stack.calls
  rooted : s.stack.Rooted
  parked : ∀ t code, (s.world.loop.promise t).parked? = some code → code.calls = 0

theorem Naps.parked {w w' : World} (h : Naps w w') {t : Nat} {code : Stack}
    (e : (w'.loop.promise t).parked? = some code) :
    (w.loop.promise t).parked? = some code ∨ code.calls = 0 := by
  induction h with
  | none loop => exact .inl (loop ▸ e)
  | nap _ seconds loop _ ih =>
    rw [loop] at e
    rcases Loop.parked_add e with e | e
    · exact ih e
    · rw [← Option.some.inj e]
      exact .inr rfl

section Steps

variable [Node.MainRule] {w : World} {stack : Stack} {s s' : Running}

/-- What is built on a stack counts if it is local, or if nothing is called below and by it. -/
theorem Running.Follows.balanced (h : s.Follows w stack) (depth : w.depth = stack.calls)
    (parked : ∀ t code, (w.loop.promise t).parked? = some code → code.calls = 0)
    (rooted : s.stack.Rooted) : s.Balanced := by
  obtain ⟨upper, hstack, -, -, hdepth⟩ := h.grows
  refine ⟨?_, rooted, fun t code e => ?_⟩
  · rw [hdepth, hstack, calls_append, depth]
    omega
  · exact (h.evolves.naps.parked e).elim (parked t code) id

theorem Served.balanced {request : Request} (h : Served w stack request s) (hk : w.Kept)
    (root : stack.calls = 0) (depth : w.depth = stack.calls)
    (parked : ∀ t code, (w.loop.promise t).parked? = some code → code.calls = 0) : s.Balanced := by
  have hsettling : Stack.calls (.settling :: stack) = 0 := (calls_plain _ rfl).trans root
  have idle : w.depth = (Stack.calls [] : Nat) := depth.trans (congrArg _ root)
  cases h with
  | settled => exact ⟨depth.trans (congrArg _ (root.trans hsettling.symm)), rooted_of_calls hsettling, parked⟩
  | waits =>
    refine ⟨idle, trivial, fun t code e => (Loop.parked_park e).elim (parked t code) ?_⟩
    rintro rfl
    exact hsettling
  | own | turn =>
    refine ⟨idle, trivial, fun t code e => (Loop.parked_hold e).elim (parked t code) ?_⟩
    rintro rfl
    exact hsettling
  | drain a handle reason =>
    refine (follows_drain w _ a handle .async reason hk).balanced ?_ parked (rooted_of_calls ?_)
    · rw [depth, root, hsettling]
    · rw [calls_drain, hsettling]
  | refused =>
    have hbelow : stack.belowDrive.calls = 0 := Nat.le_zero.mp (root ▸ calls_belowDrive stack)
    exact ⟨depth.trans (congrArg _ (root.trans hbelow.symm)), rooted_of_calls hbelow, parked⟩

omit [Node.MainRule] in
/-- Where no call is in progress a request brings none. -/
theorem Served.calls_eq_zero {request : Request} (h : Served w stack request s) (root : stack.calls = 0) :
    s.stack.calls = 0 := by
  have hsettling : Stack.calls (.settling :: stack) = 0 := (calls_plain _ rfl).trans root
  cases h with
  | settled => exact hsettling
  | waits | own | turn => rfl
  | drain => exact (calls_drain ..).trans hsettling
  | refused => exact Nat.le_zero.mp (root ▸ calls_belowDrive stack)

end Steps

section Accepted

variable {L : Ledger} {w : World} {c : Control} {f : Frame} {stack : Stack} {s' : Running}

/-- Code builds local frames. -/
theorem rooted_code (isCode : c.isCode = true) (next : Running.step ⟨w, c, stack⟩ = .next s')
    (rooted : stack.Rooted) : s'.stack.Rooted := by
  have keeps : s'.Keeps stack := by
    cases c with
    | execute node scope =>
      rw [← Transition.next.inj next]
      exact keeps_execute ..
    | evaluate node scope =>
      rw [← Transition.next.inj next]
      exact keeps_evaluate ..
    | _ => contradiction
  obtain ⟨upper, hstack, isLocal⟩ := keeps
  rw [hstack]
  exact rooted.append isLocal

/-- A local frame builds local frames. -/
theorem Good.keeps_frame [Node.Strays] (good : Good L ⟨w, c, f :: stack⟩) (outcome : c.isOutcome = true)
    (isLocal : f.isLocal = true) (next : Running.step ⟨w, c, f :: stack⟩ = .next s') : s'.Keeps stack := by
  cases good with
  | value r =>
    rw [← Transition.next.inj next]
    exact keeps_onValue _ _ r.sys.localGenerators isLocal _
  | complete r =>
    rw [← Transition.next.inj next]
    exact r.keeps_onComplete isLocal _
  | resumed =>
    rw [← Transition.next.inj next]
    exact keeps_onResumed ..
  | raise r =>
    rw [← Transition.next.inj next]
    exact r.keeps_onRaise isLocal _
  | _ => contradiction

/-- Where no call is in progress, what stands there for a task brings none. -/
theorem calls_frame (plain : f.isPlain = true) (other : f.isLocal = false) (outcome : c.isOutcome = true)
    (root : stack.calls = 0) (next : Running.step ⟨w, c, f :: stack⟩ = .next s') : s'.stack.calls = 0 := by
  have hbelow : stack.belowDrive.calls = 0 := Nat.le_zero.mp (root ▸ calls_belowDrive stack)
  cases f with
  | settling =>
    cases c with
    | raise failure =>
      rw [← Transition.next.inj next]
      simp only [World.onRaise, World.pass]
      split
      · exact root
      · exact hbelow
    | execute | evaluate | suspend | parked => contradiction
    | _ =>
      rw [← Transition.next.inj next]
      exact root
  | taskStart request =>
    cases c with
    | value v =>
      rw [← Transition.next.inj next]
      exact (served w stack request).calls_eq_zero root
    | execute | evaluate | suspend | parked => contradiction
    | _ =>
      rw [← Transition.next.inj next]
      exact root
  | draining a d =>
    cases c with
    | complete | raise =>
      rw [← Transition.next.inj next]
      exact (calls_proceed ..).trans root
    | execute | evaluate | suspend | parked => contradiction
    | _ =>
      rw [← Transition.next.inj next]
      exact root
  | asyncDrive | nap | taskEnd | programEnd => contradiction
  | _ => cases other

theorem Good.rooted_frame [Node.Strays] (good : Good L ⟨w, c, f :: stack⟩) (outcome : c.isOutcome = true)
    (plain : f.isPlain = true) (rooted : Rooted (f :: stack))
    (next : Running.step ⟨w, c, f :: stack⟩ = .next s') : s'.stack.Rooted := by
  by_cases isLocal : f.isLocal = true
  · obtain ⟨upper, hstack, hupper⟩ := good.keeps_frame outcome isLocal next
    rw [hstack]
    exact rooted.2.append hupper
  · have other : f.isLocal = false := by simpa using isLocal
    exact rooted_of_calls (calls_frame plain other outcome (rooted.1 other) next)

/-- The end of a call takes what a call comes to. -/
theorem Good.outcome_callEnd [Node.Strays] (good : Good L ⟨w, c, .callEnd :: stack⟩) (outcome : c.isOutcome = true) :
    ∃ o, c = .ofOutcome o := by
  have called : ∀ {loc : Nat → Host} {p : Port}, Ready L loc w (.callEnd :: stack) p [] → p = .called := by
    intro loc p r
    obtain ⟨marks, spans, -⟩ := r.path
    cases spans with
    | frame takes => cases takes
    | callEnd => rfl
  cases good with
  | @value loc w stack p v r form => exact ⟨.ok v, rfl⟩
  | @raise loc w stack p failure r passes => exact ⟨.error failure, rfl⟩
  | complete r form =>
    rw [called r] at form
    cases form
  | resumed r => cases called r
  | _ => contradiction

end Accepted

/-- **Main result.**  A step of an accepted program keeps the count exact. -/
theorem Running.Moves.balanced [Node.MainRule] [Node.Strays] {L : Ledger} {s s' : Running}
    (h : s.Moves s') (orderly : s.Orderly) (good : Good L s) (next : s.step = .next s')
    (before : s.Balanced) : s'.Balanced := by
  have depth := before.depth
  have rooted := before.rooted
  have parked := before.parked
  have below : ∀ {b : Frame} {rest : Stack}, s.stack.fromBoundary = b :: rest → b.isCallEnd = false →
      s.control.needsCode = true → s.stack.segment.calls = 0 ∧ s.stack.calls = rest.calls := by
    intro b rest e hb needs
    obtain ⟨b', rest', h⟩ := (orderly.isOpen needs).bounded
    have hsplit := congrArg Stack.calls s.stack.segment_append_fromBoundary
    rw [e, calls_append, h.calls, calls_cons, hb] at hsplit
    exact ⟨h.calls, by simpa using hsplit.symm⟩
  cases h with
  | code isCode h => exact h.balanced depth parked (rooted_code isCode next rooted)
  | @frame w c f stack s' outcome plain h =>
    exact h.balanced (depth.trans (congrArg _ (calls_plain _ plain))) parked
      (good.rooted_frame outcome plain rooted next)
  | @pass w c f stack outcome group ignores =>
    have hf : f.isCallEnd = false := by
      cases f with
      | callEnd =>
        obtain ⟨o, rfl⟩ := good.outcome_callEnd outcome
        cases o <;> contradiction
      | _ => rfl
    have hcalls : Stack.calls (f :: stack) = stack.calls := by simp [calls_cons, hf]
    exact ⟨depth.trans (congrArg _ hcalls), rooted.2, parked⟩
  | @callEnd w o o' stack =>
    have hcalls : Stack.calls (.callEnd :: stack) = stack.calls + 1 := calls_cons stack
    have depth : w.depth = (Stack.calls (.callEnd :: stack) : Nat) := depth
    refine ⟨?_, rooted.2, parked⟩
    dsimp only
    omega
  | @settled w o stack =>
    refine ⟨depth, rooted.2, fun t code e => (Loop.parked_add e).elim (parked t code) fun e => by cases e⟩
  | stepEnd => exact ⟨depth, rooted.2, parked⟩
  | start h =>
    have root := rooted.1 rfl
    exact h.balanced orderly.kept root depth parked
  | @abandon w failure stack =>
    have root : stack.calls = 0 := rooted.1 rfl
    have hbelow : stack.belowDrive.calls = 0 := Nat.le_zero.mp (root ▸ calls_belowDrive stack)
    exact ⟨depth.trans (congrArg _ (root.trans hbelow.symm)), rooted_of_calls hbelow, parked⟩
  | refuse boundary =>
    exact ⟨depth.trans (congrArg _ (below boundary rfl rfl).2), (rooted.below boundary).2, parked⟩
  | refuseStep boundary =>
    exact ⟨depth.trans (congrArg _ (below boundary rfl rfl).2), (rooted.below boundary).2, parked⟩
  | yield boundary =>
    exact ⟨depth.trans (congrArg _ (below boundary rfl rfl).2), (rooted.below boundary).2, parked⟩
  | @spawn w request stack rest boundary =>
    refine ⟨depth.trans (congrArg _ (below boundary rfl rfl).2), (rooted.below boundary).2, ?_⟩
    intro t code e
    rcases Loop.parked_add e with e | e
    · exact parked t code e
    · rw [← Option.some.inj e, calls_append, calls_cons, (below boundary rfl rfl).1]
      rfl
  | @serve w request stack rest s' boundary h =>
    have root : stack.calls = 0 := ((below boundary rfl rfl).2).trans ((rooted.below boundary).1 rfl)
    exact h.balanced orderly.kept root depth parked
  | @nap w v seconds stack =>
    have root : stack.calls = 0 := rooted.1 rfl
    refine ⟨depth.trans (congrArg _ root), trivial, fun t code e => ?_⟩
    rcases Loop.parked_rest e with e | rfl
    · exact parked t code e
    · exact root
  | @taskEnd w o p stack =>
    have root : stack.calls = 0 := rooted.1 rfl
    refine ⟨depth.trans (congrArg _ root), trivial, fun t code e => parked t code ?_⟩
    rwa [← Loop.parked_settle]
  | @programEnd w c stack =>
    have root : stack.calls = 0 := rooted.1 rfl
    exact ⟨depth.trans (congrArg _ root), trivial, parked⟩
  | @resume w c stack code task o loop idle h =>
    obtain ⟨hcode, later⟩ := Loop.parked_resume h
    have hempty : stack = [] := by
      rcases idle with rfl | rfl
      · cases good
        rfl
      · rfl
    subst hempty
    have root := parked task code hcode
    exact ⟨depth.trans (congrArg _ root.symm), rooted_of_calls root, fun t code e => parked t code (later t code e)⟩
  | @internal w c stack loop idle h =>
    have hempty : stack = [] := by
      rcases idle with rfl | rfl
      · cases good
        rfl
      · rfl
    subst hempty
    refine ⟨depth, trivial, fun t code e => parked t code ?_⟩
    rwa [← Loop.parked_internal h]

/-- In every state of a run of an accepted program the calls on the stack are all that is counted. -/
theorem Run.balanced {config : Config} {program : Node} (accepted : Accepted config program) {L : Ledger}
    {s : Running} (run : Run config program L s) : s.Balanced := by
  let _ : Node.MainRule := .any
  let _ : Node.Strays := ⟨program.strayLabels⟩
  induction run with
  | start =>
    obtain ⟨w, blank, follows⟩ := follows_start config program.withIdentities fun _ _ => trivial
    obtain ⟨stack, root, upper, hstack, isLocal⟩ : ∃ stack : Stack, stack.calls = 0 ∧
        (Running.start config program.withIdentities).Keeps stack :=
      ⟨_, rfl, keeps_enterFrame ..⟩
    refine follows.balanced ?_ ?_ ?_
    · rw [blank.depth]
      rfl
    · intro t code e
      rw [blank.loop] at e
      exact (Loop.parked_add e).elim (fun e => by cases e) fun e => by cases e
    · rw [hstack]
      exact (rooted_of_calls root).append isLocal
  | step before next ih =>
    have orderly := before.orderly fun _ _ => trivial
    exact (orderly.moves next).balanced orderly (before.good accepted fun _ => id) next ih
  | reorder _ other ih =>
    refine ⟨ih.depth, ih.rooted, fun t code e => ih.parked t code ?_⟩
    rwa [Loop.promise, other.promises, ← Loop.promise] at e

/-! ### The limit -/

/-- **Main result.**  At every moment of every run, of whatever program and in whatever order of its
tasks, no more calls are in progress than the limit allows, and the bodies on the stack are at most those
of these calls, those of the steps of generators in progress, and that of the task.  Where the limit is
reached a call fails at once, with an error that scripts can catch and with nothing else changed.  And in
a run of an accepted program what is counted is what is on the stack, so a call that has ended in
whatever way is counted no longer. -/
theorem Run.bounds_calls {config : Config} {program : Node} {L : Ledger} {s : Running}
    (run : Run config program L s) :
    (s.stack.calls : Int) ≤ max config.maxCallDepth 0 ∧
    s.stack.bodies ≤ s.stack.calls + s.stack.steps + 1 ∧
    (config.maxCallDepth ≤ s.stack.calls → tooDeep.isScript = true ∧
      ∀ stack closure arguments,
        s.world.callClosure stack closure arguments = ⟨s.world, .raise tooDeep, stack⟩) ∧
    (Accepted config program → s.world.depth = s.stack.calls) := by
  let _ : Node.MainRule := .any
  have counted := run.counted
  have hcalls := counted.calls
  have hlimit := counted.limit
  rw [run.config_eq] at hlimit
  refine ⟨by omega, (run.orderly fun _ _ => trivial).stands.bodies_le, fun reached => ⟨rfl, ?_⟩, ?_⟩
  · intro stack closure arguments
    have full : s.world.depth ≥ s.world.config.maxCallDepth := by
      rw [run.config_eq]
      omega
    unfold World.callClosure
    rw [if_pos full]
  · exact fun accepted => (run.balanced accepted).depth

/-- A function that calls itself. -/
def selfCall : Node :=
  { kind := .program, children := [
    { kind := .function, value := .text "f", children := [
      { kind := .block, children := [
        { kind := .expressionStatement, children := [
          { kind := .call, children := [{ kind := .identifier, value := .text "f" }] }] }] }] },
    { kind := .expressionStatement, children := [
      { kind := .call, children := [{ kind := .identifier, value := .text "f" }] }] }] }

theorem accepted_selfCall (config : Config) : Accepted config selfCall := by
  refine ⟨⟨rfl, ⟨rfl, fun _ => rfl⟩, List.forall_mem_cons.mpr ⟨?_, List.forall_mem_singleton.mpr ?_⟩⟩, ?_, ?_⟩
  · refine .function ⟨rfl, by simp [NodeKind.isFunction]⟩ rfl (List.forall_mem_nil _)
      (List.forall_mem_singleton.mpr ?_)
    refine .blockBody ⟨rfl, fun _ => rfl⟩ rfl (List.forall_mem_singleton.mpr ?_)
    refine .simple ⟨rfl, fun _ => rfl⟩ (.inl rfl) (List.forall_mem_singleton.mpr ?_)
    refine .operation ⟨rfl, fun _ => rfl⟩ rfl (List.forall_mem_singleton.mpr ?_)
    exact .leaf ⟨rfl, fun _ => rfl⟩ (.inl rfl) rfl
  · refine .simple ⟨rfl, fun _ => rfl⟩ (.inl rfl) (List.forall_mem_singleton.mpr ?_)
    refine .operation ⟨rfl, fun _ => rfl⟩ rfl (List.forall_mem_singleton.mpr ?_)
    exact .leaf ⟨rfl, fun _ => rfl⟩ (.inl rfl) rfl
  · decide +kernel
  · exact ⟨_, rfl⟩

/-- The function has called itself once, and the limit is reached. -/
theorem bounds_calls_selfCall :
    (observed { maxCallDepth := 2 } selfCall 20).2.stack.calls = 2 ∧
    (∀ stack closure arguments, (observed { maxCallDepth := 2 } selfCall 20).2.world.callClosure stack closure
      arguments = ⟨(observed { maxCallDepth := 2 } selfCall 20).2.world, .raise tooDeep, stack⟩) ∧
    (observed { maxCallDepth := 2 } selfCall 20).2.world.depth = 2 := by
  have calls : (observed { maxCallDepth := 2 } selfCall 20).2.stack.calls = 2 := by decide +kernel
  obtain ⟨-, -, refused, exact_⟩ := (Run.observed { maxCallDepth := 2 } selfCall 20).bounds_calls
  have depth := exact_ (accepted_selfCall _)
  rw [calls] at refused depth
  exact ⟨calls, (refused (by decide)).2, depth⟩

/-- A loop over a generator that loops over a generator. -/
def nestedLoops : Node :=
  { kind := .program, children := [
    { kind := .function, value := .text "inner", isGenerator := true, children := [
      { kind := .block, children := [
        { kind := .expressionStatement, children := [{ kind := .yield }] }] }] },
    { kind := .function, value := .text "outer", isGenerator := true, children := [
      { kind := .block, children := [loop "inner"] }] },
    loop "outer"] }
where
  /-- A loop over what a call gives. -/
  loop (function : Text) : Node :=
    { kind := .forOfLoop, value := .text "x", children := [
      { kind := .call, children := [{ kind := .identifier, value := .text function }] },
      { kind := .block }] }

theorem accepted_nestedLoops (config : Config) : Accepted config nestedLoops := by
  have hloop : ∀ function s, Node.Shaped Node.IsPlain .statement s (nestedLoops.loop function) := by
    intro function s
    refine .forOfLoop ⟨rfl, fun _ => rfl⟩ rfl rfl ?_ (.block ⟨rfl, fun _ => rfl⟩ rfl (List.forall_mem_nil _))
    refine .operation ⟨rfl, fun _ => rfl⟩ rfl (List.forall_mem_singleton.mpr ?_)
    exact .leaf ⟨rfl, fun _ => rfl⟩ (.inl rfl) rfl
  refine ⟨⟨rfl, ⟨rfl, fun _ => rfl⟩, ?_⟩, ?_, ?_⟩
  · refine List.forall_mem_cons.mpr ⟨?_, List.forall_mem_cons.mpr ⟨?_, List.forall_mem_singleton.mpr (hloop _ _)⟩⟩
    · refine .function ⟨rfl, by simp [NodeKind.isFunction]⟩ rfl (List.forall_mem_nil _)
        (List.forall_mem_singleton.mpr ?_)
      refine .blockBody ⟨rfl, fun _ => rfl⟩ rfl (List.forall_mem_singleton.mpr ?_)
      refine .simple ⟨rfl, fun _ => rfl⟩ (.inl rfl) (List.forall_mem_singleton.mpr ?_)
      exact .operation ⟨rfl, fun _ => rfl⟩ rfl (List.forall_mem_nil _)
    · refine .function ⟨rfl, by simp [NodeKind.isFunction]⟩ rfl (List.forall_mem_nil _)
        (List.forall_mem_singleton.mpr ?_)
      exact .blockBody ⟨rfl, fun _ => rfl⟩ rfl (List.forall_mem_singleton.mpr (hloop _ _))
  · decide +kernel
  · exact ⟨_, rfl⟩

/-- With a limit of one call the bodies of both generators are on the stack above the module, and no call
is in progress: what the limit bounds is the number of calls, and not of bodies. -/
theorem exceeds_nestedLoops : Accepted { maxCallDepth := 1 } nestedLoops ∧
    (observed { maxCallDepth := 1 } nestedLoops 16).2.stack.bodies = 3 ∧
    (observed { maxCallDepth := 1 } nestedLoops 16).2.stack.steps = 2 ∧
    (observed { maxCallDepth := 1 } nestedLoops 16).2.stack.calls = 0 :=
  ⟨accepted_nestedLoops _, by decide +kernel, by decide +kernel, by decide +kernel⟩

end Script

end ScopeExit
