import ScopeExit.Proofs.Script.Exits
/-!
Attempts.

A try statement runs its block, then its handler if the block has failed with something that a script may
catch, then its finalizer.  `Attempt.after` says which part follows when one has come to an exit reason, and
what the statement comes to in the end; it knows nothing of frames, tasks or generators.  The main result is
that every run takes an attempt through exactly these stages, however long the code of a part is suspended and
whatever else goes on meanwhile.

A part is a block, so it runs in a frame of its own.  That frame takes a request to return from a generator and
is drained before the part comes to its exit reason, so the attempt meets completions and failures that can be
caught, and nothing else.
-/
namespace ScopeExit

/-- A try statement of the shape that the documentation of `Node` gives: its parts are blocks. -/
def Node.isTry (n : Node) : Bool :=
  match n.kind, n.children with
  | .try, [block, handler, finalizer] =>
    block.kind == .block && (handler.isEmpty || handler.children.map Node.kind == [.block]) &&
      (finalizer.isEmpty || finalizer.kind == .block)
  | _, _ => false

namespace Script

open World Stack

/-- A try statement that is executed: its parts, the scope that it is executed in, and the code below it down to
the end of its activation. -/
structure Attempt where
  block : Node
  handler : Node
  finalizer : Node
  scope : Nat
  activation : Nat
  below : Stack
  isBlock : block.kind = .block
  handles : handler.isEmpty = true ∨ handler.children.map Node.kind = [.block]
  finishes : finalizer.isEmpty = true ∨ finalizer.kind = .block
  isPiece : below.IsPiece activation

namespace Attempt

/-- A part of an attempt that is executed. -/
inductive Part where
  | block
  /-- The handler takes the failure of the block. -/
  | handler (failure : Failure)
  /-- The finalizer runs while an exit reason is pending. -/
  | finalizer (pending : ExitReason)

/-- How far an attempt has come. -/
inductive Stage where
  | starts (part : Part)
  | runs (part : Part)
  | ends (part : Part) (reason : ExitReason)
  /-- The statement itself has come to an exit reason. -/
  | results (reason : ExitReason)
  | past
  /-- The code has been given up with the generator that it belongs to. -/
  | lost

section Stages

variable (t : Attempt)

/-- The block and the handler are behind, with an exit reason. -/
def finish (reason : ExitReason) : Stage :=
  if t.finalizer.isEmpty then .results reason else .starts (.finalizer reason)

/-- What follows a part that has come to an exit reason. -/
def after : Part → ExitReason → Stage
  | .block, .throwing (some failure) =>
    if t.handler.isEmpty || !failure.isScript then t.finish (.throwing (some failure))
    else .starts (.handler failure)
  | .block, reason | .handler _, reason => t.finish reason
  | .finalizer pending, reason => .results (if reason.isAbrupt then reason else pending)

/-- The frame that waits for a part. -/
def frame : Part → Frame
  | .block => .tryBody t.handler t.finalizer t.scope
  | .handler _ => .catchBody t.finalizer t.scope
  | .finalizer pending => .finallyBody pending

/-- The code that waits for a part. -/
def waiting (part : Part) : Stack := t.frame part :: t.below

/-- The block that a part consists of. -/
inductive Executes : Part → Node → Prop
  | block : Executes .block t.block
  | handler {failure : Failure} {body : Node} (present : t.handler.isEmpty = false)
      (children : t.handler.children = [body]) : Executes (.handler failure) body
  | finalizer {pending : ExitReason} (present : t.finalizer.isEmpty = false) :
      Executes (.finalizer pending) t.finalizer

end Stages

/-- What is pending while a finalizer runs may be given to the code below. -/
def Part.Sound : Part → Prop
  | .finalizer pending => pending.IsOrdinary
  | _ => True

/-- The name of the handler is bound to the value of a failure, in the scope that the handler is executed in. -/
def Binds (t : Attempt) (failure : Failure) (s s' : Running) : Prop :=
  t.handler.value.isNull = false → ∃ body inner, s'.control = .execute body inner ∧
    s'.world.scopes.binding? inner t.handler.name = some (s.world.heap.failureValue failure).1 ∧
    s'.world.heap = (s.world.heap.failureValue failure).2

/-- A state of a run, at a stage of an attempt. -/
inductive At (t : Attempt) (config : Config) (program : Node) : Stage → Running → Prop
  | starts (part : Part) {block : Node} {w : World} {inner : Nat} {rest : Stack} (sound : part.Sound)
      (executes : t.Executes part block) :
      At t config program (.starts part) ⟨w, .execute block inner, t.waiting part ++ rest⟩
  /-- The code in the frame of the block is running, or that frame is being left. -/
  | inside {part : Part} {s : Running} (sound : part.Sound) (h : s.InFrame (.statementEnd :: t.waiting part)) :
      At t config program (.runs part) s
  | closing {part : Part} {reason : ExitReason} {s : Running} (sound : part.Sound)
      (h : s.Brings reason (.statementEnd :: t.waiting part)) : At t config program (.runs part) s
  /-- The frames that the part has left are drained, and of those around the attempt none is. -/
  | ends {part : Part} {reason : ExitReason} {s : Running} (sound : part.Sound)
      (h : s.Gives reason (t.waiting part)) (inOrder : s.InOrder config program) :
      At t config program (.ends part reason) s
  | results {reason : ExitReason} {s : Running} (h : s.Gives reason t.below) :
      At t config program (.results reason) s
  | past {s : Running} : At t config program .past s
  | lost {s : Running} : At t config program .lost s

/-- How an attempt gets on in one step of a run. -/
inductive Turn (t : Attempt) : Stage → Running → Stage → Running → Prop
  | enters {part : Part} {s s' : Running} : Turn t (.starts part) s (.runs part) s'
  | goesOn {part : Part} {s s' : Running} : Turn t (.runs part) s (.runs part) s'
  | ends {part : Part} {reason : ExitReason} {s s' : Running} : Turn t (.runs part) s (.ends part reason) s'
  | follows {part : Part} {reason : ExitReason} {s s' : Running}
      (binds : ∀ failure, t.after part reason = .starts (.handler failure) → t.Binds failure s s') :
      Turn t (.ends part reason) s (t.after part reason) s'
  | leaves {reason : ExitReason} {s s' : Running} : Turn t (.results reason) s .past s'
  | stays {s s' : Running} : Turn t .past s .past s'
  /-- The generator that is suspended in a part is told to throw a value that cannot be described. -/
  | strands {part : Part} {s s' : Running} (h : s.Strands (t.waiting part)) : Turn t (.runs part) s .lost s'
  | staysLost {s s' : Running} : Turn t .lost s .lost s'

end Attempt

section Steps

variable {config : Config} {program : Node} {L : Ledger} {t : Attempt} {w : World} {part : Attempt.Part}
  {r : ExitReason} {rest : Stack} {s s' : Running}

theorem Attempt.isPiece_waiting (t : Attempt) (part : Attempt.Part) : (t.waiting part).IsPiece t.activation :=
  t.isPiece.cons (by cases part <;> rfl)

theorem Attempt.Executes.isBlock {block : Node} (h : t.Executes part block) : block.kind = .block := by
  cases h with
  | block => exact t.isBlock
  | handler present children =>
    rcases t.handles with empty | kinds
    · simp [present] at empty
    · simpa [children] using kinds
  | finalizer present =>
    rcases t.finishes with empty | kind
    · simp [present] at empty
    · exact kind

/-- The block and the handler are behind. -/
theorem Attempt.at_finish (t : Attempt) (ordinary : r.IsOrdinary) (w : World) (rest : Stack) :
    t.At config program (t.finish r) (w.finish (t.below ++ rest) t.finalizer t.scope r) := by
  unfold Attempt.finish World.finish
  by_cases empty : t.finalizer.isEmpty = true
  · rw [if_pos empty, if_pos empty]
    exact .results (gives_complete ordinary w t.below rest)
  · rw [if_neg empty, if_neg empty]
    exact .starts (.finalizer r) ordinary (.finalizer (by simpa using empty))

/-- No handler follows the block and the handler but the one that follows the block. -/
theorem Attempt.finish_ne_handler (t : Attempt) (r : ExitReason) (failure : Failure) :
    t.finish r ≠ .starts (.handler failure) := by
  unfold Attempt.finish
  split <;> simp

theorem binding?_bind_child (w : World) (scope : Nat) (heap : Heap) (name : Text) (v : Value) :
    (({ (w.childScope scope).2 with heap } : World).bind (w.childScope scope).1 name v).scopes.binding?
      (w.childScope scope).1 name = some v := by
  simp only [World.childScope, World.bind, Scopes.child, Scopes.add, Scopes.bind, Scopes.binding?, Scopes.get]
  rw [Array.getD_eq_getD_getElem?, Array.getElem?_modify]
  simp [lookupKey_insertKey_self]

/-- The block has failed with something that can be caught. -/
theorem Attempt.at_handle (t : Attempt) {failure : Failure} (exception : failure.isException = true) (w : World)
    (rest : Stack) :
    t.At config program (t.after .block (.throwing (some failure)))
        (w.handle (t.below ++ rest) t.handler t.finalizer t.scope failure) ∧
      ∀ f, t.after .block (.throwing (some failure)) = .starts (.handler f) →
        t.Binds f ⟨w, .raise failure, t.waiting .block ++ rest⟩
          (w.handle (t.below ++ rest) t.handler t.finalizer t.scope failure) := by
  simp only [Attempt.after, World.handle]
  by_cases passes : (t.handler.isEmpty || !failure.isScript) = true
  · simp only [if_pos passes]
    exact ⟨t.at_finish (ExitReason.isOrdinary_throwing exception) w rest,
      fun f e => absurd e (t.finish_ne_handler _ f)⟩
  · simp only [if_neg passes]
    have present : t.handler.isEmpty = false := by
      rw [Bool.or_eq_true, not_or] at passes
      simpa using passes.1
    obtain ⟨body, children, -⟩ := List.map_eq_singleton_iff.mp (t.handles.resolve_left (by simp [present]))
    simp only [World.executeChild, children, List.getElem?_cons_zero]
    refine ⟨.starts (.handler failure) trivial (.handler present children), ?_⟩
    rintro f e
    obtain rfl := Part.handler.inj (Stage.starts.inj e)
    intro named
    simp only [named, Bool.false_eq_true, if_false]
    exact ⟨body, _, rfl, binding?_bind_child .., rfl⟩

/-- What follows a part that has come to an exit reason. -/
theorem Attempt.at_after (t : Attempt) (sound : part.Sound) (h : s.Gives r (t.waiting part))
    (next : s.step = .next s') : t.At config program (t.after part r) s' ∧
      ∀ f, t.after part r = .starts (.handler f) → t.Binds f s s' := by
  have result : ∀ {k s'}, t.after part r = k → (∀ f, k ≠ .starts (.handler f)) → t.At config program k s' →
      t.At config program (t.after part r) s' ∧ ∀ f, t.after part r = .starts (.handler f) → t.Binds f s s' :=
    fun e other at_k => ⟨e ▸ at_k, fun f handler => absurd (e.symm.trans handler) (other f)⟩
  cases part with
  | block =>
    cases h with
    | @completes w rest calm =>
      rw [← Transition.next.inj next]
      refine result ?_ (t.finish_ne_handler r) (t.at_finish (ExitReason.isOrdinary_of_calm calm) w rest)
      cases r <;> first | rfl | contradiction
    | @fails w rest f reason exception =>
      obtain rfl := reason
      rw [← Transition.next.inj next]
      simp only [Attempt.waiting, Attempt.frame, List.cons_append, World.onRaise, if_pos exception]
      exact t.at_handle exception w rest
  | handler failure =>
    cases h with
    | @completes w rest calm =>
      rw [← Transition.next.inj next]
      exact result rfl (t.finish_ne_handler r) (t.at_finish (ExitReason.isOrdinary_of_calm calm) w rest)
    | @fails w rest f reason exception =>
      obtain rfl := reason
      rw [← Transition.next.inj next]
      simp only [Attempt.waiting, Attempt.frame, List.cons_append, World.onRaise, if_pos exception]
      exact result rfl (t.finish_ne_handler _)
        (t.at_finish (ExitReason.isOrdinary_throwing exception) w rest)
  | finalizer pending =>
    refine result rfl (fun f e => by cases e) (.results ?_)
    cases h with
    | @completes w rest calm =>
      rw [← Transition.next.inj next]
      simp only [Attempt.frame, World.onComplete]
      by_cases abrupt : r.isAbrupt = true
      · rw [if_pos abrupt, if_pos abrupt]
        exact .completes calm
      · rw [if_neg abrupt, if_neg abrupt]
        exact gives_complete sound w t.below rest
    | @fails w rest f reason exception =>
      obtain rfl := reason
      rw [← Transition.next.inj next]
      exact .fails rfl exception

theorem Run.attempt_step (accepted : Accepted config program) (run : Run config program L s)
    {k : Attempt.Stage} (at_k : t.At config program k s) (leads : s.Leads s') :
    ∃ k', t.Turn k s k' s' ∧ t.At config program k' s' := by
  cases at_k with
  | @starts part block w inner rest sound executes =>
    cases leads with
    | step next =>
      obtain ⟨w', child, e⟩ := execute_block executes.isBlock w (t.waiting part ++ rest) inner
      refine ⟨_, .enters, .inside sound ?_⟩
      rw [← Transition.next.inj next, e]
      exact inFrame_enterFrame (List.cons_prefix_cons.mpr ⟨rfl, List.prefix_append ..⟩)
  | @inside part _ sound h =>
    rcases run.inFrame_step accepted ((t.isPiece_waiting part).cons rfl) h leads with h | ⟨r, h⟩ | strands
    · exact ⟨_, .goesOn, .inside sound h⟩
    · exact ⟨_, .goesOn, .closing sound h⟩
    · exact ⟨_, .strands (strands.mono (List.suffix_cons ..).isInfix), .lost⟩
  | closing sound h =>
    obtain ⟨r, gives⟩ := (h.statementEnd leads).gives
    exact ⟨_, .ends, .ends sound gives (accepted.inOrder gives.outcome)⟩
  | ends sound h =>
    obtain ⟨at_next, binds⟩ := t.at_after sound h (leads.next h.outcome)
    exact ⟨_, .follows binds, at_next⟩
  | results => exact ⟨_, .leaves, .past⟩
  | past => exact ⟨_, .stays, .past⟩
  | lost => exact ⟨_, .staysLost, .lost⟩

/-- A try statement with its parts, where it is executed. -/
theorem attempt_of_isTry {n : Node} (isTry : n.isTry = true) (scope : Nat) {a : Nat} {below : Stack}
    (isPiece : below.IsPiece a) : n.kind = .try ∧ ∃ t : Attempt, n.children = [t.block, t.handler, t.finalizer] ∧
      t.scope = scope ∧ t.below = below := by
  unfold Node.isTry at isTry
  split at isTry
  · rename_i block handler finalizer kind children
    simp only [Bool.and_eq_true, Bool.or_eq_true, beq_iff_eq] at isTry
    obtain ⟨⟨isBlock, handles⟩, finishes⟩ := isTry
    exact ⟨kind, ⟨block, handler, finalizer, scope, a, below, isBlock, handles, finishes, isPiece⟩, children, rfl, rfl⟩
  · contradiction

theorem execute_try {n : Node} (kind : n.kind = .try) (children : n.children = [t.block, t.handler, t.finalizer])
    (w : World) (stack : Stack) : ∃ w' : World, w.execute stack n t.scope =
      ⟨w', .execute t.block t.scope, t.frame .block :: .statementEnd :: stack⟩ := by
  simp only [World.execute, kind, World.isCompound, if_true, World.executeCompound, children]
  exact ⟨_, rfl⟩

/-- **Main result.**  In every run of an accepted program whose generators yield in blocks only, whatever the
order of its tasks, a try statement that is executed goes through the stages of an attempt, one turn after
another, unless the generator that its code belongs to is given up.  When a part comes to an exit reason, the
frames that it has left are drained, those around the statement are not, and the next step takes the attempt to
what follows the part. -/
theorem Run.keeps_attempts (accepted : Accepted config program) (run : Run config program L s) {n : Node}
    (isTry : n.isTry = true) {scope : Nat} (executes : s.control = .execute n scope) :
    ∃ (t : Attempt) (rest : Stack) (s₁ : Running), n.children = [t.block, t.handler, t.finalizer] ∧
      t.scope = scope ∧ .statementEnd :: s.stack = t.below ++ rest ∧ s.step = .next s₁ ∧
      ∀ u, s₁.Later u → ∃ k, s₁.Goes t.Turn (.starts .block) k u ∧ t.At config program k u ∧
        ∀ part reason, k = .ends part reason →
          ∃ u', u.step = .next u' ∧ t.At config program (t.after part reason) u' := by
  let _ : Node.MainRule := .any
  obtain ⟨w, c, stack⟩ := s
  obtain rfl : c = _ := executes
  have isOpen := (run.orderly fun _ _ => trivial).isOpen rfl
  obtain ⟨piece, rest, rfl, isPiece⟩ := Stack.Open.top_piece isOpen
  obtain ⟨kind, t, children, rfl, below⟩ := attempt_of_isTry isTry scope (isPiece.cons (f := .statementEnd) rfl)
  obtain ⟨w', e⟩ := execute_try kind children w (piece ++ rest)
  refine ⟨t, rest, _, children, rfl, by rw [below]; rfl, rfl, fun u later => ?_⟩
  have starts : t.At config program (.starts .block) (w.execute (piece ++ rest) n t.scope) := by
    rw [e, ← List.cons_append, ← below]
    exact .starts .block trivial .block
  obtain ⟨k, goes, at_k⟩ := (run.step rfl).goes (t.At config program) starts
    (fun run at_k leads => run.attempt_step accepted at_k leads) later
  refine ⟨k, goes, at_k, ?_⟩
  rintro part reason rfl
  cases at_k with
  | ends sound gives =>
    obtain ⟨u', next⟩ : ∃ u', u.step = .next u' := by cases gives <;> exact ⟨_, rfl⟩
    exact ⟨u', next, (t.at_after sound gives next).1⟩

end Steps

/-- A block whose deferred action fails, with a handler and a finalizer. -/
def lateFailure : Node :=
  { kind := .program, children := [
    { kind := .try, children := [
      { kind := .block, children := [
        { kind := .defer, children := [
          { kind := .throw, children := [{ kind := .literal, value := .text "late" }] }] }] },
      { kind := .catch, value := .text "e", children := [{ kind := .block }] },
      { kind := .block }] }] }

theorem wellFormed_lateFailure : lateFailure.WellFormed := by
  refine ⟨rfl, ⟨rfl, fun _ => rfl⟩, List.forall_mem_singleton.mpr ?_⟩
  refine .attempt ⟨rfl, fun _ => rfl⟩ rfl rfl ?_ (.handler ⟨rfl, fun _ => rfl⟩ rfl rfl ?_) ?_
  · refine .block ⟨rfl, fun _ => rfl⟩ rfl (List.forall_mem_singleton.mpr ?_)
    refine .defer ⟨rfl, fun _ => rfl⟩ rfl rfl (.simple ⟨rfl, fun _ => rfl⟩ (.inr (.inr rfl)) ?_)
    exact List.forall_mem_singleton.mpr (.leaf ⟨rfl, fun _ => rfl⟩ (.inr rfl) rfl)
  · exact .block ⟨rfl, fun _ => rfl⟩ rfl (List.forall_mem_nil _)
  · exact .block ⟨rfl, fun _ => rfl⟩ rfl (List.forall_mem_nil _)

theorem accepted_lateFailure : Accepted {} lateFailure :=
  ⟨wellFormed_lateFailure, by decide +kernel, _, rfl⟩

/-- The failure of a block that its handler takes in the next step. -/
def Running.catching? (s : Running) : Option Failure :=
  match s.control, s.stack with
  | .raise failure, .tryBody handler _ _ :: _ =>
    if handler.isEmpty || !failure.isScript then none else some failure
  | _, _ => none

/-- The try statement that a state executes, with its scope. -/
def Running.tries? (s : Running) : Option (Node × Nat) :=
  match s.control with
  | .execute n scope => if n.isTry then some (n, scope) else none
  | _ => none

theorem Running.tries?_eq_some {s : Running} {n : Node} {scope : Nat} (h : s.tries? = some (n, scope)) :
    s.control = .execute n scope ∧ n.isTry = true := by
  unfold Running.tries? at h
  split at h
  · rename_i control
    split at h
    · rename_i isTry
      obtain ⟨rfl, rfl⟩ := Prod.mk.inj (Option.some.inj h)
      exact ⟨control, isTry⟩
    · contradiction
  · contradiction

/-- The failure of the action ends the block, and the attempt goes through all of its parts. -/
theorem keeps_attempts_lateFailure : ∃ (n : Node) (scope : Nat) (t : Attempt) (s₁ : Running),
    (observed {} lateFailure 1).2.control = .execute n scope ∧
    (observed {} lateFailure 15).2.catching?.isSome = true ∧
    n.children = [t.block, t.handler, t.finalizer] ∧ (observed {} lateFailure 1).2.step = .next s₁ ∧
    ∀ u, s₁.Later u → ∃ k, s₁.Goes t.Turn (.starts .block) k u ∧ t.At {} lateFailure k u := by
  have tries : (observed {} lateFailure 1).2.tries?.isSome = true := by decide +kernel
  obtain ⟨⟨n, scope⟩, tries⟩ := Option.isSome_iff_exists.mp tries
  obtain ⟨executes, isTry⟩ := Running.tries?_eq_some tries
  obtain ⟨t, rest, s₁, children, -, -, next, goes⟩ :=
    (Run.observed {} lateFailure 1).keeps_attempts accepted_lateFailure isTry executes
  refine ⟨n, scope, t, s₁, executes, by decide +kernel, children, next, fun u later => ?_⟩
  obtain ⟨k, goes, at_k, -⟩ := goes u later
  exact ⟨k, goes, at_k⟩

end Script

end ScopeExit
