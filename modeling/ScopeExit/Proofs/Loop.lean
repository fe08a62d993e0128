import ScopeExit.Loop
/-!
What the event loop keeps.

The loop never looks into the code of a task.  It parks code with a promise, and later hands it out with
an outcome.  So whatever is true of all code when it is parked is true of it when it goes on, and
whatever is true of the failures that promises are settled with is true of the failures that tasks are
woken with.  One thing more is kept: code that has not taken its first step waits for nothing, so it is
woken once and not with a failure.
-/
namespace ScopeExit

namespace Loop

variable {κ : Type}

/-! ### Promises -/

theorem promise_modify (l : Loop κ) (p : Nat) (f : Promise κ → Promise κ) (t : Nat) :
    (l.modify p f).promise t = l.promise t ∨
      t = p ∧ (l.modify p f).promise t = f (l.promise t) := by
  simp only [promise, modify, Array.getD_eq_getD_getElem?, Array.getElem?_modify]
  by_cases h : p = t
  · subst h
    cases l.promises[p]? with
    | none => exact .inl (by simp)
    | some q => exact .inr (by simp)
  · exact .inl (by simp [h])

@[simp] theorem size_modify (l : Loop κ) (p : Nat) (f : Promise κ → Promise κ) :
    (l.modify p f).promises.size = l.promises.size := by
  simp [modify]

theorem size_foldl_enqueue (tasks : List Nat) (outcome : Outcome) (l : Loop κ) :
    (tasks.foldl (fun l task => l.enqueue (.wake task outcome)) l).promises.size =
      l.promises.size := by
  induction tasks generalizing l with
  | nil => rfl
  | cons t tasks ih => exact ih _

@[simp] theorem size_settle (l : Loop κ) (p : Nat) (outcome : Outcome) :
    (l.settle p outcome).promises.size = l.promises.size :=
  (size_foldl_enqueue ..).trans (size_modify ..)

theorem le_size_rest (l : Loop κ) (task : Nat) (code : κ) (seconds : Float) :
    l.promises.size ≤ (l.rest task code seconds).promises.size := by
  unfold rest
  split
  · simp [giveWay, enqueue]
  · simp [sleep, park, add]

theorem promise_add (l : Loop κ) (q : Promise κ) (t : Nat) :
    (l.add q).2.promise t = l.promise t ∨
      t = l.promises.size ∧ (l.add q).2.promise t = q := by
  simp only [promise, add, Array.getD_eq_getD_getElem?, Array.getElem?_push]
  by_cases h : t = l.promises.size
  · exact .inr ⟨h, by simp [h]⟩
  · exact .inl (by simp [h])

theorem promise_of_size_le (l : Loop κ) {t : Nat} (h : l.promises.size ≤ t) :
    l.promise t = default := by
  simp [promise, Array.getD_eq_getD_getElem?, Array.getElem?_eq_none h]

/-! ### The invariant -/

section Holds

/-! `first` tells code that has not taken its first step, `good` is what is true of the code of a task,
and `mild` is what is true of the failures. -/

variable (first : κ → Prop) (good : Nat → κ → Prop) (mild : Failure → Prop)

/-- A task that may be told of a failure: it has taken its first step. -/
def Alert (l : Loop κ) (t : Nat) : Prop :=
  t < l.promises.size ∧ ∀ code, (l.promise t).parked? = some code → ¬ first code

/-- What is true of everything that goes through a loop. -/
structure Holds (l : Loop κ) : Prop where
  settled : ∀ p f, l.outcome? p = some (.error f) → mild f
  parked : ∀ t code, (l.promise t).parked? = some code → good t code
  waiters : ∀ p, ∀ t ∈ (l.promise p).waiters, l.Alert first t
  wakes : ∀ t o, .wake t o ∈ l.queue →
    t < l.promises.size ∧ ∀ f, o = .error f → mild f ∧ l.Alert first t

variable {first good mild} {l : Loop κ}

theorem Holds.imp {good' : Nat → κ → Prop} (h : l.Holds first good mild)
    (hg : ∀ t code, (l.promise t).parked? = some code → good t code → good' t code) :
    l.Holds first good' mild :=
  ⟨h.settled, fun t code e => hg t code e (h.parked t code e), h.waiters, h.wakes⟩

/-- Only promises and jobs matter. -/
theorem Holds.congr {l' : Loop κ} (h : l.Holds first good mild) (promises : l'.promises = l.promises)
    (queue : ∀ j ∈ l'.queue, j ∈ l.queue ∨ ∃ p, j = .ring p) : l'.Holds first good mild := by
  have hp : ∀ t, l'.promise t = l.promise t := fun t => by simp [promise, promises]
  have alert : ∀ {t}, l.Alert first t → l'.Alert first t := by
    intro t ht
    exact ⟨promises ▸ ht.1, fun code e => ht.2 code (hp t ▸ e)⟩
  refine ⟨?_, ?_, ?_, ?_⟩
  · intro p f e
    exact h.settled p f (by rw [← e]; simp [outcome?, hp])
  · intro t code e
    exact h.parked t code (hp t ▸ e)
  · intro p t ht
    exact alert (h.waiters p t (hp p ▸ ht))
  · intro t o hmem
    rcases queue _ hmem with hmem | ⟨p, e⟩
    · obtain ⟨hlt, hf⟩ := h.wakes t o hmem
      exact ⟨promises ▸ hlt, fun f e => ⟨(hf f e).1, alert (hf f e).2⟩⟩
    · contradiction

/-- One more job. -/
theorem Holds.enqueue (h : l.Holds first good mild) {j : Job}
    (job : ∀ t o, j = .wake t o →
      t < l.promises.size ∧ ∀ f, o = .error f → mild f ∧ l.Alert first t) :
    (l.enqueue j).Holds first good mild := by
  refine ⟨h.settled, h.parked, h.waiters, ?_⟩
  intro t o hmem
  rw [queue_enqueue, List.mem_append, List.mem_singleton] at hmem
  rcases hmem with hmem | hmem
  · exact h.wakes t o hmem
  · exact job t o hmem.symm

/-- One more promise. -/
theorem Holds.add (h : l.Holds first good mild) {q : Promise κ}
    (outcome : ∀ f, q.outcome? = some (.error f) → mild f)
    (parked : ∀ code, q.parked? = some code → good l.promises.size code) (waiters : q.waiters = []) :
    (l.add q).2.Holds first good mild := by
  have alert : ∀ {t}, l.Alert first t → (l.add q).2.Alert first t := by
    intro t ht
    refine ⟨by simpa [Loop.add] using Nat.lt_succ_of_lt ht.1, fun code e => ?_⟩
    rcases promise_add l q t with hp | ⟨hsize, -⟩
    · exact ht.2 code (hp ▸ e)
    · exact absurd ht.1 (by omega)
  refine ⟨?_, ?_, ?_, ?_⟩
  · intro p f e
    rcases promise_add l q p with hp | ⟨-, hp⟩
    · exact h.settled p f (by rw [← e]; simp [outcome?, hp])
    · exact outcome f (by rw [← e]; simp [outcome?, hp])
  · intro t code e
    rcases promise_add l q t with hp | ⟨rfl, hp⟩
    · exact h.parked t code (hp ▸ e)
    · exact parked code (hp ▸ e)
  · intro p t ht
    rcases promise_add l q p with hp | ⟨-, hp⟩
    · exact alert (h.waiters p t (hp ▸ ht))
    · rw [hp, waiters] at ht
      contradiction
  · intro t o hmem
    obtain ⟨hlt, hf⟩ := h.wakes t o hmem
    exact ⟨by simpa [Loop.add] using Nat.lt_succ_of_lt hlt, fun f e => ⟨(hf f e).1, alert (hf f e).2⟩⟩

/-- A promise changes: it may be settled, code may be parked with it, tasks may begin to wait. -/
theorem Holds.modify (h : l.Holds first good mild) {p : Nat} {f : Promise κ → Promise κ}
    (outcome : ∀ e, (f (l.promise p)).outcome? = some (.error e) → mild e)
    (parked : ∀ code, (f (l.promise p)).parked? = some code → good p code ∧
      ((l.promise p).parked? = some code ∨ ¬ first code))
    (waiters : ∀ t ∈ (f (l.promise p)).waiters, l.Alert first t) :
    (l.modify p f).Holds first good mild := by
  have alert : ∀ {t}, l.Alert first t → (l.modify p f).Alert first t := by
    intro t ht
    refine ⟨by simpa using ht.1, fun code e => ?_⟩
    rcases promise_modify l p f t with hp | ⟨rfl, hp⟩
    · exact ht.2 code (hp ▸ e)
    · rcases (parked code (hp ▸ e)).2 with hold | hnew
      · exact ht.2 code hold
      · exact hnew
  refine ⟨?_, ?_, ?_, ?_⟩
  · intro t e he
    rcases promise_modify l p f t with hp | ⟨rfl, hp⟩
    · exact h.settled t e (by rw [← he]; simp [outcome?, hp])
    · exact outcome e (by rw [← he]; simp [outcome?, hp])
  · intro t code e
    rcases promise_modify l p f t with hp | ⟨rfl, hp⟩
    · exact h.parked t code (hp ▸ e)
    · exact (parked code (hp ▸ e)).1
  · intro q t ht
    rcases promise_modify l p f q with hp | ⟨rfl, hp⟩
    · exact alert (h.waiters q t (hp ▸ ht))
    · exact alert (waiters t (hp ▸ ht))
  · intro t o hmem
    obtain ⟨hlt, hf⟩ := h.wakes t o hmem
    exact ⟨by simpa using hlt, fun e he => ⟨(hf e he).1, alert (hf e he).2⟩⟩

/-! ### What the operations keep -/

/-- A new task may not have taken its first step. -/
theorem Holds.spawn (h : l.Holds first good mild) {code : κ} (hg : good l.promises.size code) :
    (l.spawn code).2.Holds first good mild := by
  have hadd := h.add (q := { parked? := some code }) (by simp)
    (fun _ e => Option.some.inj e ▸ hg) rfl
  refine hadd.enqueue ?_
  intro t o e
  obtain ⟨rfl, rfl⟩ := Job.wake.inj e
  exact ⟨by simp [Loop.add], by simp⟩

/-- Parking code of a running task. -/
theorem Holds.hold (h : l.Holds first good mild) {task : Nat} {code : κ} (hg : good task code)
    (started : ¬ first code) :
    (l.modify task fun p => { p with parked? := some code }).Holds first good mild :=
  h.modify (fun e he => h.settled task e he)
    (fun _ e => Option.some.inj e ▸ ⟨hg, .inr started⟩) (h.waiters task)

theorem alert_hold {task : Nat} {code : κ} (running : task < l.promises.size)
    (started : ¬ first code) :
    (l.modify task fun p => { p with parked? := some code }).Alert first task := by
  refine ⟨by simpa using running, fun c e => ?_⟩
  simp only [Loop.modify, promise, Array.getD_eq_getD_getElem?, Array.getElem?_modify, if_true,
    Array.getElem?_eq_getElem running] at e
  rw [← Option.some.inj e]
  exact started

theorem Holds.giveWay (h : l.Holds first good mild) {task : Nat} {code : κ} {outcome : Outcome}
    (running : task < l.promises.size) (hg : good task code) (started : ¬ first code)
    (hm : ∀ f, outcome = .error f → mild f) :
    (l.giveWay task code outcome).Holds first good mild := by
  refine (h.hold hg started).enqueue ?_
  intro t o e
  obtain ⟨rfl, rfl⟩ := Job.wake.inj e
  exact ⟨by simpa using running, fun f he => ⟨hm f he, alert_hold running started⟩⟩

theorem Holds.park (h : l.Holds first good mild) {task : Nat} {code : κ} (p : Nat)
    (running : task < l.promises.size) (hg : good task code) (started : ¬ first code) :
    (l.park task code p).Holds first good mild := by
  have hhold := h.hold hg started
  refine hhold.modify (fun e he => hhold.settled p e he)
    (fun c e => ⟨hhold.parked p c e, .inl e⟩) ?_
  intro t ht
  rcases List.mem_append.mp ht with ht | ht
  · exact hhold.waiters p t ht
  · rw [List.mem_singleton] at ht
    subst ht
    exact alert_hold running started

theorem Holds.sleep (h : l.Holds first good mild) {task : Nat} {code : κ} (seconds : Float)
    (running : task < l.promises.size) (hg : good task code) (started : ¬ first code) :
    (l.sleep task code seconds).Holds first good mild := by
  have hadd := h.add (q := {}) (by simp) (by simp) rfl
  have htimer : ({ (l.add {}).2 with
      timers := l.timers.insert ⟨(l.add {}).2.deadline seconds, l.timerCount, l.promises.size⟩
      timerCount := l.timerCount + 1 } : Loop κ).Holds first good mild :=
    hadd.congr rfl fun j hj => .inl hj
  exact htimer.park _ (by simpa [Loop.add] using Nat.lt_succ_of_lt running) hg started

theorem Holds.rest (h : l.Holds first good mild) {task : Nat} {code : κ} (seconds : Float)
    (running : task < l.promises.size) (hg : good task code) (started : ¬ first code) :
    (l.rest task code seconds).Holds first good mild := by
  unfold Loop.rest
  split
  · exact h.giveWay running hg started (by simp)
  · exact h.sleep seconds running hg started

/-- Settling a promise tells all tasks that wait for it. -/
theorem Holds.settle (h : l.Holds first good mild) (p : Nat) {outcome : Outcome}
    (hm : ∀ f, outcome = .error f → mild f) : (l.settle p outcome).Holds first good mild := by
  have hmodify : (l.modify p fun q => { q with outcome? := some outcome, waiters := [] }).Holds
      first good mild :=
    h.modify (fun e he => hm e (Option.some.inj he)) (fun c e => ⟨h.parked p c e, .inl e⟩) (by simp)
  have key : ∀ (ts : List Nat) (l : Loop κ), (∀ t ∈ ts, l.Alert first t) →
      l.Holds first good mild →
      (ts.foldl (fun l task => l.enqueue (.wake task outcome)) l).Holds first good mild := by
    intro ts
    induction ts with
    | nil => intro l _ hl; exact hl
    | cons t ts ih =>
      intro l hts hl
      refine ih _ (fun t' ht' => hts t' (List.mem_cons_of_mem _ ht')) (hl.enqueue ?_)
      intro t' o e
      obtain ⟨rfl, rfl⟩ := Job.wake.inj e
      have ht := hts t (by simp)
      exact ⟨ht.1, fun f he => ⟨hm f he, ht⟩⟩
  refine key _ _ ?_ hmodify
  intro t ht
  obtain ⟨hlt, hfirst⟩ := h.waiters p t ht
  refine ⟨by simpa using hlt, fun code e => ?_⟩
  rcases promise_modify l p _ t with hp | ⟨rfl, hp⟩
  · exact hfirst code (hp ▸ e)
  · rw [hp] at e
    exact hfirst code e

theorem Holds.collectDue (h : l.Holds first good mild) (fuel : Nat) :
    (l.collectDue fuel).Holds first good mild := by
  induction fuel generalizing l with
  | zero => exact h
  | succ fuel ih =>
    unfold Loop.collectDue
    split
    · exact h
    · split
      · exact h
      · rename_i t _ _
        refine ih ((h.enqueue (j := .ring t.promise) ?_).congr rfl fun j hj => .inl hj)
        intro t o e
        contradiction

/-- A new turn changes the order of nothing. -/
theorem Holds.startTurn (h : l.Holds first good mild) : l.startTurn.Holds first good mild := by
  have hjump : l.jump.Holds first good mild := by
    unfold Loop.jump
    split
    · split
      · exact h.congr rfl fun j hj => .inl hj
      · exact h
    · exact h
  refine (hjump.collectDue l.jump.timers.entries.size).congr rfl fun j hj => .inl ?_
  have hqueue : l.startTurn.queue =
      (l.jump.collectDue l.jump.timers.entries.size).arrivals.reverse := by
    simp [Loop.startTurn, queue]
  rw [hqueue] at hj
  exact List.mem_append_right _ hj

/-- What the loop hands out, and what it keeps. -/
theorem Holds.next (h : l.Holds first good mild) :
    match l.next with
    | .resume task code outcome l' => l'.Holds first good mild ∧ task < l'.promises.size ∧
        (l'.promise task).parked? = none ∧ good task code ∧
        ∀ f, outcome = .error f → mild f ∧ ¬ first code
    | .internal l' => l'.Holds first good mild
    | .idle l' => l'.Holds first good mild := by
  cases hturn : l.turn with
  | nil =>
    simp only [Loop.next, hturn]
    split
    · rename_i e
      split at e <;> contradiction
    · rename_i e
      split at e
      · contradiction
      · rw [← Event.internal.inj e]
        exact h.startTurn
    · rename_i e
      split at e
      · rw [← Event.idle.inj e]
        exact h.startTurn
      · contradiction
  | cons job turn =>
    have hrest : ({ l with turn := turn } : Loop κ).Holds first good mild := by
      refine h.congr rfl fun j hj => .inl ?_
      simp only [queue, hturn, List.cons_append] at hj ⊢
      exact List.mem_cons_of_mem _ hj
    cases job with
    | ring p =>
      simp only [Loop.next, hturn]
      exact hrest.settle _ (by simp)
    | wake task outcome =>
      obtain ⟨hlt, hfail⟩ := h.wakes task outcome (by simp [queue, hturn])
      cases hcode : (({ l with turn := turn } : Loop κ).promise task).parked? with
      | none =>
        simp only [Loop.next, hturn, hcode]
        exact hrest
      | some code =>
        simp only [Loop.next, hturn, hcode]
        refine ⟨hrest.modify (fun e he => hrest.settled task e he) (by simp)
          (hrest.waiters task), by simpa using hlt, ?_, h.parked task code hcode, ?_⟩
        · simp [Loop.modify, promise, Array.getD_eq_getD_getElem?, Array.getElem_modify, hlt]
        · intro f e
          exact ⟨(hfail f e).1, (hfail f e).2.2 code hcode⟩

theorem promises_startTurn (l : Loop κ) : l.startTurn.promises = l.promises := by
  have hjump : l.jump.promises = l.promises := by
    unfold jump
    split
    · split <;> rfl
    · rfl
  have hcollect : ∀ (fuel : Nat) (l : Loop κ), (l.collectDue fuel).promises = l.promises := by
    intro fuel
    induction fuel with
    | zero => exact fun l => rfl
    | succ fuel ih =>
      intro l
      unfold collectDue
      split
      · rfl
      · split
        · rfl
        · exact ih _
  exact (hcollect _ _).trans hjump

/-- What the loop does by itself makes no promise. -/
theorem size_internal {l l' : Loop κ} (h : l.next = .internal l') :
    l'.promises.size = l.promises.size := by
  cases hturn : l.turn with
  | nil =>
    simp only [next, hturn] at h
    split at h
    · contradiction
    · rw [← Event.internal.inj h, promises_startTurn]
  | cons job turn =>
    cases job with
    | ring p =>
      simp only [next, hturn] at h
      rw [← Event.internal.inj h, size_settle]
    | wake task outcome =>
      simp only [next, hturn] at h
      split at h
      · contradiction
      · rw [← Event.internal.inj h]

/-! ### Other orders -/

/-- The same loop with its jobs and its timers in another order, at any time. -/
structure Reorders (l l' : Loop κ) : Prop where
  promises : l'.promises = l.promises
  queue : l'.queue.Perm l.queue
  timers : l'.timers.entries.Perm l.timers.entries

theorem Holds.reorders {l' : Loop κ} (h : l.Holds first good mild) (r : l.Reorders l') :
    l'.Holds first good mild :=
  h.congr r.promises fun _ hj => .inl (r.queue.subset hj)

end Holds

/-! ### What comes next, and what is parked -/

/-- What the loop can do next. -/
inductive Goes (l : Loop κ) : Event κ → Prop
  | ring {p : Nat} {turn : List Job} (job : l.turn = .ring p :: turn) :
      Goes l (.internal ({ l with turn := turn }.settle p (.ok .null)))
  | wake {task : Nat} {outcome : Outcome} {turn : List Job} {code : κ}
      (job : l.turn = .wake task outcome :: turn) (parked : (l.promise task).parked? = some code) :
      Goes l (.resume task code outcome
        ({ l with turn := turn }.modify task fun p => { p with parked? := none }))
  | stale {task : Nat} {outcome : Outcome} {turn : List Job}
      (job : l.turn = .wake task outcome :: turn) (parked : (l.promise task).parked? = none) :
      Goes l (.internal { l with turn := turn })
  | turn (done : l.turn = []) : Goes l (.internal l.startTurn)
  | idle (done : l.turn = []) (empty : l.startTurn.turn = []) : Goes l (.idle l.startTurn)

theorem goes_next (l : Loop κ) : l.Goes l.next := by
  cases hturn : l.turn with
  | nil =>
    simp only [next, hturn]
    split
    · rename_i empty
      exact .idle hturn (by simpa using empty)
    · exact .turn hturn
  | cons job turn =>
    cases job with
    | ring p =>
      simp only [next, hturn]
      exact .ring hturn
    | wake task outcome =>
      cases hcode : (({ l with turn := turn } : Loop κ).promise task).parked? with
      | none =>
        simp only [next, hturn, hcode]
        exact .stale hturn hcode
      | some code =>
        simp only [next, hturn, hcode]
        exact .wake hturn hcode

/-- What the loop does with its jobs leaves the promises alone. -/
theorem promise_foldl_enqueue (tasks : List Nat) (outcome : Outcome) (l : Loop κ) (t : Nat) :
    (tasks.foldl (fun l task => l.enqueue (.wake task outcome)) l).promise t = l.promise t := by
  induction tasks generalizing l with
  | nil => rfl
  | cons task tasks ih => exact ih _

theorem promise_settle (l : Loop κ) (p : Nat) (outcome : Outcome) (t : Nat) :
    (l.settle p outcome).promise t = l.promise t ∨ t = p ∧
      (l.settle p outcome).promise t = { l.promise t with outcome? := some outcome, waiters := [] } := by
  unfold settle
  simp only [promise_foldl_enqueue]
  exact promise_modify l p _ t

theorem promise_startTurn (l : Loop κ) (t : Nat) : l.startTurn.promise t = l.promise t := by
  rw [promise, promises_startTurn, promise]

/-- What is parked with a promise after the promise has changed. -/
theorem parked_modify {l : Loop κ} {p : Nat} {f : Promise κ → Promise κ} {t : Nat} {code : κ}
    (h : ((l.modify p f).promise t).parked? = some code) :
    (l.promise t).parked? = some code ∨ (f (l.promise t)).parked? = some code := by
  rcases promise_modify l p f t with e | ⟨-, e⟩
  · exact .inl (e ▸ h)
  · exact .inr (e ▸ h)

theorem parked_hold {l : Loop κ} {task : Nat} {code code' : κ} {t : Nat}
    (h : ((l.modify task fun p => { p with parked? := some code }).promise t).parked? = some code') :
    (l.promise t).parked? = some code' ∨ code' = code :=
  (parked_modify h).imp_right fun e => (Option.some.inj e).symm

theorem parked_park {l : Loop κ} {task : Nat} {code code' : κ} {p t : Nat}
    (h : ((l.park task code p).promise t).parked? = some code') :
    (l.promise t).parked? = some code' ∨ code' = code :=
  parked_hold ((parked_modify h).elim id id)

theorem parked_add {l : Loop κ} {q : Promise κ} {t : Nat} {code : κ}
    (h : ((l.add q).2.promise t).parked? = some code) :
    (l.promise t).parked? = some code ∨ q.parked? = some code := by
  rcases promise_add l q t with e | ⟨-, e⟩
  · exact .inl (e ▸ h)
  · exact .inr (e ▸ h)

theorem parked_rest {l : Loop κ} {task : Nat} {code code' : κ} {seconds : Float} {t : Nat}
    (h : ((l.rest task code seconds).promise t).parked? = some code') :
    (l.promise t).parked? = some code' ∨ code' = code := by
  unfold rest at h
  split at h
  · exact parked_hold h
  · rcases parked_park h with h | h
    · exact .inl ((parked_add h).elim id fun e => by cases e)
    · exact .inr h

/-- What is parked when a promise is settled was parked before. -/
theorem parked_settle (l : Loop κ) (p : Nat) (outcome : Outcome) (t : Nat) :
    ((l.settle p outcome).promise t).parked? = (l.promise t).parked? := by
  rcases promise_settle l p outcome t with e | ⟨-, e⟩ <;> rw [e]

/-- The loop never parks code by itself. -/
theorem parked_internal {l l' : Loop κ} (h : l.next = .internal l') (t : Nat) :
    (l'.promise t).parked? = (l.promise t).parked? := by
  have hgoes := l.goes_next
  rw [h] at hgoes
  cases hgoes with
  | ring job => exact parked_settle { l with turn := _ } ..
  | stale job parked => rfl
  | turn done => rw [promise_startTurn]

theorem parked_resume {l l' : Loop κ} {task : Nat} {code : κ} {outcome : Outcome}
    (h : l.next = .resume task code outcome l') :
    (l.promise task).parked? = some code ∧
      ∀ t code', (l'.promise t).parked? = some code' → (l.promise t).parked? = some code' := by
  have hgoes := l.goes_next
  rw [h] at hgoes
  cases hgoes with
  | wake job parked => exact ⟨parked, fun t code' e => (parked_modify e).elim id fun e => by cases e⟩

end Loop

end ScopeExit
