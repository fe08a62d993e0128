import Mathlib.Logic.Function.Basic
import ScopeExit.Proofs.Loop
/-!
Who is woken, and by what.

A task that is parked waits for one thing: for a promise, or just for its turn with an outcome that was
fixed when it gave way.  `Minds` keeps the books, with a cause for every task that may be woken.  No task
has two calls at once, a call tells the task what its cause says, and a task without a cause is left
alone.  Every operation of the loop keeps that up: one that parks a task gives it a cause, one that hands
it out takes the cause away, and no other changes a cause.

Promises are settled once.  A timer may settle its own promise again, but always in the same way.
-/
namespace ScopeExit

/-! ### Timers -/

namespace Timers

variable {entries : Array Timer} {t x : Timer}

theorem mem_setIfInBounds {place : Nat} (h : x ∈ entries.setIfInBounds place t) :
    x = t ∨ x ∈ entries := by
  obtain ⟨i, hi, rfl⟩ := Array.mem_iff_getElem.mp h
  rw [Array.getElem_setIfInBounds (by simpa using hi)]
  split
  · exact .inl rfl
  · exact .inr (Array.getElem_mem _)

theorem getD_mem {place : Nat} (h : place < entries.size) : entries.getD place default ∈ entries := by
  rw [Array.getD_eq_getD_getElem?, Array.getElem?_eq_getElem h]
  exact Array.getElem_mem h

/-- Timers that move toward the root are those that were there, and the one that is put in. -/
theorem mem_moveUp {fuel place : Nat} (inside : place < entries.size)
    (h : x ∈ moveUp entries t fuel place) : x = t ∨ x ∈ entries := by
  induction fuel generalizing entries place with
  | zero => exact mem_setIfInBounds h
  | succ fuel ih =>
    unfold moveUp at h
    split at h
    · exact mem_setIfInBounds h
    · have above : (place - 1) / 2 < entries.size := by omega
      simp only at h
      by_cases earlier : t.before (entries.getD ((place - 1) / 2) default) = true
      · rw [if_pos earlier] at h
        rcases ih (by simpa using above) h with h | h
        · exact .inl h
        · rcases mem_setIfInBounds h with rfl | h
          · exact .inr (getD_mem above)
          · exact .inr h
      · rw [if_neg earlier] at h
        exact mem_setIfInBounds h

theorem mem_insert {ts : Timers} (h : x ∈ (ts.insert t).entries) : x = t ∨ x ∈ ts.entries := by
  rcases mem_moveUp (by simp) h with h | h
  · exact .inl h
  · exact (Array.mem_push.mp h).symm

/-- The place that becomes free lies inside, and the timers are those that were there. -/
theorem openLeaf_inside {fuel place : Nat} (inside : place < entries.size) :
    (openLeaf entries fuel place).1.size = entries.size ∧
      (openLeaf entries fuel place).2 < entries.size ∧
      ∀ x ∈ (openLeaf entries fuel place).1, x ∈ entries := by
  induction fuel generalizing entries place with
  | zero => exact ⟨rfl, inside, fun _ => id⟩
  | succ fuel ih =>
    unfold openLeaf
    simp only
    split
    · rename_i left
      generalize hright : (decide (2 * place + 1 + 1 < entries.size) && _) = right
      generalize hchild : (if right = true then 2 * place + 1 + 1 else 2 * place + 1) = child
      have bound : child < entries.size := by
        rw [← hchild]
        split
        · rename_i h
          rw [h, Bool.and_eq_true, decide_eq_true_eq] at hright
          exact hright.1
        · exact left
      obtain ⟨hsize, hleaf, hmem⟩ := @ih (entries.setIfInBounds place (entries.getD child default)) child
        (by simpa using bound)
      refine ⟨by simpa using hsize, by simpa using hleaf, fun x hx => ?_⟩
      rcases mem_setIfInBounds (hmem x hx) with rfl | h
      · exact getD_mem bound
      · exact h
    · exact ⟨rfl, inside, fun _ => id⟩

theorem mem_dropFirst {ts : Timers} (h : x ∈ ts.dropFirst.entries) : x ∈ ts.entries := by
  unfold dropFirst at h
  split at h
  · exact h
  · rename_i last hlast
    have rest : ∀ x ∈ ts.entries.pop, x ∈ ts.entries := by
      intro x hx
      rw [← Array.mem_toList_iff, Array.toList_pop] at hx
      exact Array.mem_toList_iff.mp (List.dropLast_subset _ hx)
    simp only at h
    split at h
    · exact rest x h
    · rename_i full
      have inside : 0 < ts.entries.pop.size := by
        rw [Array.isEmpty_iff_size_eq_zero] at full
        omega
      obtain ⟨hsize, hleaf, hmem⟩ := @openLeaf_inside _ ts.entries.pop.size _ inside
      rcases mem_moveUp (by rwa [hsize]) h with rfl | h
      · exact Array.mem_of_back? hlast
      · exact rest x (hmem x h)

theorem mem_first {ts : Timers} (h : ts.first? = some t) : t ∈ ts.entries := Array.mem_of_getElem? h

end Timers

/-! ### Queues -/

/-- The task that a job wakes. -/
def Job.task? : Job → Option Nat
  | .wake t _ => some t
  | .ring _ => none

namespace Loop

variable {κ : Type} {l l' l'' : Loop κ}

/-- The tasks that the queue wakes, one after the other. -/
def woken (l : Loop κ) : List Nat := l.queue.filterMap Job.task?

/-- A timer settles the promise, or is going to. -/
def Rings (l : Loop κ) (p : Nat) : Prop :=
  .ring p ∈ l.queue ∨ ∃ t ∈ l.timers.entries, t.promise = p

theorem mem_woken {t : Nat} : t ∈ l.woken ↔ ∃ o, .wake t o ∈ l.queue := by
  simp only [woken, List.mem_filterMap]
  constructor
  · rintro ⟨j, hj, e⟩
    cases j with
    | wake u o =>
      obtain rfl := Option.some.inj e
      exact ⟨o, hj⟩
    | ring p => contradiction
  · rintro ⟨o, h⟩
    exact ⟨_, h, rfl⟩

theorem woken_wake (t : Nat) (o : Outcome) : (l.enqueue (.wake t o)).woken = l.woken ++ [t] := by
  simp [woken, queue_enqueue, Job.task?]

theorem woken_ring (p : Nat) : (l.enqueue (.ring p)).woken = l.woken := by
  rw [woken, queue_enqueue, List.filterMap_append]
  exact List.append_nil _

/-- The same promises and calls, in another order or at another time. -/
structure Requeues (l l' : Loop κ) : Prop where
  promises : l'.promises = l.promises
  woken : l'.woken.Perm l.woken
  wakes : ∀ t o, .wake t o ∈ l'.queue → .wake t o ∈ l.queue
  rings : ∀ p, l'.Rings p → l.Rings p

theorem Requeues.refl (l : Loop κ) : l.Requeues l := ⟨rfl, .refl _, fun _ _ => id, fun _ => id⟩

theorem Requeues.trans (h : l.Requeues l') (h' : l'.Requeues l'') : l.Requeues l'' where
  promises := h'.promises.trans h.promises
  woken := h'.woken.trans h.woken
  wakes t o ht := h.wakes t o (h'.wakes t o ht)
  rings p hp := h.rings p (h'.rings p hp)

theorem Requeues.promise (h : l.Requeues l') (t : Nat) : l'.promise t = l.promise t := by
  rw [Loop.promise, h.promises, Loop.promise]

theorem Reorders.requeues (h : l.Reorders l') : l.Requeues l' where
  promises := h.promises
  woken := h.queue.filterMap _
  wakes _ _ ht := h.queue.subset ht
  rings _ hp := hp.imp (h.queue.mem_iff.mp) fun ⟨t, ht, e⟩ => ⟨t, h.timers.mem_iff.mp ht, e⟩

/-- Timers that are due join the queue. -/
theorem requeues_collectDue (fuel : Nat) (l : Loop κ) : l.Requeues (l.collectDue fuel) := by
  induction fuel generalizing l with
  | zero => exact .refl l
  | succ fuel ih =>
    unfold collectDue
    split
    · exact .refl l
    · rename_i t first
      split
      · exact .refl l
      · suffices l.Requeues { l.enqueue (.ring t.promise) with timers := l.timers.dropFirst } from
          this.trans (ih _)
        refine ⟨rfl, ?_, ?_, ?_⟩
        · exact .of_eq (woken_ring (l := l) t.promise)
        · intro u o h
          simpa [queue, enqueue] using h
        · rintro p (h | ⟨x, hx, e⟩)
          · rcases List.mem_append.mp ((queue_enqueue l (.ring t.promise)) ▸ h) with h | h
            · exact .inl h
            · obtain rfl := Job.ring.inj (List.mem_singleton.mp h)
              exact .inr ⟨t, Timers.mem_first first, rfl⟩
          · exact .inr ⟨x, Timers.mem_dropFirst hx, e⟩

/-- A new turn begins when the last one is over. -/
theorem requeues_startTurn (done : l.turn = []) : l.Requeues l.startTurn := by
  have jump : l.Requeues l.jump ∧ l.jump.turn = [] := by
    unfold Loop.jump
    split
    · split
      · exact ⟨⟨rfl, .refl _, fun _ _ => id, fun _ => id⟩, done⟩
      · exact ⟨.refl l, done⟩
    · exact ⟨.refl l, done⟩
  have collect : ∀ (fuel : Nat) (l : Loop κ), (l.collectDue fuel).turn = l.turn := by
    intro fuel
    induction fuel with
    | zero => exact fun _ => rfl
    | succ fuel ih =>
      intro l
      unfold collectDue
      split
      · rfl
      · split
        · rfl
        · exact ih _
  have due := requeues_collectDue l.jump.timers.entries.size l.jump
  refine (jump.1.trans due).trans ?_
  have empty := (collect l.jump.timers.entries.size l.jump).trans jump.2
  have same : l.startTurn.queue = (l.jump.collectDue l.jump.timers.entries.size).queue := by
    simp [startTurn, queue, empty]
  exact ⟨rfl, by rw [woken, woken, same], fun t o h => same ▸ h, fun p h => h.imp_left fun h => same ▸ h⟩

/-! ### Promises after a change -/

section Promises

variable (l) {p t : Nat} {f : Promise κ → Promise κ}

theorem promise_modify_of_ne (h : t ≠ p) : (l.modify p f).promise t = l.promise t :=
  (promise_modify l p f t).resolve_right fun e => h e.1

theorem promise_modify_self (inside : p < l.promises.size) :
    (l.modify p f).promise p = f (l.promise p) := by
  simp [promise, modify, Array.getD_eq_getD_getElem?, Array.getElem?_modify,
    Array.getElem?_eq_getElem inside]

/-- A change that leaves a part of a promise leaves that part of all promises. -/
theorem keeps_modify {α : Type} (part : Promise κ → α) (keeps : ∀ q, part (f q) = part q) (t : Nat) :
    part ((l.modify p f).promise t) = part (l.promise t) := by
  rcases promise_modify l p f t with e | ⟨rfl, e⟩
  · rw [e]
  · rw [e, keeps]

theorem promise_push (q : Promise κ) (t : Nat) :
    (l.add q).2.promise t = if t = l.promises.size then q else l.promise t := by
  rcases promise_add l q t with e | ⟨rfl, e⟩
  · split
    · rename_i h
      subst h
      simp [promise, add]
    · exact e
  · rw [if_pos rfl, e]

end Promises

/-! ### Causes -/

theorem sublist_of_eq {ts us : List Nat} (h : ts = us) : ts.Sublist us := h ▸ .refl ts

theorem nodup_snoc {ts : List Nat} {t : Nat} (h : ts.Nodup) (new : t ∉ ts) : (ts ++ [t]).Nodup := by
  rw [List.nodup_append]
  refine ⟨h, by simp, fun u hu v hv => ?_⟩
  rw [List.mem_singleton.mp hv]
  rintro rfl
  exact new hu

/-- What a parked task waits for. -/
inductive Cause where
  /-- A promise is settled. -/
  | promise (p : Nat)
  /-- Its turn comes, with an outcome that is known. -/
  | turn (outcome : Outcome)

/-- What a task is told when it is woken for a cause. -/
def Tells (l : Loop κ) : Cause → Outcome → Prop
  | .promise p, o => l.outcome? p = some o
  | .turn o', o => o = o'

/-- Every call has a cause, no task is called twice, and only parked tasks are called. -/
structure Minds (l : Loop κ) (cause : Nat → Option Cause) : Prop where
  once : l.woken.Nodup
  told : ∀ t o, .wake t o ∈ l.queue → ∃ c, cause t = some c ∧ l.Tells c o
  line : ∀ p, (l.promise p).waiters.Nodup
  waits : ∀ p, ∀ t ∈ (l.promise p).waiters, cause t = some (.promise p) ∧ t ∉ l.woken
  parked : ∀ t, (cause t).isSome → (l.promise t).parked?.isSome

/-- Nothing is going to wake the task. -/
def Uncalled (l : Loop κ) (t : Nat) : Prop := t ∉ l.woken ∧ ∀ p, t ∉ (l.promise p).waiters

/-- A settled promise stays as it is. -/
def Keeps (l l' : Loop κ) : Prop := ∀ p o, l.outcome? p = some o → l'.outcome? p = some o

theorem Keeps.tells (h : l.Keeps l') {c : Cause} {o : Outcome} (tells : l.Tells c o) : l'.Tells c o := by
  cases c with
  | promise p => exact h p o tells
  | turn o' => exact tells

/-- A task that is called, if it is, for one cause. -/
def Heeds (l : Loop κ) (t : Nat) (c : Cause) : Prop := ∃ cause, l.Minds cause ∧ cause t = some c

section Minds

variable {cause : Nat → Option Cause} {t p : Nat} {c : Cause} {o : Outcome} {code : κ}

theorem Minds.uncalled (h : l.Minds cause) (free : cause t = none) : l.Uncalled t := by
  constructor
  · intro ht
    obtain ⟨o, ho⟩ := mem_woken.mp ht
    obtain ⟨c, e, -⟩ := h.told t o ho
    rw [free] at e
    contradiction
  · intro p ht
    rw [(h.waits p t ht).1] at free
    contradiction

/-- What is not parked has no cause. -/
theorem Minds.free (h : l.Minds cause) (running : (l.promise t).parked? = none) : cause t = none := by
  by_contra hc
  have hsome := h.parked t (Option.isSome_iff_ne_none.mpr hc)
  rw [running] at hsome
  contradiction

/-- What matters: the calls, who waits for what, how promises were settled, and who is parked. -/
theorem Minds.congr (h : l.Minds cause) (once : l'.woken.Nodup)
    (wakes : ∀ t o, .wake t o ∈ l'.queue → .wake t o ∈ l.queue)
    (waiters : ∀ p, (l'.promise p).waiters.Sublist (l.promise p).waiters) (keeps : l.Keeps l')
    (parked : ∀ t, (cause t).isSome → (l'.promise t).parked?.isSome) : l'.Minds cause where
  once := once
  told t o ht := by
    obtain ⟨c, e, tells⟩ := h.told t o (wakes t o ht)
    exact ⟨c, e, keeps.tells tells⟩
  line p := (h.line p).sublist (waiters p)
  waits p t ht := by
    obtain ⟨e, hno⟩ := h.waits p t ((waiters p).subset ht)
    refine ⟨e, fun hw => hno ?_⟩
    obtain ⟨o, ho⟩ := mem_woken.mp hw
    exact mem_woken.mpr ⟨o, wakes t o ho⟩
  parked := parked

theorem Minds.requeues (h : l.Minds cause) (r : l.Requeues l') : l'.Minds cause := by
  refine h.congr (r.woken.nodup_iff.mpr h.once) r.wakes (fun p => sublist_of_eq (by rw [r.promise])) ?_ fun t ht => ?_
  · intro p o e
    rwa [outcome?, r.promise, ← outcome?]
  · rw [r.promise]
    exact h.parked t ht

/-- The cause of a task that nothing calls may change. -/
theorem Minds.assign (h : l.Minds cause) (free : l.Uncalled t) (c? : Option Cause)
    (parked : c?.isSome → (l.promise t).parked?.isSome) : l.Minds (Function.update cause t c?) where
  once := h.once
  told u o hu := by
    have other : u ≠ t := by
      rintro rfl
      exact free.1 (mem_woken.mpr ⟨o, hu⟩)
    rw [Function.update_of_ne other]
    exact h.told u o hu
  line := h.line
  waits p u hu := by
    have other : u ≠ t := by
      rintro rfl
      exact free.2 p hu
    rw [Function.update_of_ne other]
    exact h.waits p u hu
  parked u hu := by
    by_cases other : u = t
    · subst other
      rw [Function.update_self] at hu
      exact parked hu
    · rw [Function.update_of_ne other] at hu
      exact h.parked u hu

/-- A task is called for its cause. -/
theorem Minds.call (h : l.Minds cause) (free : l.Uncalled t) (hc : cause t = some c)
    (tells : l.Tells c o) : (l.enqueue (.wake t o)).Minds cause where
  once := by
    rw [woken_wake]
    exact nodup_snoc h.once free.1
  told u o' hu := by
    rw [queue_enqueue, List.mem_append, List.mem_singleton] at hu
    rcases hu with hu | hu
    · exact h.told u o' hu
    · obtain ⟨rfl, rfl⟩ := Job.wake.inj hu
      exact ⟨c, hc, tells⟩
  line := h.line
  waits p u hu := by
    obtain ⟨e, hno⟩ := h.waits p u hu
    refine ⟨e, fun hw => ?_⟩
    rw [woken_wake, List.mem_append, List.mem_singleton] at hw
    rcases hw with hw | rfl
    · exact hno hw
    · exact free.2 p hu
  parked := h.parked

/-- A task gets in line for the promise that it waits for. -/
theorem Minds.getInLine (h : l.Minds cause) (free : l.Uncalled t) (hc : cause t = some (.promise p)) :
    (l.modify p fun q => { q with waiters := q.waiters ++ [t] }).Minds cause := by
  obtain ⟨f, hf⟩ : ∃ f : Promise κ → Promise κ, f = fun q => { q with waiters := q.waiters ++ [t] } := ⟨_, rfl⟩
  have waiters : ∀ q, ((l.modify p f).promise q).waiters = (l.promise q).waiters ∨
      q = p ∧ ((l.modify p f).promise q).waiters = (l.promise q).waiters ++ [t] := by
    intro q
    rcases promise_modify l p f q with e | ⟨e, e'⟩
    · exact .inl (congrArg _ e)
    · exact .inr ⟨e, by rw [e', hf]⟩
  have keeps : l.Keeps (l.modify p f) := fun q o e =>
    (keeps_modify l Promise.outcome? (fun _ => by rw [hf]) q).trans e
  rw [← hf]
  refine ⟨h.once, ?_, ?_, ?_, ?_⟩
  · intro u o hu
    obtain ⟨c, e, tells⟩ := h.told u o hu
    exact ⟨c, e, keeps.tells tells⟩
  · intro q
    rcases waiters q with e | ⟨rfl, e⟩
    · exact e ▸ h.line q
    · exact e ▸ nodup_snoc (h.line q) (free.2 q)
  · intro q u hu
    rcases waiters q with e | ⟨rfl, e⟩
    · exact h.waits q u (e ▸ hu)
    · rw [e, List.mem_append, List.mem_singleton] at hu
      rcases hu with hu | rfl
      · exact h.waits q u hu
      · exact ⟨hc, free.1⟩
  · intro u hu
    rw [keeps_modify l Promise.parked? (fun _ => by rw [hf])]
    exact h.parked u hu

end Minds

/-! ### New promises -/

/-- There is one more promise. -/
structure Adds (l : Loop κ) (q : Promise κ) (l' : Loop κ) : Prop where
  size : l'.promises.size = l.promises.size + 1
  promise : ∀ t, l'.promise t = if t = l.promises.size then q else l.promise t
  rings : ∀ p, l'.Rings p → l.Rings p
  minds : ∀ cause, l.Minds cause → ∃ c?, l'.Minds (Function.update cause l.promises.size c?)

/-- Where a promise is missing nothing is parked. -/
theorem parked_of_size_le {t : Nat} (h : l.promises.size ≤ t) : (l.promise t).parked? = none := by
  rw [promise_of_size_le l h]
  rfl

section Adds

variable {cause : Nat → Option Cause} {q : Promise κ} {code : κ}

theorem outcome_add (p : Nat) :
    (l.add q).2.outcome? p = if p = l.promises.size then q.outcome? else l.outcome? p := by
  rw [outcome?, promise_push]
  split <;> rfl

theorem Adds.keeps (h : l.Adds q l') : l.Keeps l' := by
  intro p o e
  rw [outcome?, h.promise, if_neg]
  · exact e
  · rintro rfl
    rw [outcome?, promise_of_size_le l (Nat.le_refl _)] at e
    contradiction

theorem Minds.add (h : l.Minds cause) (waiters : q.waiters = []) : (l.add q).2.Minds cause := by
  have old : ∀ t, (l.promise t).parked?.isSome → t ≠ l.promises.size := by
    rintro t ht rfl
    rw [parked_of_size_le (Nat.le_refl _)] at ht
    contradiction
  refine h.congr h.once (fun _ _ => id) (fun p => ?_) (fun p o e => ?_) fun t ht => ?_
  · rw [promise_push]
    split
    · exact waiters ▸ List.nil_sublist _
    · exact .refl _
  · rw [outcome_add, if_neg]
    · exact e
    · rintro rfl
      rw [outcome?, promise_of_size_le l (Nat.le_refl _)] at e
      contradiction
  · have hparked := h.parked t ht
    rwa [promise_push, if_neg (old t hparked)]

theorem adds_add (waiters : q.waiters = []) : l.Adds q (l.add q).2 where
  size := Array.size_push _
  promise := promise_push l q
  rings _ := id
  minds cause h := by
    have free := h.free (parked_of_size_le (Nat.le_refl _))
    refine ⟨none, ?_⟩
    rw [← free, Function.update_eq_self]
    exact h.add waiters

/-- A new task is called once, to take its first step. -/
theorem Minds.spawn (h : l.Minds cause) (code : κ) :
    (l.spawn code).2.Minds (Function.update cause l.promises.size (some (.turn (.ok .null)))) := by
  have hadd := h.add (q := { parked? := some code }) rfl
  have free := hadd.uncalled (h.free (parked_of_size_le (Nat.le_refl _)))
  refine (hadd.assign free (some (.turn (.ok .null))) fun _ => ?_).call free (Function.update_self ..) rfl
  rw [promise_push, if_pos rfl]
  rfl

theorem adds_spawn (code : κ) : l.Adds { parked? := some code } (l.spawn code).2 where
  size := Array.size_push _
  promise := promise_push l _
  rings p h := by
    refine h.imp_left fun h => ?_
    rcases List.mem_append.mp (queue_enqueue (l.add { parked? := some code }).2 _ ▸ h) with h | h
    · exact h
    · cases List.mem_singleton.mp h
  minds _ h := ⟨_, h.spawn code⟩

end Adds

/-! ### Parking -/

/-- A task is parked, for whatever cause. -/
structure Parks (l : Loop κ) (t : Nat) (code : κ) (l' : Loop κ) : Prop where
  size : l.promises.size ≤ l'.promises.size
  parked : ∀ u, (l'.promise u).parked? = if u = t then some code else (l.promise u).parked?
  outcome : ∀ p, l'.outcome? p = l.outcome? p
  rings : ∀ p, l'.Rings p → l.Rings p ∨ l.promises.size ≤ p ∧ p < l'.promises.size
  minds : ∀ cause, l.Minds cause → cause t = none →
    ∃ c, l'.Minds (Function.update cause t (some c))

section Parks

variable {cause : Nat → Option Cause} {t : Nat} {code : κ}

/-- Code is put down with the promise of its task. -/
def hold (l : Loop κ) (t : Nat) (code : κ) : Loop κ := l.modify t fun q => { q with parked? := some code }

theorem parked_hold_eq (inside : t < l.promises.size) (u : Nat) :
    ((l.hold t code).promise u).parked? = if u = t then some code else (l.promise u).parked? := by
  split
  · rename_i h
    rw [h, hold, promise_modify_self l inside]
  · rename_i h
    rw [hold, promise_modify_of_ne l h]

theorem outcome_hold (p : Nat) : (l.hold t code).outcome? p = l.outcome? p :=
  keeps_modify l Promise.outcome? (fun _ => by rfl) p

theorem Minds.hold (h : l.Minds cause) (free : cause t = none) (inside : t < l.promises.size) (code : κ)
    (c : Cause) :
    (l.hold t code).Uncalled t ∧ (l.hold t code).Minds (Function.update cause t (some c)) := by
  have held : (l.hold t code).Minds cause := by
    refine h.congr h.once (fun _ _ => id) (fun p => sublist_of_eq (keeps_modify l Promise.waiters (fun _ => by rfl) p))
      (fun p o e => (outcome_hold p).trans e) fun u hu => ?_
    rw [parked_hold_eq inside]
    split
    · rfl
    · exact h.parked u hu
  have uncalled := held.uncalled free
  refine ⟨uncalled, held.assign uncalled (some c) fun _ => ?_⟩
  rw [parked_hold_eq inside, if_pos rfl]
  rfl

theorem Minds.giveWay (h : l.Minds cause) (free : cause t = none) (inside : t < l.promises.size)
    (o : Outcome) : (l.giveWay t code o).Minds (Function.update cause t (some (.turn o))) := by
  obtain ⟨uncalled, held⟩ := h.hold free inside code (.turn o)
  exact held.call uncalled (Function.update_self ..) rfl

theorem Minds.park (h : l.Minds cause) (free : cause t = none) (inside : t < l.promises.size) (p : Nat) :
    (l.park t code p).Minds (Function.update cause t (some (.promise p))) := by
  obtain ⟨uncalled, held⟩ := h.hold free inside code (.promise p)
  exact held.getInLine uncalled (Function.update_self ..)

theorem parks_giveWay (inside : t < l.promises.size) (o : Outcome) :
    l.Parks t code (l.giveWay t code o) where
  size := Nat.le_of_eq (size_modify ..).symm
  parked := parked_hold_eq inside
  outcome := outcome_hold
  rings p h := by
    refine .inl (h.imp_left fun h => ?_)
    rcases List.mem_append.mp (queue_enqueue (l.hold t code) (.wake t o) ▸ h) with h | h
    · exact h
    · cases List.mem_singleton.mp h
  minds _ h free := ⟨_, h.giveWay free inside o⟩

theorem parks_park (inside : t < l.promises.size) (p : Nat) : l.Parks t code (l.park t code p) where
  size := Nat.le_of_eq ((size_modify ..).trans (size_modify ..)).symm
  parked u := (keeps_modify (l.hold t code) Promise.parked? (fun _ => by rfl) u).trans (parked_hold_eq inside u)
  outcome q := (keeps_modify (l.hold t code) Promise.outcome? (fun _ => by rfl) q).trans (outcome_hold q)
  rings _ := .inl
  minds _ h free := ⟨_, h.park free inside p⟩

/-- A task that sleeps waits for the promise of a new timer. -/
theorem parks_sleep (inside : t < l.promises.size) (seconds : Float) :
    l.Parks t code (l.sleep t code seconds) := by
  obtain ⟨m, hm⟩ : ∃ m : Loop κ, m = { (l.add {}).2 with
      timers := l.timers.insert ⟨(l.add {}).2.deadline seconds, l.timerCount, l.promises.size⟩
      timerCount := l.timerCount + 1 } := ⟨_, rfl⟩
  have same : ∀ u, m.promise u = if u = l.promises.size then {} else l.promise u := by
    rw [hm]
    exact promise_push l {}
  have size : m.promises.size = l.promises.size + 1 := by
    rw [hm]
    exact Array.size_push _
  have parks : m.Parks t code _ := parks_park (by omega : t < m.promises.size) l.promises.size
  have hsleep : l.sleep t code seconds = m.park t code l.promises.size := by rw [hm]; rfl
  rw [hsleep]
  refine ⟨by have := parks.size; omega, fun u => ?_, fun p => ?_, fun p h => ?_, fun cause h free => ?_⟩
  · rw [parks.parked, same]
    split
    · rfl
    · split
      · rename_i e
        rw [e, parked_of_size_le (Nat.le_refl _)]
      · rfl
  · rw [parks.outcome, outcome?, same]
    split
    · rename_i e
      rw [e, outcome?, promise_of_size_le l (Nat.le_refl _)]
      rfl
    · rfl
  · rcases parks.rings p h with h | h
    · rw [hm] at h
      rcases h with h | ⟨x, hx, e⟩
      · exact .inl (.inl h)
      · rcases Timers.mem_insert hx with rfl | hx
        · have := parks.size
          have e : l.promises.size = p := e
          exact .inr ⟨by omega, by omega⟩
        · exact .inl (.inr ⟨x, hx, e⟩)
    · exact .inr ⟨by omega, h.2⟩
  · have hadd := h.add (q := {}) rfl
    have hm' : m.Minds cause := by
      rw [hm]
      exact hadd.congr hadd.once (fun _ _ => id) (fun _ => .refl _) (fun _ _ => id) hadd.parked
    exact parks.minds cause hm' free

theorem parks_rest (inside : t < l.promises.size) (seconds : Float) :
    l.Parks t code (l.rest t code seconds) := by
  unfold rest
  split
  · exact parks_giveWay inside _
  · exact parks_sleep inside seconds

end Parks

/-! ### Settling -/

section Settling

variable {cause : Nat → Option Cause} {p t : Nat} {o : Outcome}

theorem outcome_settle (inside : p < l.promises.size) (q : Nat) :
    (l.settle p o).outcome? q = if q = p then some o else l.outcome? q := by
  rw [outcome?, settle, promise_foldl_enqueue]
  split
  · rename_i h
    rw [h, promise_modify_self l inside]
  · rename_i h
    rw [promise_modify_of_ne l h, outcome?]

theorem keeps_settle (once : ∀ o', l.outcome? p = some o' → o' = o) : l.Keeps (l.settle p o) := by
  intro q o' e
  rcases promise_settle l p o q with h | ⟨rfl, h⟩
  · rwa [outcome?, h]
  · rw [outcome?, h, once o' e]

theorem rings_settle {q : Nat} (h : (l.settle p o).Rings q) : l.Rings q := by
  unfold settle at h
  have key : ∀ (ts : List Nat) (l : Loop κ),
      (ts.foldl (fun l t => l.enqueue (.wake t o)) l).Rings q → l.Rings q := by
    intro ts
    induction ts with
    | nil => exact fun _ => id
    | cons t ts ih =>
      intro l h
      refine (ih _ h).imp_left fun h => ?_
      rcases List.mem_append.mp (queue_enqueue l (.wake t o) ▸ h) with h | h
      · exact h
      · cases List.mem_singleton.mp h
  exact key _ (l.modify p fun q => { q with outcome? := some o, waiters := [] }) h

/-- All tasks in a line are called for the promise that they wait for. -/
theorem Minds.callAll (tasks : List Nat) (h : l.Minds cause) (nodup : tasks.Nodup)
    (free : ∀ t ∈ tasks, l.Uncalled t ∧ cause t = some (.promise p)) (settled : l.outcome? p = some o) :
    (tasks.foldl (fun l t => l.enqueue (.wake t o)) l).Minds cause := by
  induction tasks generalizing l with
  | nil => exact h
  | cons t tasks ih =>
    obtain ⟨uncalled, hc⟩ := free t (by simp)
    obtain ⟨new, nodup⟩ := List.nodup_cons.mp nodup
    refine ih (h.call uncalled hc settled) nodup (fun u hu => ?_) settled
    obtain ⟨⟨woken, waiters⟩, hc⟩ := free u (List.mem_cons_of_mem _ hu)
    refine ⟨⟨?_, waiters⟩, hc⟩
    rw [woken_wake, List.mem_append, List.mem_singleton]
    rintro (h | rfl)
    · exact woken h
    · exact new hu

/-- Who waits for a promise is called for it when it is settled. -/
theorem Minds.settle (h : l.Minds cause) (once : ∀ o', l.outcome? p = some o' → o' = o) :
    (l.settle p o).Minds cause := by
  obtain ⟨f, hf⟩ : ∃ f : Promise κ → Promise κ, f = fun q => { q with outcome? := some o, waiters := [] } :=
    ⟨_, rfl⟩
  have waiters : ∀ q, ((l.modify p f).promise q).waiters = (l.promise q).waiters ∨
      ((l.modify p f).promise q).waiters = [] := by
    intro q
    rcases promise_modify l p f q with e | ⟨-, e⟩
    · exact .inl (congrArg _ e)
    · exact .inr (by rw [e, hf])
  have keeps : l.Keeps (l.modify p f) := by
    intro q o' e
    rcases promise_modify l p f q with h | ⟨rfl, h⟩
    · rwa [outcome?, h]
    · rw [outcome?, h, hf, once o' e]
  have settled : (l.modify p f).Minds cause := by
    refine h.congr h.once (fun _ _ => id) (fun q => ?_) keeps fun t ht => ?_
    · rcases waiters q with e | e
      · exact sublist_of_eq e
      · exact e ▸ List.nil_sublist _
    · rw [keeps_modify l Promise.parked? (fun _ => by rw [hf])]
      exact h.parked t ht
  by_cases inside : p < l.promises.size
  · have hself := promise_modify_self l (f := f) inside
    have hsettle : l.settle p o =
        ((l.promise p).waiters.foldl (fun l t => l.enqueue (.wake t o)) (l.modify p f)) := by
      rw [hf]
      rfl
    rw [hsettle]
    refine settled.callAll _ (h.line p) (fun t ht => ?_) (by rw [outcome?, hself, hf])
    obtain ⟨hc, woken⟩ := h.waits p t ht
    refine ⟨⟨woken, fun q hq => ?_⟩, hc⟩
    -- the task waits for this promise only, and nobody waits for it any more
    rcases waiters q with e | e
    · obtain ⟨hc', -⟩ := h.waits q t (e ▸ hq)
      obtain rfl := Cause.promise.inj (Option.some.inj (hc'.symm.trans hc))
      rw [hself, hf] at hq
      contradiction
    · rw [e] at hq
      contradiction
  · have none : (l.promise p).waiters = [] := by
      rw [promise_of_size_le l (Nat.le_of_not_lt inside)]
      rfl
    rw [Loop.settle, none, ← hf]
    exact settled

end Settling

/-! ### Jobs -/

section Jobs

variable {cause : Nat → Option Cause} {t p : Nat} {o : Outcome} {turn : List Job}

theorem rings_drop {j : Job} (job : l.turn = j :: turn) (h : ({ l with turn := turn } : Loop κ).Rings p) :
    l.Rings p := by
  refine h.imp_left fun h => ?_
  simp only [queue, job, List.cons_append]
  exact List.mem_cons_of_mem _ h

/-- One job less. -/
theorem Minds.drop {j : Job} (h : l.Minds cause) (job : l.turn = j :: turn) :
    ({ l with turn := turn } : Loop κ).Minds cause := by
  have rest : ({ l with turn := turn } : Loop κ).queue.Sublist l.queue := by
    simp only [queue, job, List.cons_append]
    exact List.sublist_cons_self ..
  exact h.congr (h.once.sublist (rest.filterMap _)) (fun _ _ hu => rest.subset hu) (fun _ => .refl _)
    (fun _ _ => id) h.parked

/-- A task that is handed out is told what its cause says, and has no cause any more. -/
theorem Minds.take (h : l.Minds cause) (job : l.turn = .wake t o :: turn) :
    (∃ c, cause t = some c ∧ l.Tells c o) ∧
      (({ l with turn := turn } : Loop κ).modify t fun q => { q with parked? := none }).Minds
        (Function.update cause t none) := by
  have hqueue : l.queue = .wake t o :: ({ l with turn := turn } : Loop κ).queue := by
    simp [queue, job]
  refine ⟨h.told t o (by simp [hqueue]), ?_⟩
  have once := h.once
  rw [woken, hqueue] at once
  have woken : t ∉ ({ l with turn := turn } : Loop κ).woken := (List.nodup_cons.mp once).1
  have hdrop := h.drop job
  have free : ({ l with turn := turn } : Loop κ).Uncalled t := by
    refine ⟨woken, fun p hp => (h.waits p t hp).2 (mem_woken.mpr ⟨o, by simp [hqueue]⟩)⟩
  refine (hdrop.assign free none (fun e => Bool.noConfusion e)).congr hdrop.once (fun _ _ => id)
    (fun q => sublist_of_eq (keeps_modify _ Promise.waiters (fun _ => by rfl) q))
    (fun q o e => (keeps_modify _ Promise.outcome? (fun _ => by rfl) q).trans e) fun u hu => ?_
  by_cases other : u = t
  · subst other
    rw [Function.update_self] at hu
    contradiction
  · rw [Function.update_of_ne other] at hu
    rw [promise_modify_of_ne _ other]
    exact h.parked u hu

end Jobs

/-! ### What the loop does by itself -/

/-- The loop goes on without running any task: at most a timer settles its promise. -/
structure Turns (l l' : Loop κ) : Prop where
  size : l'.promises.size = l.promises.size
  parked : ∀ t, (l'.promise t).parked? = (l.promise t).parked?
  keeps : l.Keeps l'
  outcome : ∀ p, l'.outcome? p = l.outcome? p ∨ l.Rings p ∧ l'.outcome? p = some (.ok .null)
  rings : ∀ p, l'.Rings p → l.Rings p
  minds : ∀ cause, l.Minds cause → l'.Minds cause

theorem Requeues.turns (h : l.Requeues l') : l.Turns l' where
  size := by rw [h.promises]
  parked t := by rw [h.promise]
  keeps p o e := by rwa [outcome?, h.promise, ← outcome?]
  outcome p := .inl (by rw [outcome?, h.promise, outcome?])
  rings := h.rings
  minds _ minds := minds.requeues h

theorem turns_internal (next : l.next = .internal l')
    (rung : ∀ p, l.Rings p → ∀ o, l.outcome? p = some o → o = .ok .null) : l.Turns l' := by
  have goes := l.goes_next
  rw [next] at goes
  cases goes with
  | @ring p turn job =>
    have queued : l.Rings p := .inl (by simp [queue, job])
    refine ⟨size_settle { l with turn := turn } .., fun t => parked_settle { l with turn := turn } ..,
      keeps_settle (l := { l with turn := turn }) (rung p queued), fun q => ?_,
      fun q hq => rings_drop job (rings_settle hq), fun cause minds => (minds.drop job).settle (rung p queued)⟩
    rcases promise_settle { l with turn := turn } p (.ok .null) q with e | ⟨rfl, e⟩
    · exact .inl (congrArg Promise.outcome? e)
    · exact .inr ⟨queued, congrArg Promise.outcome? e⟩
  | stale job parked =>
    exact ⟨rfl, fun _ => rfl, fun _ _ => id, fun _ => .inl rfl, fun _ hp => rings_drop job hp,
      fun _ minds => minds.drop job⟩
  | turn done => exact (requeues_startTurn done).turns

/-- A task is handed out, to go on with an outcome. -/
structure Resumes (l : Loop κ) (t : Nat) (code : κ) (o : Outcome) (l' : Loop κ) : Prop where
  size : l'.promises.size = l.promises.size
  code : (l.promise t).parked? = some code
  parked : ∀ u, (l'.promise u).parked? = if u = t then none else (l.promise u).parked?
  outcome : ∀ p, l'.outcome? p = l.outcome? p
  rings : ∀ p, l'.Rings p → l.Rings p
  minds : ∀ cause, l.Minds cause →
    (∃ c, cause t = some c ∧ l.Tells c o) ∧ l'.Minds (Function.update cause t none)

theorem resumes_next {t : Nat} {code : κ} {o : Outcome} (next : l.next = .resume t code o l') :
    l.Resumes t code o l' := by
  have goes := l.goes_next
  rw [next] at goes
  cases goes with
  | @wake _ _ turn _ job parked =>
    refine ⟨size_modify { l with turn := turn } .., parked, fun u => ?_,
      keeps_modify { l with turn := turn } Promise.outcome? (fun _ => by rfl),
      fun p hp => rings_drop job hp, fun cause minds => minds.take job⟩
    have inside : t < l.promises.size := by
      by_contra outside
      rw [parked_of_size_le (Nat.not_lt.mp outside)] at parked
      contradiction
    split
    · rename_i own
      subst own
      exact congrArg Promise.parked? (promise_modify_self { l with turn := turn } inside)
    · rename_i other
      exact congrArg Promise.parked? (promise_modify_of_ne { l with turn := turn } other)

end Loop

end ScopeExit
