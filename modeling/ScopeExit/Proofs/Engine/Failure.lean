import ScopeExit.Proofs.Engine.Drain
/-!
No failure is lost.

A drain folds the failures of its actions into one, on top of the failure that was pending.  What it
returns may be a failing action or the pending failure of another drain, so failures are folded again
and again on their way out.  Folding concatenates leaves, and concatenation does not mind the nesting:
this is all there is to the order and the number of the leaves of the failure that finally comes out.
-/
namespace ScopeExit

variable {β σ : Type}

/-! ### Folding -/

/-- A failure holds something. -/
theorem Failure.leaves_ne_nil (f : Failure) : f.leaves ≠ [] := by
  induction f with
  | single fault => exact List.cons_ne_nil _ _
  | suppressing _ error suppressed ih _ =>
    rw [leaves]
    exact List.append_ne_nil_of_left_ne_nil ih _

/-- The folded failures are found one after the other, down to the last one, which may be folded
itself. -/
theorem FailureChain.links_fold (last : Failure) (rest : List Failure) (primary : Failure) :
    (fold primary (rest ++ [last])).links = primary :: rest ++ last.links := by
  induction rest generalizing primary with
  | nil => rfl
  | cons next rest ih =>
    rw [List.cons_append, fold, Failure.links, ih]
    rfl

/-- The chain of some failures, most recent first. -/
def FailureChain.ofErrors? : List Failure → Option FailureChain
  | [] => none
  | primary :: suppressed => some ⟨primary, suppressed⟩

namespace Aggregator

/-- All failures so far, most recent first: those of the actions in front of the pending one. -/
theorem foldl_record (pending : ExitReason) (failures : List Failure) :
    failures.foldl record (start pending) =
      ⟨pending, FailureChain.ofErrors? (failures.reverse ++ pending.error?.toList),
        failures.length⟩ := by
  induction failures using List.reverseRecOn with
  | nil =>
    simp only [List.foldl_nil, start, List.reverse_nil, List.nil_append, List.length_nil]
    cases pending.error? <;> rfl
  | append_singleton failures f ih =>
    rw [List.foldl_append, ih, List.reverse_append, List.length_append]
    simp only [List.foldl_cons, List.foldl_nil, record, List.reverse_singleton,
      List.nil_append, List.cons_append, List.length_singleton]
    cases failures.reverse ++ pending.error?.toList <;> rfl

/-- Without a failure the pending reason stays; otherwise all failures are folded into one. -/
theorem resolve_foldl_record (pending : ExitReason) (failures : List Failure) :
    (failures.foldl record (start pending)).resolve =
      match failures.reverse with
      | [] => pending
      | f :: earlier =>
        .throwing (some (FailureChain.fold f (earlier ++ pending.error?.toList))) := by
  rw [foldl_record]
  cases hrev : failures.reverse with
  | nil =>
    have hlen : failures.length = 0 := by simpa using hrev
    simp [resolve, built?, hlen]
  | cons f earlier =>
    have hlen : failures.length ≠ 0 := by
      rw [← List.length_reverse, hrev]
      exact Nat.succ_ne_zero _
    simp [resolve, built?, hlen, FailureChain.ofErrors?, FailureChain.toFailure]

/-- What propagates after ordinary failures is an ordinary failure. -/
theorem resolve_ordinary {pending : ExitReason} {failures : List Failure}
    (hp : ∀ e ∈ pending.error?, e.severity = .ordinary)
    (hf : ∀ e ∈ failures, e.severity = .ordinary) :
    ∀ e ∈ (failures.foldl record (start pending)).resolve.error?, e.severity = .ordinary := by
  rw [resolve_foldl_record]
  cases hrev : failures.reverse with
  | nil => exact hp
  | cons f earlier =>
    intro e he
    obtain rfl : FailureChain.fold f (earlier ++ pending.error?.toList) = e := by
      simpa [ExitReason.error?] using he
    cases earlier ++ pending.error?.toList with
    | nil => exact hf f (List.mem_reverse.mp (hrev ▸ List.mem_cons_self ..))
    | cons => rfl

end Aggregator

/-! ### The outcome of a drain -/

/-- What `failures`, in the order in which they occurred, make of a pending exit reason. -/
structure Folded (pending : ExitReason) (failures : List Failure) (reason : ExitReason) :
    Prop where
  /-- Without a failure it is the very reason that was pending. -/
  none : failures = [] → reason = pending
  /-- Otherwise a failure propagates that holds all of them, the most recent one first, and then the
  one that was pending. -/
  leaves : failures ≠ [] → ∃ e, reason = .throwing (some e) ∧
    e.leaves = failures.reverse.flatMap Failure.leaves ++ pending.error?.elim [] Failure.leaves
  /-- Walking down that failure meets them one by one, and then walks down the pending one. -/
  walk : ∀ e p, failures ≠ [] → reason = .throwing (some e) → pending = .throwing (some p) →
    e.links = failures.reverse ++ p.links
  /-- If none was pending it walks down the first one at last. -/
  walk_first : ∀ e f rest, failures = f :: rest → reason = .throwing (some e) →
    pending.error? = Option.none → e.links = rest.reverse ++ f.links

theorem Folded.of_resolve (pending : ExitReason) (failures : List Failure) :
    Folded pending failures (failures.foldl Aggregator.record (.start pending)).resolve := by
  rw [Aggregator.resolve_foldl_record]
  refine ⟨?_, ?_, ?_, ?_⟩
  · rintro rfl
    rfl
  · intro hne
    cases hrev : failures.reverse with
    | nil => exact absurd (List.reverse_eq_nil_iff.mp hrev) hne
    | cons f earlier =>
      refine ⟨_, rfl, ?_⟩
      rw [FailureChain.leaves_fold, ← List.cons_append, List.flatMap_append]
      cases pending.error? <;> simp
  · rintro e p hne he rfl
    cases hrev : failures.reverse with
    | nil => exact absurd (List.reverse_eq_nil_iff.mp hrev) hne
    | cons f earlier =>
      rw [hrev] at he
      simp only [ExitReason.error?, Option.toList_some, ExitReason.throwing.injEq,
        Option.some.injEq] at he
      rw [← he, FailureChain.links_fold]
  · rintro e f rest rfl he hp
    rw [List.reverse_cons] at he
    cases hrest : rest.reverse with
    | nil =>
      rw [hrest, hp] at he
      simp only [List.nil_append, Option.toList_none, List.append_nil, FailureChain.fold,
        ExitReason.throwing.injEq, Option.some.injEq] at he
      rw [← he, List.nil_append]
    | cons g earlier =>
      rw [hrest, hp] at he
      simp only [List.cons_append, Option.toList_none, List.append_nil,
        ExitReason.throwing.injEq, Option.some.injEq] at he
      rw [← he, FailureChain.links_fold]

namespace Drain

theorem close_ok {d : Drain} {r r' : Registry β} {result : Except Failure DrainOutcome}
    {o : DrainOutcome} (e : d.close r result = (.ok o, r')) : result = .ok o := by
  simp only [close] at e
  split at e
  · exact (Prod.mk.inj e).1
  · simp at e

/-- A drain ends with its outcome, if it does not fail, and hands out an action otherwise. -/
theorem advance_cases (d : Drain) (r : Registry β) :
    (∃ a r', d.advance r = (.run a { d with executed := d.executed + 1 }, r')) ∨
      (∃ r', d.advance r = (.ended (.ok d.outcome), r')) ∨
      ∃ failure r', d.advance r = (.ended (.error failure), r') := by
  simp only [advance]
  split
  · exact .inl ⟨_, _, rfl⟩
  · rename_i r₁ _
    cases hclose : d.close r₁ (.ok d.outcome) with
    | mk result r' =>
      cases result with
      | ok o => exact .inr (.inl ⟨r', by rw [Except.ok.inj (close_ok hclose)]⟩)
      | error failure => exact .inr (.inr ⟨failure, r', rfl⟩)
  · rename_i failure _
    cases hclose : d.close r (.error failure) with
    | mk result r' =>
      cases result with
      | ok o => exact absurd (close_ok hclose) (by simp)
      | error failure => exact .inr (.inr ⟨failure, r', rfl⟩)

/-- After an action a drain goes on with what the action came to, or fails. -/
theorem settle_cases (d : Drain) (r : Registry β) (failure? : Option Failure) :
    d.settle r failure? = (d.take failure?).advance r ∨
      ∃ failure r', d.settle r failure? = (.ended (.error failure), r') := by
  cases failure? with
  | none => exact .inl rfl
  | some e =>
    by_cases he : e.severity = .ordinary
    · exact .inl (settle_ordinary d r (by simpa using he))
    · cases hclose : d.close r (.error e) with
      | mk result r' =>
        cases result with
        | ok o => exact absurd (close_ok hclose) (by simp)
        | error failure => exact .inr ⟨failure, r', by simp [settle, he, hclose]⟩

/-- Whatever the bodies do: a drain that ends with an outcome has taken in the failures of all actions
that it ran. -/
theorem Runs.outcome {body : BodyRuns β σ} {x : DrainStep β × Registry β} {s s' : σ}
    {r' : Registry β} {ran : List (Action β × Option Failure)} {result : Except Failure DrainOutcome}
    (h : Runs body x s ran result s' r') :
    ∀ {d : Drain} {r : Registry β} {o : DrainOutcome}, x = d.advance r → result = .ok o →
      ∃ d' : Drain, o = d'.outcome ∧
        d'.aggregator = (ran.filterMap Prod.snd).foldl Aggregator.record d.aggregator := by
  induction h with
  | ended =>
    rintro d r o hx rfl
    rcases advance_cases d r with ⟨a, r', h⟩ | ⟨r', h⟩ | ⟨failure, r', h⟩
    · rw [h] at hx
      simp at hx
    · rw [h] at hx
      obtain rfl : o = d.outcome := by simpa using (Prod.mk.inj hx).1
      exact ⟨d, rfl, rfl⟩
    · rw [h] at hx
      simp at hx
  | @run a d₁ r₁ r₂ r₃ s s' s'' failure? ran result hb hrest ih =>
    rintro d r o hx rfl
    rcases advance_cases d r with ⟨b, r', h⟩ | ⟨r', h⟩ | ⟨failure, r', h⟩
    · rw [h] at hx
      simp only [Prod.mk.injEq, DrainStep.run.injEq] at hx
      obtain ⟨⟨rfl, rfl⟩, rfl⟩ := hx
      rcases settle_cases { d with executed := d.executed + 1 } r₂ failure? with hs | ⟨f, r', hs⟩
      · obtain ⟨d', ho, haggregator⟩ := ih hs rfl
        refine ⟨d', ho, haggregator.trans ?_⟩
        cases failure? <;> rfl
      · rw [hs] at hrest
        cases hrest
    · rw [h] at hx
      simp at hx
    · rw [h] at hx
      simp at hx

/-- A drain that ends with an outcome has folded the failures of all actions that it ran. -/
theorem Runs.reason {body : BodyRuns β σ} {x : DrainStep β × Registry β} {s s' : σ}
    {r' : Registry β} {ran : List (Action β × Option Failure)} {result : Except Failure DrainOutcome}
    (h : Runs body x s ran result s' r') {d : Drain} {r : Registry β} {o : DrainOutcome}
    (hx : x = d.advance r) (ho : result = .ok o) :
    o.reason = ((ran.filterMap Prod.snd).foldl Aggregator.record d.aggregator).resolve := by
  obtain ⟨d', rfl, haggregator⟩ := h.outcome hx ho
  rw [← haggregator]
  rfl

/-- A drain that was opened is the one that was asked for, with no action started and no failure
recorded. -/
theorem eq_of_start {r r' : Registry β} {h : FrameHandle} {mode : ActionMode} {reason : ExitReason}
    {d : Drain} (e : Drain.start r h mode reason = .ok (d, r')) :
    ∃ f, d = ⟨h, f, mode, 0, .start reason⟩ := by
  simp only [Drain.start, Bind.bind, Except.bind] at e
  split at e
  · contradiction
  · split at e
    · contradiction
    · split at e
      · contradiction
      · simp only [Pure.pure, Except.pure, Except.ok.injEq, Prod.mk.injEq] at e
        exact ⟨_, e.1.symm⟩

theorem start_ok {r r' : Registry β} {h : FrameHandle} {mode : ActionMode} {reason : ExitReason}
    {d : Drain} (e : Drain.start r h mode reason = .ok (d, r')) :
    d.aggregator = .start reason := by
  obtain ⟨f, rfl⟩ := eq_of_start e
  rfl

end Drain

namespace Registry

/-- A dispatch that does not fail folds the failures of the actions that it ran. -/
theorem Dispatches.reason_eq {body : BodyRuns β σ} {r : Registry β} {s s' : σ}
    {h : FrameHandle} {mode : ActionMode} {pending reason : ExitReason}
    {ran : List (Action β × Option Failure)} {o : Dispatched β}
    (hd : Dispatches body ran r s h mode pending o s') (ho : o.result = .ok reason) :
    reason = ((ran.filterMap Prod.snd).foldl Aggregator.record (.start pending)).resolve := by
  cases hd with
  | refused start =>
    simp only [leave] at ho
    split at ho <;> simp at ho
  | drained start runs =>
    simp only [leave] at ho
    split at ho
    · simp at ho
    · split at ho
      · simp at ho
      · have hreason := runs.reason rfl rfl
        rw [Drain.start_ok start] at hreason
        simp only [Except.ok.injEq] at ho
        rw [← ho, hreason]

theorem Dispatches.folded {body : BodyRuns β σ} {r : Registry β} {s s' : σ}
    {h : FrameHandle} {mode : ActionMode} {pending reason : ExitReason}
    {ran : List (Action β × Option Failure)} {o : Dispatched β}
    (hd : Dispatches body ran r s h mode pending o s') (ho : o.result = .ok reason) :
    Folded pending (ran.filterMap Prod.snd) reason := by
  rw [hd.reason_eq ho]
  exact .of_resolve _ _

end Registry

end ScopeExit
