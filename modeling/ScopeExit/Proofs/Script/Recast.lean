import ScopeExit.Proofs.Engine.Relaxed
import ScopeExit.Proofs.Script.Steps
/-!
The same run under another configuration.

A world is recast: another configuration, activations that may hold asynchronous actions where they
might not before, and all else the same.  Whatever the machine does, it does in the recast world too, and
comes to the recast state, as long as it looks at nothing that makes the difference: an asynchronous
action of a relaxed activation, and a call where only the other configuration allows one more.
-/
namespace ScopeExit

/-! ### Loops -/

section Recoded

variable {κ : Type} (f : κ → κ)

/-- The same promise with other code. -/
def Promise.recoded (q : Promise κ) : Promise κ := { q with parked? := q.parked?.map f }

/-- The same loop with other code. -/
def Loop.recoded (l : Loop κ) : Loop κ := { l with promises := l.promises.map (Promise.recoded f) }

/-- The same event with other code. -/
def Loop.Event.recoded : Loop.Event κ → Loop.Event κ
  | .resume task code outcome l => .resume task (f code) outcome (l.recoded f)
  | .internal l => .internal (l.recoded f)
  | .idle l => .idle (l.recoded f)

namespace Loop

variable (l : Loop κ)

theorem promise_recoded (p : Nat) : (l.recoded f).promise p = (l.promise p).recoded f := by
  simp only [promise, recoded, Array.getD_eq_getD_getElem?, Array.getElem?_map]
  cases l.promises[p]? <;> rfl

theorem outcome?_recoded (p : Nat) : (l.recoded f).outcome? p = l.outcome? p := by
  rw [outcome?, promise_recoded, outcome?, Promise.recoded]

@[simp] theorem size_recoded : (l.recoded f).promises.size = l.promises.size := Array.size_map ..

theorem add_recoded (q : Promise κ) :
    (l.recoded f).add (q.recoded f) = ((l.add q).1, (l.add q).2.recoded f) := by
  simp [add, recoded]

theorem modify_recoded {g g' : Promise κ → Promise κ} (same : ∀ q, g' (q.recoded f) = (g q).recoded f)
    (p : Nat) : (l.recoded f).modify p g' = (l.modify p g).recoded f := by
  have hmap : (l.promises.map (Promise.recoded f)).modify p g' =
      (l.promises.modify p g).map (Promise.recoded f) := by
    refine Array.ext (by simp) fun i h h' => ?_
    simp only [Array.getElem_modify, Array.getElem_map]
    split <;> simp [same]
  simp [modify, recoded, hmap]

theorem spawn_recoded (code : κ) :
    (l.recoded f).spawn (f code) = ((l.spawn code).1, (l.spawn code).2.recoded f) := by
  have hadd := l.add_recoded f { parked? := some code }
  simp only [Promise.recoded, Option.map_some] at hadd
  simp only [spawn, hadd]
  rfl

theorem hold_recoded (task : Nat) (code : κ) :
    ((l.recoded f).modify task fun p => { p with parked? := some (f code) }) =
      (l.modify task fun p => { p with parked? := some code }).recoded f :=
  l.modify_recoded f (by intro q; rfl) task

theorem giveWay_recoded (task : Nat) (code : κ) (outcome : Outcome) :
    (l.recoded f).giveWay task (f code) outcome = (l.giveWay task code outcome).recoded f := by
  unfold giveWay
  rw [hold_recoded]
  rfl

theorem park_recoded (task : Nat) (code : κ) (p : Nat) :
    (l.recoded f).park task (f code) p = (l.park task code p).recoded f := by
  unfold park
  rw [hold_recoded]
  exact modify_recoded f _ (by intro q; rfl) p

theorem foldl_enqueue_recoded (tasks : List Nat) (outcome : Outcome) :
    tasks.foldl (fun l task => l.enqueue (.wake task outcome)) (l.recoded f) =
      (tasks.foldl (fun l task => l.enqueue (.wake task outcome)) l).recoded f := by
  induction tasks generalizing l with
  | nil => rfl
  | cons task tasks ih => exact ih (l.enqueue (.wake task outcome))

theorem settle_recoded (p : Nat) (outcome : Outcome) :
    (l.recoded f).settle p outcome = (l.settle p outcome).recoded f := by
  have hmodify : ((l.recoded f).modify p fun q => { q with outcome? := some outcome, waiters := [] }) =
      (l.modify p fun q => { q with outcome? := some outcome, waiters := [] }).recoded f :=
    l.modify_recoded f (by intro q; rfl) p
  simp only [settle, promise_recoded, hmodify]
  exact foldl_enqueue_recoded ..

theorem sleep_recoded (task : Nat) (code : κ) (seconds : Float) :
    (l.recoded f).sleep task (f code) seconds = (l.sleep task code seconds).recoded f := by
  have hadd := l.add_recoded f {}
  have hpark := park_recoded f { (l.add {}).2 with
    timers := (l.add {}).2.timers.insert ⟨(l.add {}).2.deadline seconds, (l.add {}).2.timerCount, (l.add {}).1⟩
    timerCount := (l.add {}).2.timerCount + 1 } task code (l.add {}).1
  exact (congrArg (fun x : Nat × Loop κ => ({ x.2 with
    timers := x.2.timers.insert ⟨x.2.deadline seconds, x.2.timerCount, x.1⟩
    timerCount := x.2.timerCount + 1 } : Loop κ).park task (f code) x.1) hadd).trans hpark

theorem rest_recoded (task : Nat) (code : κ) (seconds : Float) :
    (l.recoded f).rest task (f code) seconds = (l.rest task code seconds).recoded f := by
  unfold rest
  split
  · exact giveWay_recoded ..
  · exact sleep_recoded ..

theorem collectDue_recoded (fuel : Nat) : (l.recoded f).collectDue fuel = (l.collectDue fuel).recoded f := by
  induction fuel generalizing l with
  | zero => rfl
  | succ fuel ih =>
    have htimers : (l.recoded f).timers = l.timers := rfl
    simp only [collectDue, htimers]
    cases l.timers.first? with
    | none => rfl
    | some t =>
      by_cases later : l.isLater t = true
      · have later' : (l.recoded f).isLater t = true := later
        simp only [later, later', if_true]
      · have later' : ¬ (l.recoded f).isLater t = true := later
        simp only [if_neg later, if_neg later']
        exact ih { l.enqueue (.ring t.promise) with timers := l.timers.dropFirst }

theorem jump_recoded : (l.recoded f).jump = l.jump.recoded f := by
  obtain ⟨now, promises, turn, arrivals, timers, timerCount⟩ := l
  simp only [jump, recoded]
  split
  · by_cases later : (Number.float now).lt (.float (‹Timer›).deadline) = true
    · simp [later]
    · simp [later]
  · rfl

theorem startTurn_recoded : (l.recoded f).startTurn = l.startTurn.recoded f := by
  have hcollect := l.jump.collectDue_recoded f l.jump.timers.entries.size
  have htimers : (l.jump.recoded f).timers = l.jump.timers := rfl
  simp only [startTurn, jump_recoded, htimers, hcollect]
  rfl

/-- The loop does not look into code. -/
theorem next_recoded : (l.recoded f).next = l.next.recoded f := by
  have hturn : (l.recoded f).turn = l.turn := rfl
  have hrest : ∀ turn, ({ l.recoded f with turn := turn } : Loop κ) =
      ({ l with turn := turn } : Loop κ).recoded f := fun _ => rfl
  unfold next
  rw [hturn]
  cases l.turn with
  | nil =>
    dsimp only
    rw [startTurn_recoded]
    have hjobs : (l.startTurn.recoded f).turn = l.startTurn.turn := rfl
    rw [hjobs]
    split <;> rfl
  | cons job turn =>
    cases job with
    | ring p =>
      simp only [hrest, settle_recoded]
      rfl
    | wake task outcome =>
      simp only [hrest, promise_recoded, Promise.recoded]
      cases (({ l with turn := turn } : Loop κ).promise task).parked? with
      | none => rfl
      | some code =>
        simp only [Option.map_some, Event.recoded]
        exact congrArg _ (modify_recoded f _ (by intro q; rfl) task)

end Loop

end Recoded

namespace Script

open World

/-! ### Worlds -/

/-- The same frame, where the activations in `free` are relaxed. -/
def Frame.recast (free : Nat → Bool) : Frame → Frame
  | .draining a d => .draining a (d.relaxed (free a))
  | f => f

/-- The same frames, where the activations in `free` are relaxed. -/
def Stack.recast (free : Nat → Bool) (stack : Stack) : Stack := stack.map (Frame.recast free)

/-- The same generator, where the activations in `free` are relaxed. -/
def GeneratorState.recast (free : Nat → Bool) : GeneratorState → GeneratorState
  | .suspended code => .suspended (Stack.recast free code)
  | state => state

/-- The same activation; its frames may hold asynchronous actions if `free` says so. -/
def Activation.recast (free : Bool) (a : Activation) : Activation :=
  ⟨a.isAsync || free, a.registry.relaxed free⟩

/-- The same world under another configuration, where the activations in `free` are relaxed.  If the
configurations differ in whether drains are recorded, it has no records. -/
def World.recast (c : Config) (free : Nat → Bool) (w : World) : World :=
  { w with
    config := c
    drains := if c.recordTrace = w.config.recordTrace then w.drains else #[]
    activations := w.activations.mapIdx fun i a => a.recast (free i)
    generators := w.generators.map (GeneratorState.recast free)
    loop := w.loop.recoded (Stack.recast free) }

/-- The same running code under another configuration, where the activations in `free` are relaxed. -/
def Running.recast (c : Config) (free : Nat → Bool) (r : Running) : Running :=
  ⟨r.world.recast c free, r.control, Stack.recast free r.stack⟩

/-- The world may be recast so: the other configuration differs in what it allows, and allows no less, or
in that it does not record drains; the activations to relax are there. -/
structure World.Recasts (c : Config) (free : Nat → Bool) (w : World) : Prop where
  limit : w.config.maxCallDepth ≤ c.maxCallDepth
  settle : c.settleBackground = w.config.settleBackground
  trace : c.recordTrace = w.config.recordTrace ∨ c.recordTrace = false
  inside : ∀ i, free i = true → i < w.activations.size

section Recast

variable (c : Config) (free : Nat → Bool)

theorem Stack.recast_append (upper lower : Stack) :
    Stack.recast free (upper ++ lower) = Stack.recast free upper ++ Stack.recast free lower :=
  List.map_append

theorem Frame.isBoundary_recast (f : Frame) : (f.recast free).isBoundary = f.isBoundary := by
  cases f <;> rfl

theorem Stack.segment_recast (stack : Stack) :
    (Stack.recast free stack).segment = Stack.recast free stack.segment := by
  induction stack with
  | nil => rfl
  | cons f stack ih =>
    have htail : List.takeWhile (fun f => !f.isBoundary) (List.map (Frame.recast free) stack) =
        List.map (Frame.recast free) (List.takeWhile (fun f => !f.isBoundary) stack) := ih
    simp only [Stack.segment, Stack.recast, List.map_cons, List.takeWhile_cons, Frame.isBoundary_recast]
    cases f.isBoundary <;> simp [htail]

theorem Stack.fromBoundary_recast (stack : Stack) :
    (Stack.recast free stack).fromBoundary = Stack.recast free stack.fromBoundary := by
  induction stack with
  | nil => rfl
  | cons f stack ih =>
    have htail : List.dropWhile (fun f => !f.isBoundary) (List.map (Frame.recast free) stack) =
        List.map (Frame.recast free) (List.dropWhile (fun f => !f.isBoundary) stack) := ih
    simp only [Stack.fromBoundary, Stack.recast, List.map_cons, List.dropWhile_cons,
      Frame.isBoundary_recast]
    cases f.isBoundary <;> simp [htail]

theorem Stack.belowDrive_recast (stack : Stack) :
    Stack.belowDrive (Stack.recast free stack) = Stack.recast free (Stack.belowDrive stack) := by
  induction stack with
  | nil => rfl
  | cons f stack ih => cases f <;> first | rfl | exact ih

variable {c free} {w w' : World}

theorem World.Recasts.mono (ok : w.Recasts c free) (config : w'.config = w.config)
    (size : w.activations.size ≤ w'.activations.size) : w'.Recasts c free where
  limit := config ▸ ok.limit
  settle := config ▸ ok.settle
  trace := config ▸ ok.trace
  inside i hi := Nat.lt_of_lt_of_le (ok.inside i hi) size

theorem World.Recasts.minor (ok : w.Recasts c free) (h : Minor w w') : w'.Recasts c free :=
  ok.mono h.config (Nat.le_of_eq (congrArg Array.size h.activations.symm))

theorem World.Recasts.setRegistry (ok : w.Recasts c free) (a : Nat) (r : Registry Deferred) :
    (w.setRegistry a r).Recasts c free :=
  ok.mono rfl (Nat.le_of_eq (Array.size_modify ..).symm)

/-! ### Changes of a world -/

theorem activation_recast (ok : w.Recasts c free) (i : Nat) :
    (w.recast c free).activation i = (w.activation i).recast (free i) := by
  simp only [World.activation, World.recast, Array.getD_eq_getD_getElem?, Array.getElem?_mapIdx]
  by_cases inside : i < w.activations.size
  · simp [Array.getElem?_eq_getElem inside]
  · have hfree : free i = false := by
      cases h : free i with
      | false => rfl
      | true => exact absurd (ok.inside i h) inside
    simp [Array.getElem?_eq_none (Nat.le_of_not_lt inside), hfree, Activation.recast, Registry.relaxed,
      default]

theorem registry_recast (ok : w.Recasts c free) (i : Nat) :
    (w.recast c free).registry i = (w.registry i).relaxed (free i) :=
  congrArg Activation.registry (activation_recast ok i)

theorem setRegistry_recast (a : Nat) (r : Registry Deferred) :
    (w.recast c free).setRegistry a (r.relaxed (free a)) = (w.setRegistry a r).recast c free := by
  have hactivations : (w.activations.mapIdx fun i x => x.recast (free i)).modify a
        (fun x => { x with registry := r.relaxed (free a) }) =
      (w.activations.modify a fun x => { x with registry := r }).mapIdx fun i x => x.recast (free i) := by
    refine Array.ext (by simp) fun i h h' => ?_
    simp only [Array.getElem_modify, Array.getElem_mapIdx]
    by_cases here : a = i
    · simp [here, Activation.recast]
    · simp [here]
  simp only [World.setRegistry, World.recast, hactivations]
  rfl

theorem newActivation_recast (ok : w.Recasts c free) (name : Text) (isAsync : Bool) :
    (w.recast c free).newActivation name isAsync =
      ((w.newActivation name isAsync).1, (w.newActivation name isAsync).2.recast c free) := by
  have hfree : free w.activations.size = false := by
    cases h : free w.activations.size with
    | false => rfl
    | true => exact absurd (ok.inside _ h) (Nat.lt_irrefl _)
  simp [World.newActivation, World.recast, Array.mapIdx_push, hfree, Activation.recast, Registry.relaxed]
  rfl

theorem generator_recast (g : Nat) :
    (w.recast c free).generator g = (w.generator g).recast free := by
  simp only [World.generator, World.recast, Array.getD_eq_getD_getElem?, Array.getElem?_map]
  cases w.generators[g]? <;> rfl

theorem setGenerator_recast (g : Nat) (state : GeneratorState) :
    (w.recast c free).setGenerator g (state.recast free) = (w.setGenerator g state).recast c free := by
  simp [World.setGenerator, World.recast, Array.map_setIfInBounds]
  rfl

variable (c free w) in
theorem spawn_recast (code code' : Nat → Stack) (same : ∀ t, code' t = Stack.recast free (code t)) :
    (w.recast c free).spawn code' = ((w.spawn code).1, (w.spawn code).2.recast c free) := by
  have hspawn := w.loop.spawn_recoded (Stack.recast free) (code w.loop.promises.size)
  have hsize : (w.recast c free).loop.promises.size = w.loop.promises.size :=
    w.loop.size_recoded (Stack.recast free)
  simp only [World.spawn, hsize, same]
  exact congrArg (fun x : Nat × Loop Stack => (x.1, { w.recast c free with loop := x.2 }.track x.1)) hspawn

theorem settledPromise_recast (outcome : Outcome) :
    (w.recast c free).settledPromise outcome =
      ((w.settledPromise outcome).1, (w.settledPromise outcome).2.recast c free) := by
  have hadd := w.loop.add_recoded (Stack.recast free) { outcome? := some outcome }
  exact congrArg (fun x : Nat × Loop Stack => (x.1, { w.recast c free with loop := x.2 }.track x.1)) hadd

theorem report_recast (ok : w.Recasts c free) (r : DrainRecord) :
    (w.recast c free).report r = (w.report r).recast c free := by
  by_cases same : c.recordTrace = w.config.recordTrace
  · simp only [World.report, World.recast, same, if_true]
  · have off : c.recordTrace = false := ok.trace.resolve_left same
    have on : w.config.recordTrace = true := by
      cases on : w.config.recordTrace with
      | true => rfl
      | false => exact absurd (off.trans on.symm) same
    simp [World.report, World.recast, off, on]

/-- A change of the recast world. -/
def Change.recast {α : Type} (c : Config) (free : Nat → Bool) (x : Change α) : Change α :=
  (x.1, x.2.recast c free)

/-- A change by what a computation gives that looks at nothing that is recast. -/
theorem change_recast {α β : Type} {r : Except Failure α} {f : World → α → β × World}
    (same : ∀ x, f (w.recast c free) x = ((f w x).1, (f w x).2.recast c free)) :
    (w.recast c free).change r f = Change.recast c free (w.change r f) := by
  cases r with
  | ok x => simp only [World.change, same, Change.recast]
  | error failure => rfl

theorem makeFunction_recast (node : Node) (scope : Nat) :
    (w.recast c free).makeFunction node scope = Change.recast c free (w.makeFunction node scope) := by
  unfold World.makeFunction
  split <;> rfl

theorem hoist_recast (scope : Nat) (statements : List Node) :
    (w.recast c free).hoist scope statements =
      ((w.hoist scope statements).1.recast c free, (w.hoist scope statements).2) := by
  induction statements generalizing w with
  | nil => rfl
  | cons s rest ih =>
    simp only [World.hoist, makeFunction_recast, Change.recast]
    by_cases isFunction : s.kind = .function
    · simp only [if_pos isFunction]
      obtain ⟨result, w'⟩ := w.makeFunction s scope
      cases result with
      | ok v => exact ih (w := w'.bind scope s.name v)
      | error failure => rfl
    · simp only [if_neg isFunction]
      exact ih

theorem getProperty_recast (object key : Value) :
    (w.recast c free).getProperty object key = Change.recast c free (w.getProperty object key) :=
  change_recast (by intro m; cases m <;> rfl)

theorem setProperty_recast (object key value : Value) :
    (w.recast c free).setProperty object key value =
      Change.recast c free (w.setProperty object key value) := by
  cases object with
  | object ref =>
    unfold World.setProperty
    exact change_recast fun _ => rfl
  | array ref =>
    unfold World.setProperty
    exact change_recast fun _ => rfl
  | _ =>
    simp only [World.setProperty]
    have hrefused : ∀ object, (w.recast c free).refusedProperty object key = w.refusedProperty object key :=
      fun _ => rfl
    rw [hrefused]
    split <;> rfl

theorem readPlace_recast (place : Place) :
    (w.recast c free).readPlace place = Change.recast c free (w.readPlace place) := by
  cases place with
  | name name scope => rfl
  | property object key => exact getProperty_recast object key

theorem writePlace_recast (place : Place) (value : Value) :
    (w.recast c free).writePlace place value = Change.recast c free (w.writePlace place value) := by
  cases place with
  | name name scope =>
    unfold World.writePlace World.assign
    exact change_recast fun _ => rfl
  | property object key => exact setProperty_recast object key value

theorem define_recast (kind name : Text) (target : Nat) (value : Value) :
    (w.recast c free).define kind name target value = (w.define kind name target value).recast c free := by
  simp only [World.define]
  split <;> rfl

theorem nap_recast (seconds : Float) :
    (w.recast c free).nap seconds = ((w.nap seconds).1, (w.nap seconds).2.recast c free) := by
  have hspawn := spawn_recast c free w (fun task => [.nap seconds, .taskEnd task])
    (fun task => [.nap seconds, .taskEnd task]) fun _ => rfl
  exact congrArg (fun x : Nat × World => (Value.promise x.1, x.2)) hspawn

theorem apply_recast (builtin : Builtin) (arguments : List Value) :
    (w.recast c free).apply builtin arguments = Change.recast c free (w.apply builtin arguments) := by
  unfold World.apply
  cases builtin with
  | log => exact change_recast fun _ => rfl
  | tick => exact change_recast nap_recast
  | sleep => exact change_recast nap_recast
  | toText => cases arguments <;> rfl
  | makeError className => exact change_recast fun _ => rfl
  | makeSuppressed => exact change_recast fun _ => rfl
  | _ => rfl

/-- An action is registered alike, unless a relaxed activation gets an asynchronous one. -/
theorem register_recast (ok : w.Recasts c free) (node : Node) (scope : Nat)
    (sync : free (w.scopes.activation scope) = true → node.isAsync = false) :
    (w.recast c free).register node scope = Change.recast c free (w.register node scope) := by
  cases hchildren : node.children with
  | nil =>
    unfold World.register
    rw [hchildren]
    rfl
  | cons body rest =>
    obtain ⟨a, ha⟩ : ∃ a, w.scopes.activation scope = a := ⟨_, rfl⟩
    have ha' : (w.recast c free).scopes.activation scope = a := ha
    unfold World.register
    rw [hchildren]
    simp only [ha, ha', registry_recast ok, Registry.innermost?_relaxed]
    cases (w.registry a).innermost? with
    | none => rfl
    | some handle =>
      dsimp only
      rw [Registry.register_relaxed _ _ _ _ fun h => by simp [sync (ha ▸ h)]]
      cases (w.registry a).register handle _ with
      | error failure => rfl
      | ok registry =>
        simp only [Except.map, World.change, setRegistry_recast]
        rfl

theorem copyScope_recast (loop : CountingLoop) (scope : Nat) :
    (w.recast c free).copyScope loop scope =
      ((w.copyScope loop scope).1, (w.copyScope loop scope).2.recast c free) := by
  unfold World.copyScope
  split <;> rfl

end Recast

end Script

end ScopeExit
