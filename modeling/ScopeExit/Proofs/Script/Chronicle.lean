import Mathlib.Algebra.GroupWithZero.Nat
import ScopeExit.Proofs.Script.Filing
import ScopeExit.Proofs.Script.Twin
import ScopeExit.Proofs.Script.Whereabouts
/-!
The ledger of a run.

A chronicle lists the records of a run in their order, with the frames that they are about.  It ties the
counts of the run to its records, and says in which order frames are drained: a frame that is gone neither
comes back nor encloses another one, so its record stands before those of the frames around it.

Nothing looks at the records while a program runs, so a run that keeps none is the twin of the one that does.
-/
namespace ScopeExit.Script

open World Stack

/-! ### Chronicles -/

/-- The records that a run has filed when it comes to a state, the first one first.  The states before are
listed as in a trace, the last one first. -/
inductive Chronicle (config : Config) (program : Node) : List Running → List Filing → Running → Prop
  | start : Chronicle config program [] [] (.start config program.withIdentities)
  | quiet {before : List Running} {log : List Filing} {s s' : Running}
      (chronicle : Chronicle config program before log s) (leads : s.Leads s')
      (ledger : s'.world.ledger = s.world.ledger) : Chronicle config program (s :: before) log s'
  | files {before : List Running} {log : List Filing} {s s' : Running} {x : Filing}
      (chronicle : Chronicle config program before log s) (leads : s.Leads s')
      (files : s.world.Files s'.world x) : Chronicle config program (s :: before) (log ++ [x]) s'

/-- One filing may stand before another: if both are about one activation, their frames are different, and
the first frame is not around the second one. -/
def Filing.Precedes (x y : Filing) : Prop :=
  x.activation = y.activation → x.frame.id ≠ y.frame.id ∧ x.frame.id ∉ y.outer.map ScopeFrame.id

/-- What a run says of its drains is what it has filed. -/
structure World.Balances (w : World) (log : List Filing) : Prop where
  drains : w.stats.drains = log.length
  executed : w.stats.actionsExecuted = (log.map fun x => x.record.executed).sum
  failures : w.stats.actionFailures = (log.map fun x => x.record.failures).sum
  trace : w.drains.toList = if w.config.recordTrace then log.map Filing.record else []
  sound : ∀ x ∈ log, x.record.Sound
  ordered : log.Pairwise Filing.Precedes

section Chronicle

variable {config : Config} {program : Node} {log : List Filing} {s s' : Running} {w w' : World}

/-- Everything is right about the frames in every state of a run. -/
theorem Run.accounted {L : Ledger} (run : Run config program L s) : s.Accounted := by
  let _ : Node.MainRule := .any
  induction run with
  | start =>
    obtain ⟨w, blank, builds⟩ := builds_start True config program.withIdentities fun _ _ => trivial
    exact builds.accounts trivial blank.accounted ⟨trivial, trivial, trivial, trivial⟩
  | step before next ih => exact (ih.step (before.orderly fun _ _ => trivial) next).accounted
  | @reorder L w stack loop before other ih =>
    refine ⟨ih.world.relooped rfl rfl rfl fun t code e => .inl ?_, ih.stack.mono (World.ages_of_eq (w := w) rfl), trivial⟩
    rwa [Loop.promise, other.promises, ← Loop.promise] at e

/-- What a run may come to is right about its frames. -/
theorem Run.books {L : Ledger} (run : Run config program L s) (leads : s.Leads s') : s'.Books s.world := by
  let _ : Node.MainRule := .any
  cases leads with
  | step next => exact run.accounted.step (run.orderly fun _ _ => trivial) next
  | reorder other =>
    exact ⟨(run.reorder other).accounted, World.ages_of_eq rfl, .inl rfl⟩

theorem World.Balances.congr (h : w.Balances log) (config : w'.config = w.config)
    (ledger : w'.ledger = w.ledger) : w'.Balances log := by
  obtain ⟨drains, rest⟩ := Prod.mk.inj ledger
  obtain ⟨count, rest⟩ := Prod.mk.inj rest
  obtain ⟨executed, failures⟩ := Prod.mk.inj rest
  exact ⟨count.trans h.drains, executed.trans h.executed, failures.trans h.failures,
    by rw [drains, config]; exact h.trace, h.sound, h.ordered⟩

/-- A record is added at the end. -/
theorem World.Balances.report (h : w.Balances log) {x : Filing} (sound : x.record.Sound)
    (last : ∀ y ∈ log, y.Precedes x) : (w.report x.record).Balances (log ++ [x]) where
  drains := by simp [World.report, h.drains]
  executed := by simp [World.report, h.executed]
  failures := by simp [World.report, h.failures]
  trace := by
    have trace := h.trace
    simp only [World.report]
    split <;> simp_all
  sound y hy := by
    rcases List.mem_append.mp hy with hy | hy
    · exact h.sound y hy
    · exact List.mem_singleton.mp hy ▸ sound
  ordered := by
    refine List.pairwise_append.mpr ⟨h.ordered, List.pairwise_singleton .., fun y hy z hz => ?_⟩
    exact List.mem_singleton.mp hz ▸ last y hy

/-- A frame that is gone stands before what is filed later. -/
theorem World.Files.last {x y : Filing} (files : w.Files w' x)
    (gone : (w.registry y.activation).Gone y.frame.id) : y.Precedes x := by
  intro same
  have ids := congrArg (List.map Prod.fst) files.before
  rw [List.map_map, List.map_map] at ids
  have absent : y.frame.id ∉ (x.outer ++ [x.frame]).map ScopeFrame.id := by
    have absent := gone.absent
    rw [same] at absent
    exact fun live => absent (ids.symm ▸ live)
  rw [List.map_append] at absent
  exact ⟨fun e => absent (List.mem_append_right _ (by simp [e])), fun live => absent (List.mem_append_left _ live)⟩

/-- Every run has a chronicle: its ledger says what it has filed, and the frames are gone. -/
theorem Trace.chronicle {before : List Running} (trace : Trace config program before s) :
    ∃ log, Chronicle config program before log s ∧ s.world.Balances log ∧
      ∀ x ∈ log, (s.world.registry x.activation).Gone x.frame.id := by
  induction trace with
  | start =>
    let _ : Node.MainRule := .any
    obtain ⟨w, blank, builds⟩ := builds_start True config program.withIdentities fun _ _ => trivial
    refine ⟨[], .start, ?_, List.forall_mem_nil _⟩
    exact World.Balances.congr (w := { config := config }) ⟨rfl, rfl, rfl, by simp, by simp, .nil⟩
      (builds.evolves.config.trans blank.config) ((builds.ledger trivial).trans blank.ledger)
  | @next before s s' trace leads ih =>
    obtain ⟨log, chronicle, balances, gone⟩ := ih
    obtain ⟨L, run⟩ := trace.run
    have config := (trace.next leads).config_eq.trans trace.config_eq.symm
    obtain ⟨-, ages, books⟩ := run.books leads
    have still : ∀ x ∈ log, (s'.world.registry x.activation).Gone x.frame.id := fun x hx =>
      (gone x hx).mono (ages x.activation)
    rcases books with same | ⟨x, files, sound, left⟩
    · exact ⟨log, chronicle.quiet leads same, balances.congr config same, still⟩
    · refine ⟨log ++ [x], chronicle.files leads files, ?_, ?_⟩
      · have reported := balances.report sound fun y hy => files.last (gone y hy)
        exact reported.congr config files.ledger
      · exact List.forall_mem_append.mpr ⟨still, List.forall_mem_singleton.mpr left⟩

end Chronicle

/-! ### Runs without records -/

/-- The same configuration with or without records of the drains. -/
def Config.recording (config : Config) (trace : Bool) : Config := { config with recordTrace := trace }

/-- The same world without the records of its drains. -/
def World.untraced (w : World) : World := { w with drains := #[] }

/-- The same end of a run without the records of its drains. -/
def RunEnd.untraced : RunEnd → RunEnd := Except.map fun f => ⟨f.world.untraced, f.uncaught?⟩

/-- The same step of running code; if it ends the run, the records of the drains are left out. -/
def Running.Step.untraced : Transition Running RunEnd → Transition Running RunEnd
  | .next s => .next s
  | .halt result => .halt (RunEnd.untraced result)

/-- A program runs the same under two configurations but for the records of the drains, of which the second
run has none: in whatever order the tasks of one run go on, those of another run under the other configuration
may go on so too; as long as they do, the two show the same but for the records, and end at the same moment
and alike. -/
structure RunsAlikeUntraced (c c' : Config) (program : Node) : Prop where
  forth : ∀ {L : Ledger} {s : Running}, Run c program L s →
    ∃ L' s', Run c' program L' s' ∧ Together c c' program s s'
  back : ∀ {L' : Ledger} {s' : Running}, Run c' program L' s' →
    ∃ L s, Run c program L s ∧ Together c c' program s s'
  shows : ∀ {s s' : Running}, Together c c' program s s' → s.world.untraced.ShowsAlike s'.world
  steps : ∀ {s s' : Running}, Together c c' program s s' →
    Running.Step.Alike (Running.Step.untraced s.step) s'.step
  ends : (RunEnd.untraced (runToEnd c program)).Alike (runToEnd c' program)

section Untraced

variable {config : Config} {program : Node}

theorem recastable_recording (config : Config) (program : Node) :
    Recastable (config.recording true) (config.recording false) (fun _ => false) program where
  start := start_recast program.withIdentities (Bool.or_false _).symm (Int.le_refl _) rfl (.inr rfl) (by simp)
  recasts run := by
    have hconfig := run.config_eq
    exact ⟨by rw [hconfig]; exact Int.le_refl _, by rw [hconfig]; rfl, .inr rfl, by simp⟩
  sync _ _ _ _ main := by simp at main

/-- The limit on calls is the same. -/
theorem granted_recording {L : Ledger} {s : Running} (run : Run (config.recording true) program L s) :
    s.Granted (config.recording false) := by
  rintro ⟨-, deep, shallow⟩
  rw [run.config_eq] at deep
  exact absurd shallow (Int.not_lt.mpr deep)

theorem showsAlike_untraced {w : World} (traced : w.config.recordTrace = true) :
    w.untraced.ShowsAlike (w.recast (config.recording false) fun _ => false) := by
  refine ⟨rfl, rfl, rfl, rejections_recast, if_neg fun same => ?_, rfl⟩
  exact Bool.false_ne_true (same.trans traced)

theorem alike_untraced {result : RunEnd}
    (traced : ∀ f, result = .ok f → f.world.config.recordTrace = true) :
    (RunEnd.untraced result).Alike (result.recast (config.recording false) fun _ => false) := by
  cases result with
  | ok f => exact .shown rfl (showsAlike_untraced (traced f rfl))
  | error failure => exact .failed failure

theorem runsAlikeUntraced (config : Config) (program : Node) :
    RunsAlikeUntraced (config.recording true) (config.recording false) program where
  forth run := by
    obtain ⟨⟨L', run'⟩, together⟩ := (recastable_recording config program).together granted_recording run
    exact ⟨L', _, run', together⟩
  back := (recastable_recording config program).back granted_recording
  shows together := by
    obtain ⟨⟨L, run⟩, rfl⟩ := (recastable_recording config program).eq_recast granted_recording together
    exact showsAlike_untraced (by rw [run.config_eq]; rfl)
  steps {s _} together := by
    obtain ⟨⟨L, run⟩, rfl⟩ := (recastable_recording config program).eq_recast granted_recording together
    rw [(recastable_recording config program).step run (granted_recording run)]
    cases next : s.step with
    | next s => exact .next s _
    | halt result =>
      refine .halt (alike_untraced fun f e => ?_)
      rw [Running.config_of_halt (e ▸ next), run.config_eq]
      rfl
  ends := by
    rw [(recastable_recording config program).runToEnd_recast fun k t reaches => by
      have run := Run.observed (config.recording true) program k
      rw [observed, exhausted_observe reaches] at run
      exact granted_recording run]
    exact alike_untraced fun f e => (config_of_runToEnd e) ▸ rfl

end Untraced

/-! ### The ledger -/

/-- **Main result.**  The ledger of a run is consistent.  Every run has a chronicle of the drains that it has
reported, which its counts and its records agree with to the end, and without the records the program runs the
same. -/
theorem keeps_ledger (config : Config) (program : Node) :
    (∀ {before : List Running} {s : Running}, Trace config program before s →
      ∃ log, Chronicle config program before log s ∧ s.world.Balances log ∧
        ∀ f, s.step = .halt (.ok f) → f.world.Balances log) ∧
      RunsAlikeUntraced (config.recording true) (config.recording false) program := by
  refine ⟨fun {before s} trace => ?_, runsAlikeUntraced config program⟩
  obtain ⟨log, chronicle, balances, -⟩ := trace.chronicle
  refine ⟨log, chronicle, balances, fun f halts => ?_⟩
  obtain ⟨loop, e⟩ := s.world_of_halt halts
  rw [e]
  exact balances.congr rfl rfl

/-- A block with a deferred action in a module with another one. -/
def nestedDefers : Node :=
  let value : Node := { kind := .expressionStatement, children := [{ kind := .literal, value := .bool true }] }
  let action : Node := { kind := .defer, children := [value] }
  { kind := .program, children := [action, { kind := .block, children := [action] }] }

/-- The nested actions leave two records, with and without a trace. -/
theorem keeps_ledger_nestedDefers :
    (∃ before s log, Trace {} nestedDefers before s ∧ Chronicle {} nestedDefers before log s ∧
      s.world.Balances log ∧ log.length = 2) ∧
    (RunEnd.untraced (runToEnd (Config.recording {} true) nestedDefers)).Alike
      (runToEnd (Config.recording {} false) nestedDefers) := by
  obtain ⟨chronicle, alike⟩ := keeps_ledger {} nestedDefers
  obtain ⟨before, trace⟩ := (Run.observed {} nestedDefers 40).trace
  obtain ⟨log, filed, balances, -⟩ := chronicle trace
  have drains : (observed {} nestedDefers 40).2.world.stats.drains = 2 := by decide +kernel
  exact ⟨⟨before, _, log, trace, filed, balances, balances.drains.symm.trans drains⟩, alike.ends⟩

end ScopeExit.Script
