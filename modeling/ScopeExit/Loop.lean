import ScopeExit.Failure
import ScopeExit.Loop.Timers
import ScopeExit.Number.Arithmetic
import ScopeExit.Number.Fixed
/-!
The event loop: promises, tasks and virtual time.

A promise is settled once, with a value or a failure.  A task is a promise with code that runs until
it suspends; what is left of the code is parked with the promise.  Whatever may go on is in one queue,
first come, first served: a task that is new, a task that gave way, a task whose awaited promise was
settled, a timer that went off.

The queue is worked off in turns.  A turn takes the jobs that are there at its start; timers that are
due join before that, and what arrives later waits for the next turn.  Time stands still while there
is anything to do, and otherwise jumps to the earliest deadline.
-/
namespace ScopeExit

/-- How a promise was settled, and how a suspended task is resumed. -/
abbrev Outcome := Except Failure Value

/-- A promise, and the rest of the code that settles it if that code is suspended. -/
structure Promise (κ : Type) where
  outcome? : Option Outcome := none
  /-- The tasks that wait for it, in the order in which they began to. -/
  waiters : List Nat := []
  parked? : Option κ := none

instance {κ : Type} : Inhabited (Promise κ) := ⟨{}⟩

/-- Something that may go on. -/
inductive Job where
  /-- A task goes on with an outcome. -/
  | wake (task : Nat) (outcome : Outcome)
  /-- A timer went off. -/
  | ring (promise : Nat)

/-- A duration in milliseconds, in seconds. -/
def seconds (milliseconds : Number) : Except NumberError Float := do
  match ← milliseconds.div 1000 with
  | .float x => pure x
  | .int n => Number.floatOfInt n

/-- The state of the event loop.  The code of tasks is of type `κ`. -/
structure Loop (κ : Type) where
  /-- Seconds since the start. -/
  now : Float := 0
  promises : Array (Promise κ) := #[]
  /-- The jobs that are left of the current turn. -/
  turn : List Job := []
  /-- The jobs of the next turn, the last one first. -/
  arrivals : List Job := []
  timers : Timers := {}
  /-- How many timers were made. -/
  timerCount : Nat := 0

namespace Loop

variable {κ : Type}

instance : Inhabited (Loop κ) := ⟨{}⟩

/-- A promise. -/
def promise (l : Loop κ) (p : Nat) : Promise κ := l.promises.getD p default

/-- How a promise was settled, if it was. -/
def outcome? (l : Loop κ) (p : Nat) : Option Outcome := (l.promise p).outcome?

/-- A promise that is not settled yet. -/
def isPending (l : Loop κ) (p : Nat) : Bool := (l.outcome? p).isNone

/-- A new promise. -/
def add (l : Loop κ) (p : Promise κ) : Nat × Loop κ :=
  (l.promises.size, { l with promises := l.promises.push p })

/-- The jobs in the order in which their time comes. -/
def queue (l : Loop κ) : List Job := l.turn ++ l.arrivals.reverse

/-- One more job at the end of the queue. -/
def enqueue (l : Loop κ) (j : Job) : Loop κ := { l with arrivals := j :: l.arrivals }

theorem queue_enqueue (l : Loop κ) (j : Job) : (l.enqueue j).queue = l.queue ++ [j] := by
  simp [queue, enqueue]

/-- A promise with other content. -/
def modify (l : Loop κ) (p : Nat) (f : Promise κ → Promise κ) : Loop κ :=
  { l with promises := l.promises.modify p f }

/-- A new task, which takes its first step when its turn comes. -/
def spawn (l : Loop κ) (code : κ) : Nat × Loop κ :=
  let (task, l) := l.add { parked? := some code }
  (task, l.enqueue (.wake task (.ok .null)))

/-- Parks a task that gives way once and goes on with an outcome. -/
def giveWay (l : Loop κ) (task : Nat) (code : κ) (outcome : Outcome) : Loop κ :=
  (l.modify task fun p => { p with parked? := some code }).enqueue (.wake task outcome)

/-- Parks a task until a promise is settled. -/
def park (l : Loop κ) (task : Nat) (code : κ) (p : Nat) : Loop κ :=
  (l.modify task fun q => { q with parked? := some code }).modify p
    fun q => { q with waiters := q.waiters ++ [task] }

/-- Settles a promise and queues the tasks that wait for it. -/
def settle (l : Loop κ) (p : Nat) (outcome : Outcome) : Loop κ :=
  let waiters := (l.promise p).waiters
  let l := l.modify p fun q => { q with outcome? := some outcome, waiters := [] }
  waiters.foldl (fun l task => l.enqueue (.wake task outcome)) l

/-- The time in some seconds, to the nanosecond, so that one duration and its parts end together. -/
def deadline (l : Loop κ) (seconds : Float) : Float := Number.roundedTo 9 (l.now + seconds)

/-- Parks a task for some seconds. -/
def sleep (l : Loop κ) (task : Nat) (code : κ) (seconds : Float) : Loop κ :=
  let (p, l) := l.add {}
  let timer : Timer := ⟨l.deadline seconds, l.timerCount, p⟩
  { l with timers := l.timers.insert timer, timerCount := l.timerCount + 1 }.park task code p

/-- Parks a task for some seconds; a rest that takes no time gives way once. -/
def rest (l : Loop κ) (task : Nat) (code : κ) (seconds : Float) : Loop κ :=
  if Number.le (.float seconds) 0 then l.giveWay task code (.ok .null) else l.sleep task code seconds

/-- Deadlines closer than this to the present have passed. -/
def resolution : Float := 1e-9

/-- A deadline lies in the future. -/
def isLater (l : Loop κ) (t : Timer) : Bool :=
  Number.le (.float (l.now + resolution)) (.float t.deadline)

/-- Queues the timers that are due; there are at most `fuel`. -/
def collectDue (l : Loop κ) : Nat → Loop κ
  | 0 => l
  | fuel + 1 =>
    match l.timers.first? with
    | none => l
    | some t =>
      if l.isLater t then l
      else { l.enqueue (.ring t.promise) with timers := l.timers.dropFirst }.collectDue fuel

/-- Lets time jump to the first deadline if no job has arrived. -/
def jump (l : Loop κ) : Loop κ :=
  match l.arrivals, l.timers.first? with
  | [], some t => if Number.lt (.float l.now) (.float t.deadline) then { l with now := t.deadline } else l
  | _, _ => l

/-- Starts a turn after the last one is over. -/
def startTurn (l : Loop κ) : Loop κ :=
  let l := l.jump
  let l := l.collectDue l.timers.entries.size
  { l with turn := l.arrivals.reverse, arrivals := [] }

/-- What the loop does next. -/
inductive Event (κ : Type) where
  /-- A task goes on. -/
  | resume (task : Nat) (code : κ) (outcome : Outcome) (loop : Loop κ)
  /-- The loop did something by itself. -/
  | internal (loop : Loop κ)
  /-- There is nothing left to do. -/
  | idle (loop : Loop κ)

/-- Takes the next job of the current turn, or starts a turn. -/
def next (l : Loop κ) : Event κ :=
  match l.turn with
  | job :: turn =>
    let l := { l with turn }
    match job with
    | .ring p => .internal (l.settle p (.ok .null))
    | .wake task outcome =>
      match (l.promise task).parked? with
      | some code => .resume task code outcome (l.modify task fun p => { p with parked? := none })
      | none => .internal l
  | [] =>
    let l := l.startTurn
    if l.turn.isEmpty then .idle l else .internal l

end Loop

end ScopeExit
