import ScopeExit.Script.Run
/-!
How the frames of a stack stand on each other.

Most frames stand on code: they wait for what is above them and go on with what is below.  The others
come in groups.  The body of a call ends, meets its boundary and ends the call; the body of a generator
ends and meets the boundary of the step; the body of a task ends and meets the event loop; and an action
of a drain runs above a boundary of its own.  `Open` describes the stacks that code may run on, and
`Stands` adds those that are left while a group is taken off, frame by frame.

Every body on a stack was entered in one of three ways, by a call, by a step of a generator, or by the
task that the stack belongs to.  So there are as many bodies as calls, steps and tasks together.
-/
namespace ScopeExit.Script

/-! ### Counts -/

/-- The end of a call. -/
def Frame.isCallEnd : Frame → Bool
  | .callEnd => true
  | _ => false

/-- The end of a body: a function's, a generator's, or that of the module. -/
def Frame.isBodyEnd : Frame → Bool
  | .activationEnd _ => true
  | _ => false

/-- The end of the step of a generator. -/
def Frame.isStepEnd : Frame → Bool
  | .generatorBoundary _ => true
  | _ => false

/-- The end of a task, or of the program. -/
def Frame.isBottom : Frame → Bool
  | .taskEnd _ | .programEnd => true
  | _ => false

/-- Frames that stand on code and belong to no group. -/
def Frame.isPlain : Frame → Bool
  | .activationEnd _ | .callEnd | .syncBoundary | .asyncStart | .asyncDrive | .generatorBoundary _
  | .taskStart _ | .nap _ | .taskEnd _ | .programEnd => false
  | _ => true

namespace Stack

/-- How many calls are in progress on a stack. -/
def calls (stack : Stack) : Nat := stack.countP Frame.isCallEnd

/-- How many bodies are on a stack. -/
def bodies (stack : Stack) : Nat := stack.countP Frame.isBodyEnd

/-- How many steps of generators are in progress on a stack. -/
def steps (stack : Stack) : Nat := stack.countP Frame.isStepEnd

section Counts

variable {f : Frame} (upper stack : Stack)

@[simp] theorem calls_nil : calls [] = 0 := rfl

@[simp] theorem calls_append : calls (upper ++ stack) = upper.calls + stack.calls :=
  List.countP_append ..

theorem calls_cons : calls (f :: stack) = stack.calls + if f.isCallEnd = true then 1 else 0 :=
  List.countP_cons

theorem bodies_cons : bodies (f :: stack) = stack.bodies + if f.isBodyEnd = true then 1 else 0 :=
  List.countP_cons

theorem steps_cons : steps (f :: stack) = stack.steps + if f.isStepEnd = true then 1 else 0 :=
  List.countP_cons

theorem calls_plain (plain : f.isPlain = true) : calls (f :: stack) = stack.calls := by
  cases f <;> first | contradiction | rfl

/-- No call ends in frames that belong to no group. -/
theorem calls_frames {upper : Stack} (plain : ∀ f ∈ upper, f.isPlain = true) : calls upper = 0 := by
  induction upper with
  | nil => rfl
  | cons f upper ih =>
    rw [calls_plain _ (plain f (by simp))]
    exact ih fun f hf => plain f (List.mem_cons_of_mem _ hf)

theorem bodies_plain (plain : f.isPlain = true) : bodies (f :: stack) = stack.bodies := by
  cases f <;> first | contradiction | rfl

theorem steps_plain (plain : f.isPlain = true) : steps (f :: stack) = stack.steps := by
  cases f <;> first | contradiction | rfl

end Counts

/-! ### Stacks that code runs on -/

/-- Code may run on the stack. -/
inductive Open : Stack → Prop
  | frame {f : Frame} {stack : Stack} (plain : f.isPlain = true) (rest : Open stack) : Open (f :: stack)
  | action {b : Frame} {a : Nat} {d : Drain} {stack : Stack} (hb : b = .syncBoundary ∨ b = .asyncDrive)
      (rest : Open stack) : Open (b :: .draining a d :: stack)
  | call {a : Nat} {b : Frame} {stack : Stack} (hb : b = .syncBoundary ∨ b = .asyncStart)
      (rest : Open stack) : Open (.activationEnd a :: b :: .callEnd :: stack)
  | step {a g : Nat} {stack : Stack} (rest : Open stack) :
      Open (.activationEnd a :: .generatorBoundary g :: stack)
  | task {a : Nat} {f : Frame} (bottom : f.isBottom = true) : Open [.activationEnd a, .asyncDrive, f]

/-- A stack at any moment: one that code may run on, what is left of a group on top of one, or the code
of a task that has not taken its first step. -/
inductive Stands : Stack → Prop
  | code {stack : Stack} (h : Open stack) : Stands stack
  | start {request : Request} {stack : Stack} (rest : Open stack) : Stands (.taskStart request :: stack)
  | boundary {b : Frame} {stack : Stack} (hb : b = .syncBoundary ∨ b = .asyncStart) (rest : Open stack) :
      Stands (b :: .callEnd :: stack)
  | callEnd {stack : Stack} (rest : Open stack) : Stands (.callEnd :: stack)
  | generator {g : Nat} {stack : Stack} (rest : Open stack) : Stands (.generatorBoundary g :: stack)
  | drive {f : Frame} (bottom : f.isBottom = true) : Stands [.asyncDrive, f]
  | bottom {f : Frame} (bottom : f.isBottom = true) : Stands [f]
  | nap {seconds : Float} {p : Nat} : Stands [.nap seconds, .taskEnd p]
  | empty : Stands []

/-- Every body was entered by a call, by a step of a generator, or by the task. -/
theorem Open.bodies_eq {stack : Stack} (h : Open stack) :
    stack.bodies = stack.calls + stack.steps + 1 := by
  induction h with
  | frame plain rest ih => rw [bodies_plain _ plain, calls_plain _ plain, steps_plain _ plain, ih]
  | action hb rest ih => rcases hb with rfl | rfl <;> exact ih
  | @call a b stack hb rest ih =>
    have hbodies : bodies (.activationEnd a :: b :: .callEnd :: stack) = stack.bodies + 1 := by
      rcases hb with rfl | rfl <;> simp [bodies_cons, Frame.isBodyEnd]
    have hcalls : calls (.activationEnd a :: b :: .callEnd :: stack) = stack.calls + 1 := by
      rcases hb with rfl | rfl <;> simp [calls_cons, Frame.isCallEnd]
    have hsteps : steps (.activationEnd a :: b :: .callEnd :: stack) = stack.steps := by
      rcases hb with rfl | rfl <;> simp [steps_cons, Frame.isStepEnd]
    omega
  | step rest ih =>
    simp only [bodies_cons, calls_cons, steps_cons, Frame.isBodyEnd, Frame.isCallEnd, Frame.isStepEnd]
    simp
    omega
  | @task a f bottom => cases f <;> first | contradiction | rfl

theorem Stands.bodies_le {stack : Stack} (h : Stands stack) :
    stack.bodies ≤ stack.calls + stack.steps + 1 := by
  cases h with
  | code h => exact Nat.le_of_eq h.bodies_eq
  | @boundary b stack hb rest =>
    have hrest := rest.bodies_eq
    rcases hb with rfl | rfl <;>
      simp [bodies_cons, calls_cons, steps_cons, Frame.isBodyEnd, Frame.isCallEnd, Frame.isStepEnd] <;>
      omega
  | start rest | callEnd rest | generator rest =>
    have hrest := rest.bodies_eq
    simp [bodies_cons, calls_cons, steps_cons, Frame.isBodyEnd, Frame.isCallEnd, Frame.isStepEnd]
    omega
  | @drive f bottom | @bottom f bottom =>
    cases f <;> first | contradiction | exact Nat.zero_le _
  | nap | empty => exact Nat.zero_le _

end Stack

end ScopeExit.Script
