import ScopeExit.Engine.Action
import ScopeExit.Engine.Arena
/-!
The registry of one activation: its live frames and their deferred actions.

Frames are strictly nested.  A handle names a frame by its depth and by an identity that no other
frame of the activation ever gets, so a handle of a frame that is gone is recognised.  Only the
innermost frame may be left, drained or given actions, through a handle of its own depth.  An
operation that is refused gives the failure and leaves the registry as it was.
-/
namespace ScopeExit

/-- The live frames of an activation, outermost first, and its arena. -/
structure Registry (β : Type) where
  /-- The name of the activation. -/
  name : Text
  arena : Arena (Action β) := .empty
  frames : List ScopeFrame := []
  /-- The identity of the next frame. -/
  nextId : Nat := 0

instance {β : Type} : Inhabited (Registry β) := ⟨{ name := "" }⟩


namespace Registry

variable {β : Type}

/-! ### Queries -/

/-- The number of live frames. -/
def depth (r : Registry β) : Nat := r.frames.length

/-- The live frame that a handle names. -/
def frame (r : Registry β) (h : FrameHandle) : Except Failure ScopeFrame :=
  if h.depth < -(r.frames.length : Int) then .error (.host .index)
  else
    match signedGet? r.frames h.depth with
    | some f => if (f.id : Int) = h.frame then .ok f else .error (.engine (.staleHandle h.frame))
    | none => .error (.engine (.staleHandle h.frame))

/-- The frame that a handle names, provided that it is the innermost one. -/
def innermostFrame (r : Registry β) (h : FrameHandle) (verb : FrameVerb) :
    Except Failure ScopeFrame := do
  let f ← r.frame h
  if h.depth + 1 = r.frames.length then pure f
  else throw (.engine (.notInnermost verb f.id f.kind))

/-- The number of actions of a live frame: those between its mark and the mark of the next inner
frame, or the end of the arena. -/
def pending (r : Registry β) (h : FrameHandle) : Except Failure Int := do
  let f ← r.frame h
  match signedGet? r.frames (h.depth + 1) with
  | some inner => pure ((inner.mark : Int) - f.mark)
  | none => pure ((r.arena.size : Int) - f.mark)

/-- The actions of a live frame in the order of their registration. -/
def pendingActions (r : Registry β) (h : FrameHandle) : Except Failure (List (Action β)) := do
  let f ← r.frame h
  let n ← r.pending h
  pure (takeSigned n (r.arena.above f.mark))

/-- An asynchronous action was registered in the frame. -/
def hasAsyncActions (r : Registry β) (h : FrameHandle) : Except Failure Bool := do
  let f ← r.frame h
  pure (f.asyncActions > 0)

/-- The handle of the innermost frame. -/
def innermost? (r : Registry β) : Option FrameHandle :=
  r.frames.getLast?.map fun f => ⟨f.id, r.frames.length - 1⟩

/-- The frame at the depth of a handle and those around it, innermost first. -/
def lineage (r : Registry β) (h : FrameHandle) : List ScopeFrame :=
  (takeSigned (h.depth + 1) r.frames).reverse

/-! ### The life of a frame -/

/-- Enters a frame inside the innermost one. -/
def enter (r : Registry β) (kind : FrameKind) (isAsync : Bool) (span : Span) :
    FrameHandle × Registry β :=
  let f : ScopeFrame :=
    { id := r.nextId, kind, isAsync, mark := r.arena.size,
      parent := r.frames.getLast?.map ScopeFrame.id, span }
  (⟨r.nextId, r.frames.length⟩,
    { r with frames := r.frames ++ [f], nextId := r.nextId + 1 })

/-- Leaves the innermost frame, which must be drained or have no actions. -/
def exit (r : Registry β) (h : FrameHandle) : Except Failure (Registry β) := do
  let f ← r.innermostFrame h .exit
  let n ← r.pending h
  if !f.drained && n ≠ 0 then throw (.engine (.undrained f.id f.kind n))
  else pure { r with frames := r.frames.dropLast, arena := r.arena.truncate f.mark }

/-- Puts another frame in the place of a live one. -/
def setFrame (r : Registry β) (h : FrameHandle) (f : ScopeFrame) : Registry β :=
  { r with frames := r.frames.set (signedPosition r.frames h.depth) f }

/-- Registers an action in the innermost frame after checking that it may live there. -/
def register (r : Registry β) (h : FrameHandle) (a : Action β) :
    Except Failure (Registry β) :=
  match r.innermostFrame h .registerInto with
  | .error failure => .error failure
  | .ok f =>
    if f.drained || f.draining then .error (.engine (.notAccepting f.id f.kind))
    else if a.mode = .async && !f.isAsync then
      .error (.placement .deferAwaitOutsideAsync a.span)
    else if !a.transfers.isEmpty then .error (.placement (.escapes a.transfers) a.span)
    else
      let counted := { f with
        registered := f.registered + 1
        asyncActions := if a.mode = .async then f.asyncActions + 1 else f.asyncActions }
      .ok { r.setFrame h counted with arena := r.arena.push a }

/-! ### Draining -/

/-- Opens the drain of the innermost frame, which must not have been drained before. -/
def beginDrain (r : Registry β) (h : FrameHandle) : Except Failure (ScopeFrame × Registry β) := do
  let f ← r.innermostFrame h .drain
  if f.drained || f.draining then throw (.engine (.alreadyDrained f.id f.kind))
  else
    let f := { f with draining := true }
    pure (f, r.setFrame h f)

/-- Takes the most recent action above the mark of a frame that is draining. -/
def popAction (r : Registry β) (h : FrameHandle) :
    Except Failure (Option (Action β) × Registry β) := do
  let f ← r.frame h
  if !f.draining then throw (.engine (.notDraining f.id))
  else
    match r.arena.pop? f.mark with
    | none => pure (none, r)
    | some (a, arena) => pure (some a, { r with arena })

/-- Closes the drain of a live frame. -/
def finishDrain (r : Registry β) (h : FrameHandle) : Except Failure (Registry β) := do
  let f ← r.frame h
  pure (r.setFrame h { f with draining := false, drained := true })

end Registry

end ScopeExit
