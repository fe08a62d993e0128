import ScopeExit.CommandLine.Arguments
import ScopeExit.Pipeline
/-!
What the command line answers: a status and what it prints.

A program that ends with an uncaught failure gives status 1.  A program that is not accepted, or
that breaks a contract of the library, gives status 2 and one line that says why.  Failures of the
surroundings, such as a missing file, are no answers.
-/
namespace ScopeExit.CommandLine

/-- The status and the texts on both outputs. -/
structure Answer where
  status : Nat
  out : Text := ""
  errors : Text := ""

/-- Lines end with a line feed, however the file marks their ends. -/
def unifyLineEnds : List Char → List Char
  | '\r' :: '\n' :: rest => '\n' :: unifyLineEnds rest
  | '\r' :: rest => '\n' :: unifyLineEnds rest
  | c :: rest => c :: unifyLineEnds rest
  | [] => []

/-- Texts as lines. -/
def lines (ts : List Text) : Text := Text.concat (ts.flatMap fun t => [t, "\n"])

/-- A line about an exit. -/
def drainLine (r : DrainRecord) : Text :=
  Text.concat ["  [", r.activation, "] frame ", Text.ofNat r.frame, " (", r.kind.name, ", ",
    r.mode.name, "): ", r.pending.name, " -> ", r.outcome.name, ", ", Text.ofNat r.executed,
    " run, ", Text.ofNat r.failures, " failed"]

/-- A failure in the words of a script. -/
def failureText (h : Heap) (failure : Failure) : Conversion Text :=
  let (value, h) := h.failureValue failure
  h.text value

/-- A line about a failure that nobody has handled. -/
def failureLine (h : Heap) (head : Text) (failure : Failure) : Conversion Text := do
  pure (head ++ (← failureText h failure))

/-- What a finished run prints. -/
def Answer.ofFinished (options : Options) (finished : Script.Finished) :
    Except Failure Answer := do
  let w := finished.world
  let trace := if options.trace then Text.ofString "═══ Drains ═══" :: w.drains.toList.map drainLine
    else []
  let rejections ← w.rejections.mapM (failureLine w.heap "Unhandled rejection: ")
  let uncaught ← finished.uncaught?.toList.mapM (failureLine w.heap "Uncaught ")
  pure { status := if uncaught.isEmpty then 0 else 1, out := lines (w.output.toList ++ trace)
         errors := lines (rejections ++ uncaught) }

/-- The answer to a failure, after what has been printed before it. -/
def Answer.ofFailure (printed : Text) : Failure → Except Failure Answer
  | .single (.contract error) =>
    .ok { status := 2, out := printed, errors := lines ["error: " ++ error.message] }
  | failure => .error failure

/-- An answer, or the answer to a failure. -/
def orFailure (printed : Text) (r : Except Failure Answer) : Except Failure Answer :=
  match r with
  | .ok answer => .ok answer
  | .error failure => Answer.ofFailure printed failure

/-- Lists a program. -/
def listing (options : Options) (text : String) : Except Failure Answer := do
  match (← Node.ofText options.language text).dump with
  | .ok listing => pure { status := 0, out := lines [listing] }
  | .error e => throw (.ofNumberError e)

/-- Checks a program. -/
def checking (options : Options) (text : String) : Except Failure Answer := do
  let checked ← Pipeline.check options.language text options.topLevelAwait
  pure { status := 0
         out := lines [Text.concat ["OK: ", Text.ofNat checked.defers.length, " deferred actions"]] }

/-- The configuration of the run that the options ask for. -/
def Options.config (o : Options) : Script.Config :=
  { allowTopLevelAwait := o.topLevelAwait, recordTrace := o.trace }

/-- Runs a program that has been checked, after what has been printed of it. -/
def running (options : Options) (text : String) (checked : Pipeline.Checked) (printed : Text) :
    Except Failure Answer :=
  orFailure printed do
    let completed ← Pipeline.execute options.config options.language text checked
    let answer ← Answer.ofFinished options completed.finished
    let shown := if options.verbose then printed ++ Pipeline.after completed else printed
    pure { answer with out := shown ++ answer.out }

/-- Checks and runs a program. -/
def checkingAndRunning (options : Options) (text : String) : Except Failure Answer := do
  let checked ← Pipeline.check options.language text options.topLevelAwait
  let printed ← if options.verbose then Pipeline.before checked else pure .empty
  running options text checked printed

/-- The answer about a program text. -/
def answerText (options : Options) (text : String) : Except Failure Answer :=
  orFailure .empty <|
    if options.listOnly then listing options text
    else if options.checkOnly then checking options text
    else checkingAndRunning options text

/-- The answer about the contents of a file, if it exists. -/
def answer (options : Options) : Option String → Except Failure Answer
  | some contents => answerText options (String.ofList (unifyLineEnds contents.toList))
  | none => .error (Failure.host .missingFile)

end ScopeExit.CommandLine
