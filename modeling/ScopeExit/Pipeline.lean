import ScopeExit.Grammar.Program
import ScopeExit.Report
import ScopeExit.Script.Run
import ScopeExit.Tree.Listing
import ScopeExit.Tree.Placement
/-!
A program text on its way through all stages: reading, checking and running.

Each stage may end the way with a failure.  A failure of the script itself ends the run, not the
way: it is part of what a completed run shows.
-/
namespace ScopeExit.Pipeline

/-- A program whose deferred actions are in order. -/
structure Checked where
  program : Node
  /-- The deferred actions. -/
  defers : List Node

/-- Reads a program and checks its deferred actions. -/
def check (language : Language) (text : String) (allowTopLevelAwait : Bool) : Lowered Checked := do
  let program ← Node.ofText language text
  let defers ← program.validate allowTopLevelAwait
  pure { program, defers }

/-- A run with its statistics. -/
structure Completed where
  finished : Script.Finished
  stats : PipelineStats

/-- The number of lines of a text; the last one need not end with a line feed. -/
def lineCount (text : String) : Nat :=
  let chars := text.toList
  let feeds := chars.count '\n'
  match chars.getLast? with
  | some c => if c = '\n' then feeds else feeds + 1
  | none => feeds

/-- The statistics of a run. -/
def statsOf (language : Language) (text : String) (checked : Checked) (s : Script.Stats) :
    PipelineStats :=
  { sourceBytes := text.utf8ByteSize
    sourceLines := lineCount text
    language := language.name
    nodeCount := checked.program.walk.length
    deferCount := checked.defers.length
    statements := s.statements
    drains := s.drains
    actionsExecuted := s.actionsExecuted
    actionFailures := s.actionFailures }

/-- Runs a program that has been checked. -/
def execute (config : Script.Config) (language : Language) (text : String) (checked : Checked) :
    Except Failure Completed := do
  let finished ← Script.runToEnd config checked.program
  pure { finished, stats := statsOf language text checked finished.world.stats }

/-- What is shown of a program before it runs: its listing. -/
def before (checked : Checked) : Except Failure Text :=
  match checked.program.dump with
  | .ok listing => .ok (Text.concat ["═══ IR ═══\n", listing, "\n\n"])
  | .error e => .error (.ofNumberError e)

/-- What is shown of a program after it has run: its statistics. -/
def after (completed : Completed) : Text := Text.concat ["\n", completed.stats.report, "\n"]

end ScopeExit.Pipeline
