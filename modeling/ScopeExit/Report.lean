import ScopeExit.Number.Arithmetic
import ScopeExit.Number.Fixed
import ScopeExit.Text
/-!
The statistics of a run as a report.

Times are shown with one decimal place.
-/
namespace ScopeExit

/-- Sizes, counts and times of the stages of a run.  Times are in milliseconds. -/
structure PipelineStats where
  sourceBytes : Int := 0
  sourceLines : Int := 0
  language : Text := ""
  parseTime : Float := 0
  lowerTime : Float := 0
  validateTime : Float := 0
  executionTime : Float := 0
  totalTime : Float := 0
  nodeCount : Int := 0
  deferCount : Int := 0
  statements : Int := 0
  drains : Int := 0
  actionsExecuted : Int := 0
  actionFailures : Int := 0

namespace PipelineStats

/-- A text with spaces in front until it has `width` code points. -/
def rightAligned (width : Nat) (t : Text) : Text :=
  Text.ofChars (List.replicate (width - t.length) ' ') ++ t

/-- A text with spaces behind it until it has `width` code points. -/
def leftAligned (width : Nat) (t : Text) : Text :=
  t ++ Text.ofChars (List.replicate (width - t.length) ' ')

/-- A duration in seconds, in milliseconds. -/
def milliseconds : Number → Except NumberError Float
  | .int n => Number.floatOfInt (n * 1000)
  | .float x => .ok (x * 1000)

/-- A time, eight columns wide or more. -/
def timeText (time : Float) : Text := rightAligned 8 (Number.fixed 1 time) ++ "ms"

/-- The rule below the head of the table and above its last line. -/
def rule : Text :=
  let line (n : Nat) := Text.ofChars (List.replicate n '─')
  Text.concat ["  ", line 20, " ", line 10, "  ", line 30]

/-- A row of the table. -/
def row (name : Text) (time output : Text) : Text :=
  Text.concat ["  ", leftAligned 20 name, " ", rightAligned 10 time, "  ", rightAligned 30 output]

/-- Two counts with their nouns. -/
def counts (a : Int) (what : Text) (b : Int) (what' : Text) : Text :=
  Text.concat [Text.ofInt a, " ", what, ", ", Text.ofInt b, " ", what']

/-- The report, line by line. -/
def report (s : PipelineStats) : Text :=
  Text.join "\n" [
    "═══ Pipeline Statistics ═══",
    Text.concat ["  Source: ", counts s.sourceLines "lines" s.sourceBytes "bytes (",
      s.language, ")"],
    "",
    row "Stage" "Time" "Output",
    rule,
    row "Parse" (timeText s.parseTime) "",
    row "Lower (frontend)" (timeText s.lowerTime)
      (counts s.nodeCount "IR nodes" s.deferCount "defers"),
    row "Validate" (timeText s.validateTime) "",
    row "Execute" (timeText s.executionTime)
      (counts s.statements "statements" s.drains "drains"),
    rule,
    Text.concat ["  ", leftAligned 20 "Total", " ", timeText s.totalTime],
    "",
    Text.concat ["  Deferred actions: ",
      counts s.actionsExecuted "executed" s.actionFailures "failed"]]

end PipelineStats

end ScopeExit
