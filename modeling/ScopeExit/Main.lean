import ScopeExit.CommandLine.Answer
/-!
The program: reads the arguments and the file, and prints the answer.
-/
namespace ScopeExit.Main

open CommandLine

/-- How to use the program. -/
def usage : String :=
  "usage: scopeexit [-h] [--language LANGUAGE] [--ir-only] [--check-only]\n" ++
  "                 [--no-top-level-await] [--trace] [--verbose] file\n"

/-- A text as a string; surrogates become replacement characters. -/
def printable (t : Text) : String :=
  String.ofList (t.codes.map fun c => c.toChar?.getD '\ufffd')

/-- The contents of a file, if it can be read. -/
def contents? (file : String) : IO (Option String) := do
  try return some (← IO.FS.readFile file) catch _ => return none

/-- Prints an answer and gives its status. -/
def printAnswer (a : Answer) : IO UInt32 := do
  IO.print (printable a.out)
  IO.eprint (printable a.errors)
  return a.status.toUInt32

/-- Does what the arguments ask for. -/
def serve (arguments : List String) : IO UInt32 := do
  match Request.ofStrings arguments with
  | .help =>
    IO.print usage
    return 0
  | .misuse =>
    IO.eprint usage
    return 2
  | .run file options =>
    match answer options (← contents? file) with
    | .ok a => printAnswer a
    | .error (.single (.host kind _)) =>
      IO.eprintln kind.name
      return 1
    | .error _ => return 1

end ScopeExit.Main

/-- The entry point. -/
def main (arguments : List String) : IO UInt32 := ScopeExit.Main.serve arguments
