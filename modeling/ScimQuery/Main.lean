import ScimQuery.CommandLine.Run

/-! # The program

Runs the command line that the program is called with. -/

namespace ScimQuery
namespace CommandLine

/-- What stands at the place of a file. -/
def look (file : String) : IO Location := do
  match ← (IO.FS.readFile file).toBaseIO with
  | .ok text => pure (.file text)
  | .error (.noFileOrDirectory ..) => pure .missing
  | .error (.inappropriateType ..) => pure .directory
  | .error e => throw e

/-- The outcome of a run, which may have to read a file. -/
def outcomeOf : Run → IO Outcome
  | .finished outcome => pure outcome
  | .reading file next => do return next (← look file)

end CommandLine
end ScimQuery

/-- Runs the command line that the program is called with. -/
def main (words : List String) : IO UInt32 := do
  let outcome ← ScimQuery.CommandLine.outcomeOf (ScimQuery.CommandLine.start words)
  IO.print outcome.output
  IO.eprint outcome.complaint
  pure outcome.status.toUInt32
