import JsoniqLexer.Cli.Run

/-!
# The program

Hands the command line and the surroundings of the process to `Cli.run`, and writes its answer.
-/

set_option autoImplicit false

namespace JsoniqLexer

/-- The reason of a failed reading, in the words of the operating system. -/
def reasonOf (e : IO.Error) : String :=
  match e with
  | .noFileOrDirectory _ code details => s!"{details} (os error {code})"
  | .inappropriateType _ code details => s!"{details} (os error {code})"
  | .permissionDenied _ code details => s!"{details} (os error {code})"
  | e => toString e

/-- A reading whose failure is a value. -/
def attempt (action : IO ByteArray) : IO (Except String ByteArray) := do
  match ← action.toBaseIO with
  | .ok bytes => pure (.ok bytes)
  | .error e => pure (.error (reasonOf e))

/-- The surroundings of the process. -/
def processHost : Cli.Host IO where
  readFile path := attempt (IO.FS.readBinFile (String.ofList path))
  readInput := attempt do (← IO.getStdin).readBinToEnd
  isTerminal := do (← IO.getStdout).isTty

end JsoniqLexer

open JsoniqLexer in
/-- Answers the command line. -/
def main (args : List String) : IO UInt32 := do
  let outcome ← Cli.run processHost (args.map String.toList)
  IO.print (String.ofList outcome.stdout)
  IO.eprint (String.ofList outcome.stderr)
  pure outcome.exitCode.toUInt32
