import StorageEngine.CommandLine.Elapsed
import StorageEngine.CommandLine.Execution

/-!
# The program

Reads the table's file, executes the command line on its bytes, prints what that leads to, and
stores the file.
-/

namespace StorageEngine.CommandLine

/-- The bytes of a file, which is created empty if there is none. -/
def readTable (path : String) : IO (Array UInt8) := do
  IO.FS.withFile path .append fun _ => pure ()
  return (← IO.FS.readBinFile path).data

/-- Prints a line of output. -/
def printLine (nanos : Nat) : OutputLine → IO Unit
  | .text line => IO.println line
  | .elapsed => IO.println s!"Elapsed: {renderElapsed nanos}"

/-- Prints what an execution leads to, and answers its exit code. -/
def printExecution (nanos : Nat) (execution : Execution) : IO UInt32 := do
  for line in execution.output do
    printLine nanos line
  for line in execution.report do
    IO.eprintln line
  return execution.exitCode

/-- Carries out an invocation in its directory. -/
def carryOut (invocation : Invocation) : IO UInt32 := do
  IO.FS.createDirAll invocation.dir
  let path := s!"{invocation.dir}/{fileName}"
  let started ← IO.monoNanosNow
  let execution := execute invocation (← readTable path)
  IO.FS.writeBinFile path ⟨execution.file⟩
  let ended ← IO.monoNanosNow
  printExecution (ended - started) execution

end StorageEngine.CommandLine

open StorageEngine.CommandLine

/-- Runs the program. -/
def main (words : List String) : IO UInt32 := do
  match read words with
  | .ok invocation => carryOut invocation
  | .error halt => printExecution 0 (decline halt #[])
