import TaskStack.CommandLine.Program

/-!
# The program

Reads its arguments and its environment, and writes what the command line makes of them. No
transport comes with it, so nothing answers at the address of the registry.
-/

open TaskStack.CommandLine

def main (arguments : List String) : IO UInt32 := do
  let address := (← IO.getEnv "REGISTRY_URL").getD "http://localhost:8080"
  let env : Environment := ⟨← IO.getEnv "TASK_ROLE", ⟨address, .unreachable⟩⟩
  let (outcome, _) := program env arguments
  IO.print outcome.output
  match outcome.ending with
  | .fine => pure ()
  | .misuse => IO.eprint Help.overview
  | .failure message => IO.eprintln ("Error: " ++ message)
  | .panic text => IO.eprintln ("panic: " ++ text)
  return outcome.ending.exitCode.toUInt32
