import ProtocolStubs.CommandLine.Disk
import ProtocolStubs.CommandLine.Run

set_option autoImplicit false

open ProtocolStubs

-- The workspace is the directory above the one that the environment names as the task's own, or else
-- the working directory.
def workspaceRoot : IO String := do
  match ← IO.getEnv "CARGO_MANIFEST_DIR" with
  | some directory =>
    match Path.parent? directory with
    | some root => return root
    | none => throw (.userError "xtask manifest directory has no parent")
  | none => return toString (← IO.currentDir)

def main (arguments : List String) : IO UInt32 := do
  try
    let root ← workspaceRoot
    match ← (CommandLine.run CommandLine.disk root arguments).run with
    | .ok () => return 0
    | .error e =>
      IO.eprintln e.report
      return e.exitCode
  catch e =>
    IO.eprintln ("Error: " ++ toString e)
    return 1
