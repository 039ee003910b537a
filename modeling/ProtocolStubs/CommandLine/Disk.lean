import ProtocolStubs.FileTree.Access

set_option autoImplicit false

namespace ProtocolStubs.CommandLine

def faultOf : IO.Error → Fault
  | .noFileOrDirectory _ _ _ => .missing
  | e => .other (toString e)

def attempt {α : Type} (action : IO α) : IO (Except Fault α) := do
  try
    return .ok (← action)
  catch e =>
    return .error (faultOf e)

def isDirectory (path : String) : IO Bool := do
  match ← attempt (IO.FS.realPath path) with
  | .ok resolved => resolved.isDir
  | .error _ => return false

def holds (path : String) : IO Bool := do
  match ← attempt (IO.FS.realPath path) with
  | .ok resolved => resolved.pathExists
  | .error _ => return false

-- If the path does not lead to the directory any more, nothing is left to remove.
def removeAll (path : String) : IO (Except Fault Unit) := do
  if ← isDirectory path then
    match ← attempt (IO.FS.removeDirAll path) with
    | .error .missing => return .ok ()
    | result => return result
  else return .error .notDirectory

def disk : FileAccess IO where
  holds := holds
  isDirectory := isDirectory
  makeDirectory path := attempt (IO.FS.createDir path)
  removeAll := removeAll
  write path text := attempt (IO.FS.writeFile path text)
  readText path := attempt (IO.FS.readFile path)

end ProtocolStubs.CommandLine
