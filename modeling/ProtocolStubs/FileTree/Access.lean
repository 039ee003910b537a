import ProtocolStubs.FileTree.Tree

set_option autoImplicit false

namespace ProtocolStubs

structure FileAccess (m : Type → Type) where
  holds : String → m Bool
  isDirectory : String → m Bool
  makeDirectory : String → m (Except Fault Unit)
  removeAll : String → m (Except Fault Unit)
  write : String → String → m (Except Fault Unit)
  readText : String → m (Except Fault String)

namespace FileTree

def changing (change : FileTree → FileTree × Except Fault Unit) :
    StateM FileTree (Except Fault Unit) :=
  fun t => let (after, result) := change t; (result, after)

def access : FileAccess (StateM FileTree) where
  holds path := fun t => (t.holds path, t)
  isDirectory path := fun t => (t.isDirectory path, t)
  makeDirectory path := changing fun t => t.makeDirectory path
  removeAll path := changing fun t => t.removeAll path
  write path text := changing fun t => t.write path text.toUTF8
  readText path := fun t => (t.readText path, t)

end FileTree

namespace FileAccess

variable {m : Type → Type} [Monad m]

-- A directory that is there already is as good as one just made.
def settle (files : FileAccess m) (path : String) (fault : Fault) : m (Except Fault Unit) := do
  return if ← files.isDirectory path then .ok () else .error fault

-- Makes a directory; where something is missing, its ancestors first, nearest first.
def makeWith (files : FileAccess m) (path : String) : List String → m (Except Fault Unit)
  | [] => do
    match ← files.makeDirectory path with
    | .ok () => return .ok ()
    | .error fault => files.settle path fault
  | above :: further => do
    match ← files.makeDirectory path with
    | .ok () => return .ok ()
    | .error .missing =>
      match ← files.makeWith above further with
      | .error fault => return .error fault
      | .ok () =>
        match ← files.makeDirectory path with
        | .ok () => return .ok ()
        | .error fault => files.settle path fault
    | .error fault => files.settle path fault

def makeDirectories (files : FileAccess m) (path : String) : m (Except Fault Unit) :=
  if path = "" then return .ok () else files.makeWith path (Path.ancestors path)

end FileAccess

end ProtocolStubs
