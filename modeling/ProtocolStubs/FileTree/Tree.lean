import ProtocolStubs.FileTree.Fault
import ProtocolStubs.FileTree.Path

set_option autoImplicit false

namespace ProtocolStubs

inductive Node where
  | directory
  | file (contents : ByteArray)

instance : DecidableEq Node
  | .directory, .directory => isTrue rfl
  | .directory, .file _ => isFalse Node.noConfusion
  | .file _, .directory => isFalse Node.noConfusion
  | .file ⟨a⟩, .file ⟨b⟩ =>
    if same : a.toList = b.toList then isTrue (by rw [Array.toList_inj.1 same])
    else isFalse fun equal => same (by cases equal; rfl)

abbrev Location := List String

-- A place to stand at, of whose location the last `lost` names have been removed since. A working
-- directory that was removed stays where it was, so that two dots still lead back from it, but holds
-- nothing any more, even if a directory of its name is made again.
structure Standpoint where
  location : Location
  lost : Nat := 0
deriving DecidableEq, Repr

namespace Standpoint

def above (s : Standpoint) : Standpoint := ⟨s.location.dropLast, s.lost - 1⟩

def firm (s : Standpoint) : Location := s.location.take (s.location.length - s.lost)

def keeping (s : Standpoint) (n : Nat) : Standpoint := { s with lost := s.location.length - n }

end Standpoint

structure FileTree where
  nodes : List (Location × Node)
  here : Standpoint
deriving DecidableEq

namespace FileTree

def node? (t : FileTree) (spot : Location) : Option Node :=
  if spot = [] then some .directory else t.nodes.lookup spot

def isDirectoryAt (t : FileTree) (spot : Location) : Bool := t.node? spot == some .directory

def add (t : FileTree) (spot : Location) (node : Node) : FileTree :=
  { t with nodes := (t.nodes.filter fun entry => entry.1 ≠ spot) ++ [(spot, node)] }

def isBelow (top spot : Location) : Bool := top.isPrefixOf spot && spot ≠ top

def clear (t : FileTree) (top : Location) : FileTree where
  nodes := t.nodes.filter fun entry => !isBelow top entry.1
  here := if isBelow top t.here.firm then t.here.keeping top.length else t.here

def remove (t : FileTree) (spot : Location) : FileTree where
  nodes := t.nodes.filter fun entry => entry.1 ≠ spot
  here := if spot.isPrefixOf t.here.firm then t.here.keeping (spot.length - 1) else t.here

def checkName (name : String) : Except Fault Unit :=
  if name.toList.contains '\x00' then .error .invalid
  else if 255 < name.utf8ByteSize then .error .nameTooLong
  else .ok ()

def enter (t : FileTree) (s : Standpoint) : Except Fault Unit :=
  if s.lost = 0 then
    match t.node? s.location with
    | some .directory => .ok ()
    | some (.file _) => .error .notDirectory
    | none => .error .missing
  else .ok ()

-- Whatever another part follows has to be a directory, and two dots lead back to the directory above,
-- so that the directory before them has to exist.
def walk (t : FileTree) (s : Standpoint) : List String → Except Fault Standpoint
  | [] => if s.lost = 0 && (t.node? s.location).isNone then .error .missing else .ok s
  | part :: rest => do
    t.enter s
    if part = "" ∨ part = "." then walk t s rest
    else if part = ".." then walk t s.above rest
    else if s.lost = 0 then
      checkName part
      walk t ⟨s.location ++ [part], 0⟩ rest
    else throw .missing

def origin (t : FileTree) (path : String) : Standpoint :=
  if Path.isAbsolute path then ⟨[], 0⟩ else t.here

def checkPath (path : String) : Except Fault Unit :=
  if path = "" then .error .missing
  else if path.toList.contains '\x00' then .error .invalid
  else if Path.limit ≤ path.utf8ByteSize then .error .nameTooLong
  else .ok ()

def find (t : FileTree) (path : String) : Except Fault Standpoint := do
  checkPath path
  t.walk (t.origin path) (Path.parts path)

def dropSlashes : List String → List String
  | "" :: next :: rest => dropSlashes (next :: rest)
  | reversed => reversed

-- The place that a path names, whether or not anything is there: its directory has to exist. With
-- `none` for the name, the path ends in dots or names the root, and the place is taken.
def place (t : FileTree) (path : String) : Except Fault (Location × Option String) := do
  checkPath path
  match dropSlashes (Path.parts path).reverse with
  | [] => throw .missing
  | last :: above =>
    let directory ← t.walk (t.origin path) above.reverse
    t.enter directory
    if Path.isName last then
      if directory.lost ≠ 0 then throw .missing
      checkName last
      return (directory.location, some last)
    else return (directory.location, none)

def isDirectory (t : FileTree) (path : String) : Bool :=
  match t.find path with
  | .ok s => s.lost ≠ 0 || t.isDirectoryAt s.location
  | .error _ => false

def holds (t : FileTree) (path : String) : Bool := (t.find path).toBool

def makeDirectory (t : FileTree) (path : String) : FileTree × Except Fault Unit :=
  match t.place path with
  | .error fault => (t, .error fault)
  | .ok (_, none) => (t, .error .present)
  | .ok (directory, some name) =>
    let spot := directory ++ [name]
    if (t.node? spot).isSome then (t, .error .present) else (t.add spot .directory, .ok ())

def removeEmpty (t : FileTree) (path : String) : FileTree × Except Fault Unit :=
  match t.place path with
  | .error fault => (t, .error fault)
  | .ok (_, none) => (t, .error .invalid)
  | .ok (directory, some name) => (t.remove (directory ++ [name]), .ok ())

-- Removes a directory with all that it holds: first its contents, then, again by its path, the
-- directory itself. If its path does not lead to it any more, there is nothing left to do.
def removeAll (t : FileTree) (path : String) : FileTree × Except Fault Unit :=
  match t.find path with
  | .error fault => (t, .error fault)
  | .ok s =>
    if s.lost ≠ 0 then (t, .error .invalid)
    else if t.isDirectoryAt s.location then
      match (t.clear s.location).removeEmpty path with
      | (t, .error .missing) => (t, .ok ())
      | done => done
    else (t, .error .notDirectory)

def write (t : FileTree) (path : String) (contents : ByteArray) : FileTree × Except Fault Unit :=
  if Text.endsWith path '/' then (t, .error .isDirectory)
  else
    match t.place path with
    | .error fault => (t, .error fault)
    | .ok (_, none) => (t, .error .isDirectory)
    | .ok (directory, some name) =>
      let spot := directory ++ [name]
      if t.isDirectoryAt spot then (t, .error .isDirectory) else (t.add spot (.file contents), .ok ())

def read (t : FileTree) (path : String) : Except Fault ByteArray := do
  let s ← t.find path
  if s.lost ≠ 0 then throw .isDirectory
  match t.node? s.location with
  | some (.file contents) => return contents
  | some .directory => throw .isDirectory
  | none => throw .missing

def readText (t : FileTree) (path : String) : Except Fault String := do
  match String.fromUTF8? (← t.read path) with
  | some text => return text
  | none => throw .notText

def precedes : Location → Location → Bool
  | [], _ => true
  | _ :: _, [] => false
  | a :: rest, b :: further => if a = b then precedes rest further else a < b

-- What a place holds: each name in its directory's order, a directory before its contents.
def listing (t : FileTree) (s : Standpoint) : List (Location × Node) :=
  let top := s.location
  if s.lost ≠ 0 then []
  else
    ((t.nodes.filter fun entry => isBelow top entry.1).map fun entry =>
      (entry.1.drop top.length, entry.2)).mergeSort fun a b => precedes a.1 b.1

end FileTree

end ProtocolStubs
