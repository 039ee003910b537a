import ProtocolStubs.Text.Lines
import ProtocolStubs.Text.Split

set_option autoImplicit false

namespace ProtocolStubs.Path

def limit : Nat := 4096

def parts (path : String) : List String := Text.split '/' path

def isAbsolute (path : String) : Bool := Text.startsWith path '/'

def isName (part : String) : Bool := part ≠ "" && part ≠ "." && part ≠ ".."

def hasName (path : String) : Bool := (parts path).any isName

-- The second path seen from the first. An absolute path is the same from everywhere.
def join (base path : String) : String :=
  if isAbsolute path then path
  else if base = "" ∨ Text.endsWith base '/' then base ++ path
  else base ++ "/" ++ path

-- Drops trailing parts that say nothing; parts stand last first. Empty parts and dots say nothing,
-- except that a dot may be all there is at the start, and that an empty first part means the root.
def significant : List String → List String
  | [] => []
  | [first] => [first]
  | last :: next :: rest =>
    if last = "" ∨ last = "." then significant (next :: rest) else last :: next :: rest

def ofReversed : List String → String
  | [""] => "/"
  | reversed => Text.joinWith "/" reversed.reverse

-- The path without its last significant part. Neither the root nor the empty path has a parent.
def parent? (path : String) : Option String :=
  match significant (parts path).reverse with
  | [] => none
  | [""] => none
  | _ :: rest => some (ofReversed (significant rest))

-- The proper ancestors, nearest first, as far as they name anything; parts stand last first.
def ancestorsOf : List String → List String
  | [] => []
  | last :: rest =>
    if rest ≠ [] ∧ (last = "" ∨ last = ".") then ancestorsOf rest
    else
      match significant rest with
      | [] => []
      | [""] => []
      | above => ofReversed above :: ancestorsOf rest

def ancestors (path : String) : List String := ancestorsOf (parts path).reverse

end ProtocolStubs.Path
