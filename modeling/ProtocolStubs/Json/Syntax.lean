import ProtocolStubs.Json.Basic
import ProtocolStubs.Json.Token

set_option autoImplicit false

namespace ProtocolStubs.Json

inductive KeyState where
  | none
  | named (key : String)
  | awaiting (key : String)
deriving DecidableEq, Repr

-- An open container with what it holds so far, last first; `comma` says that one has just been
-- read.
inductive OpenContainer where
  | list (items : List (Json Literal)) (comma : Bool)
  | object (members : Members Literal) (key : KeyState) (comma : Bool)

-- The open containers, innermost first, and the whole value once it has been read.
structure Reading where
  containers : List OpenContainer
  whole : Option (Json Literal)

def Reading.start : Reading := ⟨[], none⟩

def Reading.put? (r : Reading) (value : Json Literal) : Option Reading :=
  match r.containers with
  | [] => if r.whole.isNone then some ⟨[], some value⟩ else none
  | .list items _ :: outer => some { r with containers := .list (value :: items) false :: outer }
  | .object members (.awaiting key) _ :: outer =>
    some { r with containers := .object ((key, value) :: members) .none false :: outer }
  | .object _ _ _ :: _ => none

def Reading.enter? (r : Reading) (container : OpenContainer) : Option Reading :=
  let entered : Reading := { r with containers := container :: r.containers }
  match r.containers with
  | [] => if r.whole.isNone then some entered else none
  | .list _ _ :: _ => some entered
  | .object _ (.awaiting _) _ :: _ => some entered
  | .object _ _ _ :: _ => none

-- Each token acts on the innermost open container. Between two elements the comma may be missing and
-- after the last one it may stand, but an empty slot before a comma is refused.
def Reading.step? (r : Reading) : Token → Option Reading
  | .openList => r.enter? (.list [] false)
  | .openObject => r.enter? (.object [] .none false)
  | .closeList =>
    match r.containers with
    | .list items _ :: outer => Reading.put? { r with containers := outer } (.list items.reverse)
    | _ => none
  | .closeObject =>
    match r.containers with
    | .object members .none _ :: outer =>
      Reading.put? { r with containers := outer } (.object members.reverse)
    | _ => none
  | .comma =>
    match r.containers with
    | .list (item :: items) false :: outer =>
      some { r with containers := .list (item :: items) true :: outer }
    | .object (member :: members) .none false :: outer =>
      some { r with containers := .object (member :: members) .none true :: outer }
    | _ => none
  | .colon =>
    match r.containers with
    | .object members (.named key) comma :: outer =>
      some { r with containers := .object members (.awaiting key) comma :: outer }
    | _ => none
  | .text s =>
    match r.containers with
    | .object members .none comma :: outer =>
      some { r with containers := .object members (.named s) comma :: outer }
    | _ => r.put? (.text s)
  | .null => r.put? .null
  | .flag b => r.put? (.flag b)
  | .number n => r.put? (.number n)

def ofTokens? (tokens : List Token) : Option (Json Literal) := do
  let r ← tokens.foldlM Reading.step? .start
  if r.containers.isEmpty then r.whole else none

def read? (s : String) : Option (Json Literal) := tokens? s >>= ofTokens?

end ProtocolStubs.Json
