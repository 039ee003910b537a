import ProtocolStubs.FileTree.Access
import ProtocolStubs.Schema.Reading

set_option autoImplicit false

namespace ProtocolStubs

inductive SchemaError where
  | unreadable (path reason : String)
  | malformed (source reason : String)
deriving DecidableEq, Repr

namespace SchemaError

def lead : SchemaError → String
  | .unreadable path _ => "failed to read " ++ path ++ ": "
  | .malformed source _ => "failed to parse protocol schema " ++ source ++ ": "

def message : SchemaError → String
  | .unreadable path reason => lead (.unreadable path reason) ++ reason
  | .malformed source reason => lead (.malformed source reason) ++ reason

def causes : SchemaError → List String
  | .unreadable _ reason => [reason]
  | .malformed _ _ => []

end SchemaError

namespace Document

def parse (source text : String) : Except SchemaError Document :=
  match parse? text with
  | some doc => .ok doc
  | none => .error (.malformed source "the text is not a protocol document")

variable {m : Type → Type} [Monad m]

def load (files : FileAccess m) (path : String) : m (Except SchemaError Document) := do
  match ← files.readText path with
  | .error fault => return .error (.unreadable path fault.message)
  | .ok text => return parse path text

def loadInto (files : FileAccess m) (doc : Document) :
    List String → m (Except SchemaError Document)
  | [] => return .ok doc
  | path :: rest => do
    match ← load files path with
    | .error e => return .error e
    | .ok next => loadInto files (doc.merge next) rest

def loadAll (files : FileAccess m) (paths : List String) : m (Except SchemaError Document) :=
  loadInto files empty paths

end Document

end ProtocolStubs
