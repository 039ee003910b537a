import ProtocolStubs.Generation.Options
import ProtocolStubs.Schema.Loading
import ProtocolStubs.Text.Quoted

set_option autoImplicit false

namespace ProtocolStubs

inductive GenerationError where
  | schema (cause : SchemaError)
  | files (path reason : String)
  | format
  | unsafeDirectory (path : String)
deriving DecidableEq, Repr

namespace GenerationError

def formatReason : String := "an error occurred when formatting an argument"

def lead : GenerationError → String
  | .schema cause => "schema error: " ++ cause.lead
  | .files path _ => "i/o error on " ++ path ++ ": "
  | .format => "render error: "
  | .unsafeDirectory path => "refusing to clean output directory " ++ Text.quote path

def message : GenerationError → String
  | .schema cause => "schema error: " ++ cause.message
  | .files path reason => lead (.files path reason) ++ reason
  | .format => "render error: " ++ formatReason
  | .unsafeDirectory path => lead (.unsafeDirectory path)

def causes : GenerationError → List String
  | .schema cause => cause.message :: cause.causes
  | .files _ reason => [reason]
  | .format => [formatReason]
  | .unsafeDirectory _ => []

def ofFault {α : Type} (path : String) : Except Fault α → Except GenerationError α
  | .ok a => .ok a
  | .error fault => .error (.files path fault.message)

end GenerationError

structure OutputDirectory where
  path : String
deriving DecidableEq, Repr

namespace OutputDirectory

open GenerationError (ofFault)

variable {m : Type → Type} [Monad m]

def wipe (files : FileAccess m) (path : String) : ExceptT GenerationError m Unit := do
  if ← files.holds path then
    ExceptT.mk (ofFault path <$> files.removeAll path)

-- The output directory belongs to the generator: it is emptied before anything is written, so that
-- files of earlier runs do not stay. A path without any name in it is refused.
def clean (files : FileAccess m) (path : String) : ExceptT GenerationError m OutputDirectory := do
  if Path.hasName path then
    wipe files path
    ExceptT.mk (ofFault path <$> files.makeDirectories path)
    return ⟨path⟩
  else throw (.unsafeDirectory path)

def writeFile (files : FileAccess m) (out : OutputDirectory) (file : GeneratedFile) :
    ExceptT GenerationError m Unit := do
  let path := Path.join out.path file.path
  match Path.parent? path with
  | some parent => ExceptT.mk (ofFault parent <$> files.makeDirectories parent)
  | none => pure ()
  ExceptT.mk (ofFault path <$> files.write path file.contents)

def writeAll (files : FileAccess m) (out : OutputDirectory) :
    List GeneratedFile → ExceptT GenerationError m Unit
  | [] => pure ()
  | file :: rest => do
    writeFile files out file
    writeAll files out rest

end OutputDirectory

end ProtocolStubs
