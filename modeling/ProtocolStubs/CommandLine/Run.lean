import ProtocolStubs.CommandLine.Arguments
import ProtocolStubs.Generation.Generate
import ProtocolStubs.Generation.Output

set_option autoImplicit false

namespace ProtocolStubs.CommandLine

inductive RunError where
  | arguments (cause : ArgumentError)
  | noSchema
  | schema (cause : SchemaError)
  | generation (cause : GenerationError)
  | item (cause : Crate.ItemError)
deriving DecidableEq, Repr

namespace RunError

def message : RunError → String
  | .arguments cause => cause.message
  | .noSchema => "--schema needs at least one protocol file"
  | .schema cause => cause.message
  | .generation cause => cause.message
  | .item cause => cause.message

-- An argument without a form and an item that cannot be written end the run on the spot.
def isAbrupt : RunError → Bool
  | .arguments .formless => true
  | .item _ => true
  | _ => false

def exitCode (e : RunError) : UInt32 := if e.isAbrupt then 101 else 1

-- What the run says at its end. After an abrupt end an empty line comes first.
def report (e : RunError) : String :=
  if e.isAbrupt then "\n" ++ e.message else "Error: " ++ e.message

end RunError

namespace Invocation

-- The files between commas; blank space around them does not count, nor do empty names.
def schemaNames (i : Invocation) : List String :=
  ((Text.split ',' i.schema).map Text.trim).filter fun name => name ≠ ""

def outPath (root : String) (i : Invocation) : String :=
  Path.join root (i.out.getD "generated")

-- The languages to generate, each with its directory: a single one goes straight into the output
-- directory.
def targets (root : String) (i : Invocation) : List (Target × String) :=
  let out := i.outPath root
  match i.typeScript, i.rust with
  | true, false => [(.typeScript, out)]
  | false, true => [(.rust, out)]
  | _, _ => [(.typeScript, Path.join out "typescript"), (.rust, Path.join out "rust")]

end Invocation

variable {m : Type → Type} [Monad m]

def loadSchemas (files : FileAccess m) (root : String) (i : Invocation) :
    ExceptT RunError m Document := do
  let paths := i.schemaNames.map (Path.join root)
  if paths.isEmpty then throw .noSchema
  ExceptT.mk do
    match ← Document.loadAll files paths with
    | .ok doc => return .ok doc
    | .error cause => return .error (.schema cause)

def emit (files : FileAccess m) (path : String) (generated : List GeneratedFile) :
    ExceptT GenerationError m Unit := do
  let out ← OutputDirectory.clean files path
  out.writeAll files generated

def generateInto (files : FileAccess m) (doc : Document) (options : Options)
    (target : Target × String) : ExceptT RunError m Unit := do
  match doc.generate { options with target := target.1 } with
  | .error cause => throw (.item cause)
  | .ok generated => ExceptT.mk do
    match ← (emit files target.2 generated).run with
    | .ok () => return .ok ()
    | .error cause => return .error (.generation cause)

def generateAll (files : FileAccess m) (doc : Document) (options : Options) :
    List (Target × String) → ExceptT RunError m Unit
  | [] => pure ()
  | target :: rest => do
    generateInto files doc options target
    generateAll files doc options rest

def codegen (files : FileAccess m) (root : String) (i : Invocation) : ExceptT RunError m Unit := do
  let doc ← loadSchemas files root i
  generateAll files doc i.options (i.targets root)

def run (files : FileAccess m) (root : String) (arguments : List String) :
    ExceptT RunError m Unit :=
  match read arguments with
  | .ok invocation => codegen files root invocation
  | .error cause => throw (.arguments cause)

end ProtocolStubs.CommandLine
