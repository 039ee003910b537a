import ProtocolStubs.Generation.Options
import ProtocolStubs.Text.Split
import ProtocolStubs.Text.Words

set_option autoImplicit false

namespace ProtocolStubs.CommandLine

structure Invocation where
  schema : String
  out : Option String
  typeScript : Bool
  rust : Bool
  options : Options
deriving DecidableEq, Repr

inductive ArgumentError where
  | unreadable
  -- An argument is empty or a mere dash.
  | formless
deriving DecidableEq, Repr

namespace ArgumentError

def message : ArgumentError → String
  | .unreadable => "Could not parse CLI arguments"
  | .formless => "not yet implemented"

end ArgumentError

structure Draft where
  schema : Option String := none
  out : Option String := none
  typeScript : Bool := false
  rust : Bool := false
  options : Options := {}
deriving DecidableEq, Repr

namespace Draft

def switch? (d : Draft) (name : String) : Option (Bool → Draft) :=
  if name = "typescript" then some fun on => { d with typeScript := on }
  else if name = "rust" then some fun on => { d with rust := on }
  else if name = "skip_experimental" then
    some fun on => { d with options := { d.options with
      filter := { d.options.filter with skipExperimental := on } } }
  else if name = "skip_deprecated" then
    some fun on => { d with options := { d.options with
      filter := { d.options.filter with skipDeprecated := on } } }
  else none

def setter? (d : Draft) (name : String) : Option (String → Draft) :=
  if name = "schema" then some fun value => { d with schema := some value }
  else if name = "out" then some fun value => { d with out := some value }
  else if name = "facade_name" then
    some fun value => { d with options := { d.options with facadeName := value } }
  else if name = "transport_module" then
    some fun value => { d with options := { d.options with transportModule := value } }
  else if name = "transport_type" then
    some fun value => { d with options := { d.options with transportType := value } }
  else if name = "runtime_crate" then
    some fun value => { d with options := { d.options with runtimeCrate := value } }
  else none

def invocation? (d : Draft) : Option Invocation :=
  d.schema.map fun schema => ⟨schema, d.out, d.typeScript, d.rust, d.options⟩

end Draft

inductive Argument where
  | option (name : String) (value : Option String)
  -- Two dashes: no option follows any more.
  | separator
  | formless
  | positional
deriving DecidableEq, Repr

-- An option's name in words and the value after its equals sign. Names of options are compared word by
-- word, so that case and the marks between words do not matter.
def cutAtEquals (name : List Char) : String × Option String :=
  let words := Text.snakeCase (String.ofList (name.takeWhile fun c => c ≠ '='))
  match name.dropWhile fun c => c ≠ '=' with
  | [] => (words, none)
  | _ :: value => (words, some (String.ofList value))

-- No short option is known, and no name starts with a dash: such arguments count as positional.
def Argument.ofText (argument : String) : Argument :=
  match argument.toList with
  | [] => .formless
  | ['-'] => .formless
  | ['-', '-'] => .separator
  | '-' :: '-' :: '-' :: _ => .positional
  | '-' :: '-' :: name => let (words, value) := cutAtEquals name; .option words value
  | _ => .positional

-- Whether a value, whatever its letter case, switches off; any other switches on.
def isDenial (value : String) : Bool :=
  ["0", "no", "off", "false"].contains (String.ofList (value.toList.flatMap Text.toLower))

inductive Reading where
  | ready (d : Draft)
  -- The next argument is the value of an option.
  | awaiting (set : String → Draft)
  | separated (d : Draft)
  | refused (e : ArgumentError)

namespace Reading

-- An option that takes a value has it after an equals sign or as the next argument; a switch may have
-- one after an equals sign, which switches it off if it denies. Of repeated options the last one
-- counts.
def option (d : Draft) (name : String) (value : Option String) : Reading :=
  match d.switch? name, d.setter? name, value with
  | some set, _, none => .ready (set true)
  | some set, _, some value => .ready (set (!isDenial value))
  | none, some set, none => .awaiting set
  | none, some set, some value => .ready (set value)
  | none, none, _ => .refused .unreadable

def next : Reading → String → Reading
  | .ready d, argument =>
    match Argument.ofText argument with
    | .option name value => option d name value
    | .separator => .separated d
    | .formless => .refused .formless
    | .positional => .refused .unreadable
  | .awaiting set, argument => .ready (set argument)
  | .separated _, _ => .refused .unreadable
  | .refused e, _ => .refused e

def draft : Reading → Except ArgumentError Draft
  | .ready d => .ok d
  | .separated d => .ok d
  | .awaiting _ => .error .unreadable
  | .refused e => .error e

end Reading

def isTask (argument : String) : Bool := argument == "codegen" || argument == "Codegen"

-- Any fault in the arguments makes them all unreadable.
def read : List String → Except ArgumentError Invocation
  | [] => .error .unreadable
  | task :: options => do
    if isTask task then
      let d ← (options.foldl Reading.next (.ready {})).draft
      match d.invocation? with
      | some invocation => return invocation
      | none => throw .unreadable
    else
      throw (if Argument.ofText task = .formless then .formless else .unreadable)

end ProtocolStubs.CommandLine
