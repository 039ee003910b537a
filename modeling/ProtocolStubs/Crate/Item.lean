import ProtocolStubs.Layout.Rows

set_option autoImplicit false

namespace ProtocolStubs.Crate

open ProtocolStubs.Layout

structure Function where
  doc : String
  isAsync : Bool
  name : String
  takesSelf : Bool
  args : List (String × String)
  result : String
  body : List Code
deriving Repr, BEq

structure Head where
  name : String
  bound : String
deriving DecidableEq, Repr

inductive Item where
  | struct (doc : String) (head : Head) (fields : List (String × String))
  | impl (head : Head) (functions : List Function)
  | rows (code : List Code)
deriving Repr, BEq

inductive ItemError where
  | genericsInName
deriving DecidableEq, Repr

def ItemError.message : ItemError → String
  | .genericsInName => "type name already includes generics"

def itemIndent : String := Code.spaces 4

def spaced : List (List Code) → List Code
  | [] => []
  | [part] => part
  | part :: next :: rest => part ++ .blank :: spaced (next :: rest)

def docCode (doc : String) : List Code :=
  (Text.lines doc).map fun line => .line (if line = "" then "///" else "/// " ++ line)

namespace Head

def text (h : Head) : String := h.name ++ "<T>"

def boundCode (h : Head) : Code := .line ("where T: " ++ h.bound ++ ",")

-- The parameter can be added only to a name that has none yet.
def isPlain (h : Head) : Bool := !h.name.toList.contains '<'

end Head

namespace Function

def argText (arg : String × String) : String := arg.1 ++ ": " ++ arg.2

def argsText (f : Function) : String :=
  Text.joinWith ", " ((if f.takesSelf then ["&self"] else []) ++ f.args.map argText)

def signature (f : Function) : String :=
  "pub " ++ (if f.isAsync then "async " else "") ++ "fn " ++ f.name ++ "(" ++ f.argsText ++ ") -> " ++
    f.result

def code (f : Function) : List Code := docCode f.doc ++ Code.block f.signature f.body

end Function

namespace Item

def fieldCode (field : String × String) : Code := .line (field.1 ++ ": " ++ field.2 ++ ",")

def code : Item → List Code
  | .struct doc head fields =>
    docCode doc ++ [.line ("pub struct " ++ head.text), head.boundCode] ++
      Code.between "\x7b" "\x7d" (fields.map fieldCode)
  | .impl head functions =>
    [.line ("impl<T> " ++ head.text), head.boundCode] ++
      Code.between "\x7b" "\x7d" (spaced (functions.map Function.code))
  | .rows code => code

def isWritable : Item → Bool
  | .struct _ head _ => head.isPlain
  | .impl head _ => head.isPlain
  | .rows _ => true

def textAll (items : List Item) : Except ItemError String :=
  if items.all isWritable then .ok (Code.rowText itemIndent (spaced (items.map code)))
  else .error .genericsInName

end Item

end ProtocolStubs.Crate
