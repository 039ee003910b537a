import ProtocolStubs.Text.Lines

set_option autoImplicit false

namespace ProtocolStubs.Layout

def opensAbove : Option String → Bool
  | none => true
  | some above => above == "" || Text.endsWith above '\x7b'

def closesBelow (below : List String) : Bool :=
  match below.find? fun line => line ≠ "" with
  | none => true
  | some next => Text.startsWith (Text.trimStart next) '\x7d'

-- A blank line stays if the line kept before it is neither blank nor ends in an opening brace, and the
-- next line with text does not start with a closing one.
def keptBelow (above : Option String) : List String → List String
  | [] => []
  | line :: below =>
    if line = "" ∧ (opensAbove above ∨ closesBelow below) then keptBelow above below
    else line :: keptBelow (some line) below

def tidy (source : String) : String :=
  Text.joinWith "\n" (keptBelow none ((Text.lines source).map Text.trimEnd)) ++ "\n"

end ProtocolStubs.Layout
