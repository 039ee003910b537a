import ProtocolStubs.Layout.Pen

set_option autoImplicit false

namespace ProtocolStubs.Layout

inductive Code where
  | line (text : String)
  | blank
  | nest (body : List Code)
deriving Repr, BEq, Inhabited

namespace Code

mutual

def write (p : Pen) : Code → Pen
  | .line text => p.line text
  | .blank => p.endLine
  | .nest body => (writeAll p.deepen body).lighten

def writeAll (p : Pen) : List Code → Pen
  | [] => p
  | code :: rest => writeAll (write p code) rest

end

def text (indent : String) (code : List Code) : String := (writeAll (.start indent) code).out

def between (opener closer : String) (body : List Code) : List Code :=
  [.line opener, .nest body, .line closer]

def block (header : String) (body : List Code) : List Code :=
  between (header ++ " \x7b") "\x7d" body

def spaces (n : Nat) : String := String.ofList (List.replicate n ' ')

end Code

end ProtocolStubs.Layout
