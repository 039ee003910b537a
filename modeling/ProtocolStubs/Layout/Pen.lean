import ProtocolStubs.Text.Lines

set_option autoImplicit false

namespace ProtocolStubs.Layout

-- The pen puts the indentation before the first text of a line that is not blank, so blank lines stay
-- bare. A written line that holds line feeds counts as its lines.
structure Pen where
  indent : String
  level : Nat
  atLineStart : Bool
  out : String
deriving DecidableEq, Repr

namespace Pen

def start (indent : String) : Pen := ⟨indent, 0, true, ""⟩

def indentation (indent : String) : Nat → String
  | 0 => ""
  | level + 1 => indent ++ indentation indent level

def write (p : Pen) (text : String) : Pen :=
  if text = "" then p
  else if p.atLineStart ∧ ¬ Text.isAllBlank text then
    { p with out := p.out ++ indentation p.indent p.level ++ text, atLineStart := false }
  else { p with out := p.out ++ text }

def endLine (p : Pen) : Pen := { p with out := p.out ++ "\n", atLineStart := true }

def bareLine (p : Pen) (text : String) : Pen := (p.write text).endLine

def line (p : Pen) (text : String) : Pen :=
  if Text.hasLineFeed text then (Text.lines text).foldl bareLine p else p.bareLine text

def commentLine (lead text : String) : String :=
  if Text.isAllBlank text then lead else lead ++ " " ++ Text.trimEnd text

def comment (p : Pen) (lead text : String) : Pen :=
  ((Text.lines text).map (commentLine lead)).foldl line p

def deepen (p : Pen) : Pen := { p with level := p.level + 1 }

def lighten (p : Pen) : Pen := { p with level := p.level - 1 }

end Pen

end ProtocolStubs.Layout
