import ProtocolStubs.Layout.Code

set_option autoImplicit false

namespace ProtocolStubs.Layout.Comment

def starTag (name : String) : String := "@" ++ name

def slashTag (name : String) : String := "*[" ++ name ++ "]*"

def starLine (line : String) : String :=
  if Text.trim line = "" then " *" else " * " ++ Text.trim line

def starText : List String → String
  | [] => ""
  | [line] => "/** " ++ Text.trim line ++ " */"
  | lines => "/**\n" ++ Text.joinWith "\n" (lines.map starLine) ++ "\n */"

def star (lines : List String) : List Code :=
  if lines.isEmpty then [] else [.line (starText lines)]

def slash (lines : List String) : List Code :=
  lines.map fun line => .line (Pen.commentLine "///" line)

end ProtocolStubs.Layout.Comment
