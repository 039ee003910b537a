import ProtocolStubs.Text.Words

set_option autoImplicit false

namespace ProtocolStubs.Crate

def keywords : List String :=
  ["abstract", "as", "async", "await", "become", "box", "break", "const", "continue", "do",
   "dyn", "else", "enum", "extern", "false", "final", "fn", "for", "gen", "if", "impl", "in",
   "let", "loop", "macro", "match", "mod", "move", "mut", "override", "priv", "pub", "ref",
   "return", "static", "struct", "trait", "true", "try", "type", "typeof", "unsafe", "unsized",
   "use", "virtual", "where", "while", "yield"]

def pathKeywords : List String := ["crate", "self", "Self", "super"]

-- A keyword is written as a raw identifier; the four names that may not be raw get an underscore
-- instead.
def escaped (name : String) : String :=
  if name ∈ pathKeywords then name ++ "_"
  else if name ∈ keywords then "r#" ++ name
  else name

def identifier (name : String) : String := escaped (Text.snakeCase name)

def startsUpper (name : String) : Bool := (name.toList.head?.map Char.isUpper).getD false

def typeName (name : String) : String :=
  escaped (if startsUpper name then name else Text.upperCamelCase name)

end ProtocolStubs.Crate
