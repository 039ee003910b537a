set_option autoImplicit false

namespace ProtocolStubs.Script

def literalChar (c : Char) : List Char :=
  if c = '\\' then ['\\', '\\'] else if c = '\x27' then ['\\', '\x27'] else [c]

def literal (value : String) : String :=
  String.ofList ('\x27' :: (value.toList.flatMap literalChar ++ ['\x27']))

end ProtocolStubs.Script
