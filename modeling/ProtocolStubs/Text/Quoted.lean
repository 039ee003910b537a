import ProtocolStubs.Text.Printable

set_option autoImplicit false

namespace ProtocolStubs.Text

def codePointEscape (c : Char) : List Char :=
  '\\' :: 'u' :: '\x7b' :: (Nat.toDigits 16 c.toNat ++ ['\x7d'])

-- The quote, the backslash and the usual control characters have short escapes, and whatever could not
-- be seen on the page is written as its code point in braces.
def quotedChar (c : Char) : List Char :=
  if c = '"' then ['\\', '"']
  else if c = '\\' then ['\\', '\\']
  else if c = '\n' then ['\\', 'n']
  else if c = '\r' then ['\\', 'r']
  else if c = '\t' then ['\\', 't']
  else if c = '\x00' then ['\\', '0']
  else if isExtender c then codePointEscape c
  else if isPrintable c then [c]
  else codePointEscape c

def quote (s : String) : String :=
  String.ofList ('"' :: (s.toList.flatMap quotedChar ++ ['"']))

end ProtocolStubs.Text
