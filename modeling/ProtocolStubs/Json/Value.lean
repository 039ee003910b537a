import ProtocolStubs.Json.Basic
import ProtocolStubs.Json.Number
import ProtocolStubs.Json.Syntax

set_option autoImplicit false

namespace ProtocolStubs

abbrev Value := Json Json.Number

namespace Value

def put (members : Members Json.Number) (key : String) (value : Value) : Members Json.Number :=
  match members with
  | [] => [(key, value)]
  | (k, v) :: rest => if k = key then (k, value) :: rest else (k, v) :: put rest key value

mutual

-- The value of a member whose key had the value `before`, if it had been there: a repeated key keeps
-- its first place. A scalar takes the place of what stood there; an object adds its members to an
-- object and leaves any other value as it was; a list may not come second.
def ofSyntax? (before : Option Value) : Json Json.Literal → Option Value
  | .null => some .null
  | .flag b => some (.flag b)
  | .number n => (Json.Number.ofLiteral? n).map .number
  | .text s => some (.text s)
  | .list items => if before.isNone then (ofItems? items).map .list else none
  | .object members =>
    match before with
    | none => (ofMembers? [] members).map .object
    | some (.object old) => (ofMembers? old members).map .object
    | some old => if haveValues members then some old else none

def ofItems? : List (Json Json.Literal) → Option (List Value)
  | [] => some []
  | item :: rest =>
    match ofSyntax? none item, ofItems? rest with
    | some value, some values => some (value :: values)
    | _, _ => none

def ofMembers? (before : Members Json.Number) :
    List (String × Json Json.Literal) → Option (Members Json.Number)
  | [] => some before
  | (key, item) :: rest =>
    match ofSyntax? (before.lookup key) item with
    | some value => ofMembers? (put before key value) rest
    | none => none

def haveValues : List (String × Json Json.Literal) → Bool
  | [] => true
  | (_, item) :: rest => (ofSyntax? none item).isSome && haveValues rest

end

def read? (s : String) : Option Value := Json.read? s >>= ofSyntax? none

mutual

def restated? : Value → Option Value
  | .number n => n.restated?.map .number
  | .list items => (restatedItems? items).map .list
  | .object members => (restatedMembers? members).map .object
  | v => some v

def restatedItems? : List Value → Option (List Value)
  | [] => some []
  | item :: rest =>
    match restated? item, restatedItems? rest with
    | some value, some values => some (value :: values)
    | _, _ => none

def restatedMembers? : List (String × Value) → Option (List (String × Value))
  | [] => some []
  | (key, item) :: rest =>
    match restated? item, restatedMembers? rest with
    | some value, some values => some ((key, value) :: values)
    | _, _ => none

end

def empty : Value := .object []

def hexPair (n : Nat) : List Char :=
  [Nat.digitChar (n / 16), Nat.digitChar (n % 16)]

def escapedChar (c : Char) : List Char :=
  if c = '"' then ['\\', '"']
  else if c = '\\' then ['\\', '\\']
  else if c = '\n' then ['\\', 'n']
  else if c = '\r' then ['\\', 'r']
  else if c = '\t' then ['\\', 't']
  else if c = '\x08' then ['\\', 'b']
  else if c = '\x0c' then ['\\', 'f']
  else if c.toNat < 32 ∨ c.toNat = 127 then '\\' :: 'u' :: '0' :: '0' :: hexPair c.toNat
  else [c]

def isPlain (c : Char) : Bool := 32 ≤ c.toNat && c.toNat < 128 && c ≠ '"' && c ≠ '\\'

-- The text in blocks of 16 bytes, or a few more where a character would be cut; the last block is
-- shorter. Of the first block `held` has been read already, last character first.
def blocksFrom (held : List Char) (bytes : Nat) : List Char → List (List Char)
  | [] => [held.reverse]
  | c :: rest =>
    if 16 ≤ bytes + c.utf8Size then (c :: held).reverse :: blocksFrom [] 0 rest
    else blocksFrom (c :: held) (bytes + c.utf8Size) rest

-- A full block of plain characters is copied; in all others each character is looked at.
def escapedBlock (block : List Char) : List Char :=
  if block.length = 16 && block.all isPlain then block else block.flatMap escapedChar

def textLiteral (s : String) : String :=
  String.ofList ('"' :: ((blocksFrom [] 0 s.toList).flatMap escapedBlock ++ ['"']))

mutual

def toText : Value → String
  | .null => "null"
  | .flag b => if b then "true" else "false"
  | .number n => n.text
  | .text s => textLiteral s
  | .list items => "[" ++ itemsText items ++ "]"
  | .object members => "\x7b" ++ membersText members ++ "\x7d"

def itemsText : List Value → String
  | [] => ""
  | [item] => toText item
  | item :: next :: rest => toText item ++ "," ++ itemsText (next :: rest)

def membersText : List (String × Value) → String
  | [] => ""
  | [(key, value)] => textLiteral key ++ ":" ++ toText value
  | (key, value) :: next :: rest =>
    textLiteral key ++ ":" ++ toText value ++ "," ++ membersText (next :: rest)

end

end Value

end ProtocolStubs
