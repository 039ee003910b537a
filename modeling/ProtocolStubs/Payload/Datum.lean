import ProtocolStubs.Decimal.Double
import ProtocolStubs.Json.Value

set_option autoImplicit false

namespace ProtocolStubs.Payload

-- A record lists its fields in the order of their declaration; fields that are left out when absent are
-- not on the list.
inductive Datum where
  | null
  | text (s : String)
  | flag (b : Bool)
  | word (i : Int)
  | real (x : Decimal.Double)
  | any (v : Value)
  | list (items : List Datum)
  | record (fields : List (String × Datum))
deriving Repr, Inhabited

namespace Datum

mutual

-- The dynamic value that the payload's text reads as. Real numbers that are integers become integers;
-- those that are not finite have no value.
def encode? : Datum → Option Value
  | .null => some .null
  | .text s => some (.text s)
  | .flag b => some (.flag b)
  | .word i => some (.number (.int i))
  | .real x => (Json.Number.ofText? x.text).map .number
  | .any v => v.restated?
  | .list items => (encodeItems? items).map .list
  | .record fields => (encodeFields? fields).map .object

def encodeItems? : List Datum → Option (List Value)
  | [] => some []
  | item :: rest =>
    match encode? item, encodeItems? rest with
    | some value, some values => some (value :: values)
    | _, _ => none

def encodeFields? : List (String × Datum) → Option (List (String × Value))
  | [] => some []
  | (key, datum) :: rest =>
    match encode? datum, encodeFields? rest with
    | some value, some values => some ((key, value) :: values)
    | _, _ => none

end

mutual

-- The payload as text. Here a real number always shows that it is one.
def toText : Datum → String
  | .null => "null"
  | .text s => Value.textLiteral s
  | .flag b => if b then "true" else "false"
  | .word i => toString i
  | .real x => x.text
  | .any v => Value.toText v
  | .list items => "[" ++ itemsText items ++ "]"
  | .record fields => "\x7b" ++ fieldsText fields ++ "\x7d"

def itemsText : List Datum → String
  | [] => ""
  | [item] => toText item
  | item :: next :: rest => toText item ++ "," ++ itemsText (next :: rest)

def fieldsText : List (String × Datum) → String
  | [] => ""
  | [(key, datum)] => Value.textLiteral key ++ ":" ++ toText datum
  | (key, datum) :: next :: rest =>
    Value.textLiteral key ++ ":" ++ toText datum ++ "," ++ fieldsText (next :: rest)

end

end Datum

end ProtocolStubs.Payload
