import ProtocolStubs.Payload.Datum
import ProtocolStubs.Payload.Kind
import ProtocolStubs.Payload.Numeral

set_option autoImplicit false

namespace ProtocolStubs.Payload

open ProtocolStubs.Decimal

namespace Kind

-- Numbers and flags may be spelt out as texts; null reads as the empty text, as zero, or as an absent
-- field. An unsigned integer read as a signed one keeps its 64 bits, and a larger number without a
-- fraction reads as the nearest end of the range.
def textOf? : Value → Option String
  | .null => some ""
  | .text s => some s
  | _ => none

def flagOf? : Value → Option Bool
  | .flag b => some b
  | .text s => if s = "true" then some true else if s = "false" then some false else none
  | _ => none

def wordOf? : Value → Option Int
  | .number (.int i) => some (i.bmod 18446744073709551616)
  | .number (.real x) => x.toInt?.map (Json.clamp Json.leastSigned Json.greatestSigned)
  | .text s => wordOfText? s
  | _ => none

def realOf? : Value → Option Double
  | .null => some (.finite (.zero false))
  | .number n => n.toReal?.map .finite
  | .text s => realOfText? s
  | _ => none

-- The payload that a field gets from what was read for it: nothing, or the last value of its member,
-- if that was not null.
def fieldOf? (f : Field) (read : List (String × Option Datum)) :
    Option (List (String × Datum)) :=
  match (read.reverse.lookup f.key).join, f.presence with
  | some datum, _ => some [(f.key, datum)]
  | none, .required => none
  | none, .omitted => some []
  | none, .nullable => some [(f.key, .null)]

def recordOf? (fields : List Field) (read : List (String × Option Datum)) : Option Datum :=
  (fields.mapM fun f => fieldOf? f read).map fun parts => .record parts.flatten

mutual

def decode? (k : Kind) : Value → Option Datum
  | .list items =>
    match k with
    | .list item => (decodeItems? item items).map .list
    | .any => some (.any (.list items))
    | _ => none
  | .object members =>
    match k with
    | .record r => decodeMembers? r.fields members >>= recordOf? r.fields
    | .any => some (.any (.object members))
    | _ => none
  | v =>
    match k with
    | .text => (textOf? v).map .text
    | .flag => (flagOf? v).map .flag
    | .word => (wordOf? v).map .word
    | .real => (realOf? v).map .real
    | .any => some (.any v)
    | _ => none

def decodeItems? (k : Kind) : List Value → Option (List Datum)
  | [] => some []
  | item :: rest =>
    match decode? k item, decodeItems? k rest with
    | some datum, some data => some (datum :: data)
    | _, _ => none

def decodeMembers? (fields : List Field) :
    List (String × Value) → Option (List (String × Option Datum))
  | [] => some []
  | (key, v) :: rest =>
    match fields.find? fun f => f.key == key with
    | none => decodeMembers? fields rest
    | some f =>
      let datum? :=
        if f.presence ≠ .required ∧ v.isNull then some none else (decode? f.kind v).map some
      match datum?, decodeMembers? fields rest with
      | some datum, some read => some ((key, datum) :: read)
      | _, _ => none

end

end Kind

end ProtocolStubs.Payload
