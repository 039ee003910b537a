import ProtocolStubs.Payload.Decoding
import ProtocolStubs.Session.Error

set_option autoImplicit false

namespace ProtocolStubs

-- Between the two stands text: a payload is read from the value's text, and a value from the payload's.
structure Codec (α : Type) where
  encode : α → Except PayloadError Value
  decode : Value → Except PayloadError α

namespace Payload

def Kind.codec (k : Kind) : Codec Datum where
  encode datum :=
    match datum.encode? with
    | some v => .ok v
    | none => .error (.encode "the payload has no value")
  decode v :=
    match v.restated? >>= k.decode? with
    | some datum => .ok datum
    | none => .error (.decode "the value is not of the kind asked for")

end Payload

end ProtocolStubs
