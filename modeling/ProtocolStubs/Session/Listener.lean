import ProtocolStubs.Payload.Codec
import ProtocolStubs.Session.Agenda

set_option autoImplicit false

namespace ProtocolStubs

inductive Form where
  | raw
  | typed (k : Payload.Kind)
  | signal
deriving DecidableEq, Repr

structure Listener (ℓ : Type) where
  form : Form
  callback : ℓ
deriving DecidableEq, Repr

inductive Received where
  | value (v : Value)
  | datum (d : Payload.Datum)
  | nothing
deriving Repr

-- A typed listener is not called for a payload that its codec does not decode, and to the hub it counts
-- as called all the same.
def Form.receive? : Form → Value → Option Received
  | .raw, v => some (.value v)
  | .typed k, v => (k.codec.decode v).toOption.map .datum
  | .signal, _ => some .nothing

namespace Listener

variable {w : World} {ℓ σ : Type}

def behave (callback : ℓ → Received → Program w σ) (l : Listener ℓ) (params : Value) :
    Program w σ :=
  match l.form.receive? params with
  | some received => callback l.callback received
  | none => .done

end Listener

end ProtocolStubs
