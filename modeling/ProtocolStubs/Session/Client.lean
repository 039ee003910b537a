import ProtocolStubs.Payload.Codec
import ProtocolStubs.Session.Transport

set_option autoImplicit false

namespace ProtocolStubs

structure Client where
  domain : String
  hub : Nat
  route : Option Nat
deriving DecidableEq, Repr

abbrev Exchange (α : Type) := ExceptT CallError (StateM Transport) α

namespace Exchange

variable {α β : Type}

-- Without parameters the empty object is sent.
def call (domain command : String) (params : Option Value) : Exchange (Option Value) := fun t =>
  let method := qualified domain command
  match t.send method (params.getD Value.empty) with
  | (t, .error cause) => (.error (.transport cause), t)
  | (t, .ok reply) =>
    match reply.failure? method with
    | some failure => (.error (.protocol failure), t)
    | none => (.ok reply.result, t)

def encoded (codec : Codec α) : Option α → Except CallError (Option Value)
  | none => .ok none
  | some params =>
    match codec.encode params with
    | .ok value => .ok (some value)
    | .error cause => .error (.payload cause)

-- A reply without a result reads as the empty object.
def decoded (codec : Codec β) (result : Option Value) : Except CallError β :=
  match codec.decode (result.getD Value.empty) with
  | .ok b => .ok b
  | .error cause => .error (.payload cause)

def send (codec : Codec α) (domain command : String) (params : Option α) :
    Exchange (Option Value) := do
  call domain command (← encoded codec params)

def invoke (params : Codec α) (result : Codec β) (domain command : String) (given : Option α) :
    Exchange β := do
  decoded result (← send params domain command given)

def fetch (result : Codec β) (domain command : String) : Exchange β := do
  decoded result (← call domain command none)

end Exchange

end ProtocolStubs
