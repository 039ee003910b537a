import ProtocolStubs.Session.Error
import ProtocolStubs.Session.Hub

set_option autoImplicit false

namespace ProtocolStubs

structure ReplyError where
  message : Option String
  code : Option Int
  data : Option String
deriving DecidableEq, Repr

structure Reply where
  error : Option ReplyError
  result : Option Value
deriving Repr, BEq

def Reply.empty : Reply := ⟨none, none⟩

-- Only an error with both a message and a code fails the command.
def Reply.failure? (r : Reply) (method : String) : Option ProtocolError :=
  match r.error with
  | some ⟨some message, some code, _⟩ => some ⟨message, code, method⟩
  | _ => none

inductive AttachMode where
  | attaches
  | fails (cause : TransportError)
  | ignores
deriving DecidableEq, Repr

-- A listener for notifications: it leads to the hub of one client.
structure Route where
  id : Nat
  domain : String
  hub : Nat
deriving DecidableEq, Repr

structure Transport where
  attached : Bool
  attachMode : AttachMode
  attachCalls : Nat
  replies : List (String × Except TransportError Reply)
  sent : List (String × Value)
  routes : List Route
  nextRoute : Nat
deriving Repr

namespace Transport

def start (attached : Bool) (mode : AttachMode) : Transport := ⟨attached, mode, 0, [], [], [], 0⟩

def tryAttach (t : Transport) : Transport × Except TransportError Unit :=
  let t := { t with attachCalls := t.attachCalls + 1 }
  match t.attachMode with
  | .attaches => ({ t with attached := true }, .ok ())
  | .fails cause => (t, .error cause)
  | .ignores => (t, .ok ())

def attach (t : Transport) : Transport × Except SessionError Unit :=
  if t.attached then (t, .ok ())
  else
    match t.tryAttach with
    | (t, .error cause) => (t, .error (.attach cause))
    | (t, .ok ()) =>
      if t.attached then (t, .ok ())
      else (t, .error (.attach (.attachFailed "transport still detached after attach")))

def queue (t : Transport) (method : String) (reply : Except TransportError Reply) : Transport :=
  { t with replies := t.replies ++ [(method, reply)] }

-- Sends a command and takes the next reply to it, an empty one if none is queued.
def send (t : Transport) (method : String) (params : Value) :
    Transport × Except TransportError Reply :=
  let reply := (t.replies.lookup method).getD (.ok .empty)
  ({ t with
      sent := t.sent ++ [(method, params)]
      replies := t.replies.eraseP fun queued => queued.1 == method },
    reply)

def openRoute (t : Transport) (domain : String) (hub : Nat) : Transport × Nat :=
  ({ t with
      routes := t.routes ++ [⟨t.nextRoute, domain, hub⟩]
      nextRoute := t.nextRoute + 1 },
    t.nextRoute)

def closeRoute (t : Transport) (id : Nat) : Transport :=
  { t with routes := t.routes.filter fun route => route.id ≠ id }

end Transport

end ProtocolStubs
