import ProtocolStubs.Session.Client

set_option autoImplicit false

namespace ProtocolStubs

-- A client is kept under a name of its own, or in the slot of a facade, or in a slot by itself.
inductive Owner where
  | named (name : String)
  | facade (domain : String)
  | slot (domain : String)
deriving DecidableEq, Repr

-- A hub is there as long as anybody holds it: its client does, and so does every delivery that is
-- calling its listeners.
structure HeldHub (κ : Type) where
  key : Nat
  holders : Nat
  hub : Hub κ
deriving DecidableEq, Repr

structure Session (κ : Type) where
  transport : Transport
  hubs : List (HeldHub κ)
  nextHub : Nat
  clients : List (Owner × Client)
  hasFacade : Bool
deriving Repr

namespace Session

variable {κ : Type}

def start (attached : Bool) (mode : AttachMode) : Session κ := ⟨.start attached mode, [], 0, [], false⟩

def hub? (s : Session κ) (key : Nat) : Option (Hub κ) :=
  (s.hubs.find? fun held => held.key == key).map HeldHub.hub

def onHub (key : Nat) (change : HeldHub κ → HeldHub κ) (s : Session κ) : Session κ :=
  { s with hubs := s.hubs.map fun held => if held.key = key then change held else held }

def setHub (key : Nat) (hub : Hub κ) : Session κ → Session κ :=
  onHub key fun held => { held with hub := hub }

def hold (key : Nat) : Session κ → Session κ :=
  onHub key fun held => { held with holders := held.holders + 1 }

def release (key : Nat) (s : Session κ) : Session κ :=
  let s := onHub key (fun held => { held with holders := held.holders - 1 }) s
  { s with hubs := s.hubs.filter fun held => held.holders ≠ 0 }

def client? (s : Session κ) (owner : Owner) : Option Client := s.clients.lookup owner

def construct (s : Session κ) (domain : String) (hasEvents : Bool) :
    Session κ × Except SessionError Client :=
  if s.transport.attached then
    let key := s.nextHub
    let s := { s with hubs := s.hubs ++ [⟨key, 1, .empty⟩], nextHub := key + 1 }
    if hasEvents then
      let (transport, route) := s.transport.openRoute domain key
      ({ s with transport := transport }, .ok ⟨domain, key, some route⟩)
    else (s, .ok ⟨domain, key, none⟩)
  else (s, .error (.notAttached domain))

def dismiss (s : Session κ) (c : Client) : Session κ :=
  let s :=
    match c.route with
    | some id => { s with transport := s.transport.closeRoute id }
    | none => s
  s.release c.hub

def dropOwned (s : Session κ) (owned : Owner → Bool) : Session κ :=
  let (gone, kept) := s.clients.partition fun entry => owned entry.1
  (gone.map fun entry => entry.2).foldl dismiss { s with clients := kept }

def drop (s : Session κ) (owner : Owner) : Session κ × Bool :=
  (s.dropOwned fun other => other == owner, (s.client? owner).isSome)

-- A new client takes the place of an earlier one of its name, which is dropped after the new one was
-- made; if none can be made, the earlier one stays.
def connect (s : Session κ) (name domain : String) (hasEvents : Bool) :
    Session κ × Except SessionError Unit :=
  match s.construct domain hasEvents with
  | (s, .error cause) => (s, .error cause)
  | (s, .ok client) =>
    let s := s.dropOwned fun other => other == .named name
    ({ s with clients := s.clients ++ [(.named name, client)] }, .ok ())

-- The client of a slot, made at the first access that finds the transport attached. Tells whether it
-- was there before.
def access (s : Session κ) (owner : Owner) (domain : String) (hasEvents : Bool) :
    Session κ × Except SessionError Bool :=
  match s.client? owner with
  | some _ => (s, .ok true)
  | none =>
    match s.construct domain hasEvents with
    | (s, .error cause) => (s, .error cause)
    | (s, .ok client) => ({ s with clients := s.clients ++ [(owner, client)] }, .ok false)

def describeSlot (s : Session κ) (owner : Owner) : String :=
  "DomainSlot \x7b initialized: " ++ toString (s.client? owner).isSome ++ " \x7d"

def isFacade : Owner → Bool
  | .facade _ => true
  | _ => false

-- A new facade starts with empty slots; it attaches the transport first.
def openFacade (s : Session κ) : Session κ × Except SessionError Unit :=
  match s.transport.attach with
  | (transport, .error cause) => ({ s with transport := transport }, .error cause)
  | (transport, .ok ()) =>
    ({ s with transport := transport, hasFacade := true }.dropOwned isFacade, .ok ())

def closeFacade (s : Session κ) : Session κ × Bool :=
  ({ s with hasFacade := false }.dropOwned isFacade, s.hasFacade)

end Session

def Client.describe {κ : Type} (c : Client) (hub : Hub κ) : String :=
  "DomainClient \x7b domain: " ++ Text.quote c.domain ++ ", events: " ++ hub.describe ++ ", .. \x7d"

end ProtocolStubs
