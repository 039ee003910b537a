import ProtocolStubs.Session.State

set_option autoImplicit false

namespace ProtocolStubs.Session

open ProtocolStubs.Payload (Kind Datum)

variable {κ : Type}

inductive Request where
  | call (params : Option Value)
  | send (params : Option Datum)
  | fetch (result : Kind)
  | invoke (params : Option Datum) (result : Kind)
deriving Repr

inductive Outcome where
  | raw (result : Option Value)
  | typed (result : Datum)
deriving Repr

inductive Op (κ : Type) where
  | connect (name domain : String) (hasEvents : Bool)
  | drop (owner : Owner)
  | access (owner : Owner) (domain : String) (hasEvents : Bool)
  | holds (owner : Owner)
  | openFacade
  | closeFacade
  | facadeIsOpen
  | add (owner : Owner) (event : String) (once : Bool) (listener : κ)
  | off (owner : Owner) (id : Nat)
  | count (owner : Owner) (event : String)
  | describe (owner : Owner)
  | describeSlot (owner : Owner)
  | request (owner : Owner) (command : String) (request : Request)
  | deliver (message : Message)
  | queue (method : String) (reply : Except TransportError Reply)
  | setAttached (attached : Bool)
  | attach
  | transport

inductive Answer where
  | done
  | absent
  | made (result : Except SessionError Unit)
  | accessed (result : Except SessionError Bool)
  | was (b : Bool)
  | listener (id : Nat)
  | count (n : Nat)
  | text (s : String)
  | outcome (result : Except CallError Outcome)
  | transport (t : Transport)

-- The turns of a delivery: one per route that was open when it began, and after the calls of a
-- route's listeners one that lets go of its hub.
inductive Turn where
  | deliver (route : Route) (message : Message)
  | release (hub : Nat)
deriving Repr

-- Encoding goes by the payload alone, so any kind's codec writes parameters.
def exchange (domain command : String) : Request → Exchange Outcome
  | .call params => .raw <$> Exchange.call domain command params
  | .send params => .raw <$> Exchange.send Kind.any.codec domain command params
  | .fetch result => .typed <$> Exchange.fetch result.codec domain command
  | .invoke params result =>
    .typed <$> Exchange.invoke Kind.any.codec result.codec domain command params

def withClient (s : Session κ) (owner : Owner)
    (act : Client → Hub κ → Session κ × Answer) : Session κ × Answer :=
  match s.client? owner with
  | none => (s, .absent)
  | some client =>
    match s.hub? client.hub with
    | none => (s, .absent)
    | some hub => act client hub

def request (s : Session κ) (client : Client) (command : String) (r : Request) :
    Session κ × Answer :=
  let (result, transport) := exchange client.domain command r s.transport
  ({ s with transport := transport }, .outcome result)

def act (s : Session κ) : Op κ → Session κ × Answer
  | .connect name domain hasEvents =>
    let (s, result) := s.connect name domain hasEvents
    (s, .made result)
  | .drop owner =>
    let (s, was) := s.drop owner
    (s, .was was)
  | .access owner domain hasEvents =>
    if isFacade owner && !s.hasFacade then (s, .absent)
    else
      let (s, result) := s.access owner domain hasEvents
      (s, .accessed result)
  | .holds owner => (s, .was (s.client? owner).isSome)
  | .openFacade =>
    let (s, result) := s.openFacade
    (s, .made result)
  | .closeFacade =>
    let (s, was) := s.closeFacade
    (s, .was was)
  | .facadeIsOpen => (s, .was s.hasFacade)
  | .add owner event once listener =>
    s.withClient owner fun client hub =>
      let (hub, id) := hub.add event once listener
      (s.setHub client.hub hub, .listener id)
  | .off owner id =>
    s.withClient owner fun client hub =>
      let (hub, was) := hub.off id
      (s.setHub client.hub hub, .was was)
  | .count owner event => s.withClient owner fun _ hub => (s, .count (hub.count event))
  | .describe owner => s.withClient owner fun client hub => (s, .text (client.describe hub))
  | .describeSlot owner => (s, .text (s.describeSlot owner))
  | .request owner command r => s.withClient owner fun client _ => s.request client command r
  | .deliver _ => (s, .done)
  | .queue method reply => ({ s with transport := s.transport.queue method reply }, .done)
  | .setAttached attached =>
    ({ s with transport := { s.transport with attached := attached } }, .done)
  | .attach =>
    let (transport, result) := s.transport.attach
    ({ s with transport := transport }, .made result)
  | .transport => (s, .transport s.transport)

def errands (s : Session κ) : Op κ → List (Errand κ Turn)
  | .deliver message => s.transport.routes.map fun route => .turn (.deliver route message)
  | _ => []

def perform (s : Session κ) (op : Op κ) : Session κ × Answer × List (Errand κ Turn) :=
  let (after, answer) := s.act op
  (after, answer, s.errands op)

def turn (s : Session κ) : Turn → Session κ × List (Errand κ Turn)
  | .deliver route message =>
    match s.hub? route.hub with
    | none => (s, [])
    | some hub =>
      let (hub, listeners) := hub.route route.domain message
      ((s.setHub route.hub hub).hold route.hub,
        Hub.calls listeners message.params ++ [.turn (.release route.hub)])
  | .release key => (s.release key, [])

abbrev interface (κ : Type) : Interface := ⟨Op κ, Answer, κ, Turn⟩

abbrev world (κ : Type) : World where
  toInterface := interface κ
  State := Session κ
  perform := perform
  turn := turn

end ProtocolStubs.Session
