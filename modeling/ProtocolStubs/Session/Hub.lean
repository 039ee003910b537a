import ProtocolStubs.Schema.Name
import ProtocolStubs.Session.Agenda
import ProtocolStubs.Text.Lines

set_option autoImplicit false

namespace ProtocolStubs

-- Listeners are filed under the event that they wait for, in the order in which they came, and are
-- numbered in one sequence.
structure Entry (κ : Type) where
  id : Nat
  once : Bool
  listener : κ
deriving DecidableEq, Repr

-- Only events that somebody listens to have a topic.
structure Hub (κ : Type) where
  nextId : Nat
  topics : List (String × List (Entry κ))
deriving DecidableEq, Repr

namespace Hub

variable {κ : Type}

def empty : Hub κ := ⟨0, []⟩

def file (event : String) (entry : Entry κ) :
    List (String × List (Entry κ)) → List (String × List (Entry κ))
  | [] => [(event, [entry])]
  | (name, entries) :: rest =>
    if name = event then (name, entries ++ [entry]) :: rest
    else (name, entries) :: file event entry rest

def add (h : Hub κ) (event : String) (once : Bool) (listener : κ) : Hub κ × Nat :=
  (⟨h.nextId + 1, file event ⟨h.nextId, once, listener⟩ h.topics⟩, h.nextId)

def keeping (keep : String → Entry κ → Bool) (topics : List (String × List (Entry κ))) :
    List (String × List (Entry κ)) :=
  (topics.map fun topic => (topic.1, topic.2.filter (keep topic.1))).filter fun topic =>
    !topic.2.isEmpty

def off (h : Hub κ) (id : Nat) : Hub κ × Bool :=
  ({ h with topics := keeping (fun _ entry => entry.id ≠ id) h.topics },
    h.topics.any fun topic => topic.2.any fun entry => entry.id == id)

def entries (h : Hub κ) (event : String) : List (Entry κ) := (h.topics.lookup event).getD []

-- An emission takes the listeners of its event, and with that drops those that wait only once, before
-- any of them is called.
def take (h : Hub κ) (event : String) : Hub κ × List κ :=
  ({ h with topics := keeping (fun name entry => name ≠ event || !entry.once) h.topics },
    (h.entries event).map Entry.listener)

def count (h : Hub κ) (event : String) : Nat := (h.entries event).length

def counts (h : Hub κ) : List (String × Nat) :=
  (h.topics.map fun topic => (topic.1, topic.2.length)).mergeSort fun a b => a.1 ≤ b.1

def countText (count : String × Nat) : String :=
  "(" ++ Text.quote count.1 ++ ", " ++ toString count.2 ++ ")"

def describeCounts (counts : List (String × Nat)) : String :=
  "EventHub \x7b listeners: [" ++ Text.joinWith ", " (counts.map countText) ++ "] \x7d"

def describe (h : Hub κ) : String := describeCounts h.counts

end Hub

structure Message where
  method : String
  params : Value
deriving Repr, BEq

-- The event of a message for that domain. A malformed name is for no domain.
def Message.eventFor? (m : Message) (domain : String) : Option String :=
  match QualifiedName.parse m.method with
  | .ok name => if name.domain = domain then some name.member else none
  | .error _ => none

namespace Hub

variable {κ : Type}

def route (h : Hub κ) (domain : String) (m : Message) : Hub κ × List κ :=
  match m.eventFor? domain with
  | some event => h.take event
  | none => (h, [])

inductive Op (κ : Type) where
  | add (event : String) (once : Bool) (listener : κ)
  | off (id : Nat)
  | emit (event : String) (params : Value)
  | route (domain : String) (message : Message)
  | count (event : String)
  | describe

inductive Answer where
  | listener (id : Nat)
  | removed (was : Bool)
  | called (count : Nat)
  | count (n : Nat)
  | text (s : String)
deriving DecidableEq, Repr

def calls {τ : Type} (listeners : List κ) (params : Value) : List (Errand κ τ) :=
  listeners.map fun listener => .call listener params

def perform (h : Hub κ) : Op κ → Hub κ × Answer × List (Errand κ Empty)
  | .add event once listener =>
    let (h, id) := h.add event once listener
    (h, .listener id, [])
  | .off id =>
    let (h, was) := h.off id
    (h, .removed was, [])
  | .emit event params =>
    let (h, listeners) := h.take event
    (h, .called listeners.length, calls listeners params)
  | .route domain message =>
    let (h, listeners) := h.route domain message
    (h, .called listeners.length, calls listeners message.params)
  | .count event => (h, .count (h.count event), [])
  | .describe => (h, .text h.describe, [])

abbrev interface (κ : Type) : Interface := ⟨Op κ, Answer, κ, Empty⟩

abbrev world (κ : Type) : World where
  toInterface := interface κ
  State := Hub κ
  perform := perform
  turn := fun h _ => (h, [])

end Hub

end ProtocolStubs
