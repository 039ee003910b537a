import ProtocolStubs.Proofs.Schema.References
import ProtocolStubs.Schema.Notes

set_option autoImplicit false

namespace ProtocolStubs

inductive PayloadKind where
  | params
  | results
  | events
deriving DecidableEq

theorem filter_map_given {α β γ : Type} (values : List α) (make : α → β) (read : β → Option γ)
    (given : α → Bool) (value : α → γ)
    (reads : ∀ a, read (make a) = if given a then some (value a) else none) :
    (values.map make).filterMap read = (values.filter given).map value := by
  rw [List.filterMap_map, ← List.filterMap_eq_map, List.filterMap_filter]
  exact List.filterMap_congr fun a _ => reads a

def Domain.names (d : Domain) : List String :=
  d.name :: (d.commands.map Command.name ++ d.eventList.map Event.name)

theorem Domain.command_name (d : Domain) (c : Command) (member : c ∈ d.commands) : c.name ∈ d.names :=
  List.mem_cons_of_mem _ (List.mem_append_left _ (List.mem_map_of_mem member))

theorem Domain.event_name (d : Domain) (e : Event) (member : e ∈ d.eventList) : e.name ∈ d.names :=
  List.mem_cons_of_mem _ (List.mem_append_right _ (List.mem_map_of_mem member))

def Domain.notices (d : Domain) : List Notes :=
  d.notes :: (d.commands.map Command.notes ++ d.eventList.map Event.notes)

theorem Domain.command_notice (d : Domain) (c : Command) (member : c ∈ d.commands) : c.notes ∈ d.notices :=
  List.mem_cons_of_mem _ (List.mem_append_left _ (List.mem_map_of_mem member))

theorem Domain.event_notice (d : Domain) (e : Event) (member : e ∈ d.eventList) : e.notes ∈ d.notices :=
  List.mem_cons_of_mem _ (List.mem_append_right _ (List.mem_map_of_mem member))

namespace PayloadKind

def all : List PayloadKind := [.params, .results, .events]

theorem all_kinds (kind : PayloadKind) : kind ∈ all := by cases kind <;> decide

def noun : PayloadKind → String
  | .params => "Parameters"
  | .results => "Result"
  | .events => "Payload"

def needed (d : Domain) : PayloadKind → List (String × List Property)
  | .params => (d.commands.filter Command.hasParams).map fun c => (c.name, c.params)
  | .results => (d.commands.filter Command.hasResults).map fun c => (c.name, c.results)
  | .events => (d.eventList.filter fun e => !e.isSignal).map fun e => (e.name, e.params)

def doc (domain member : String) (kind : PayloadKind) : List String :=
  [kind.noun ++ " of `" ++ qualified domain member ++ "`."]

theorem needed_name (d : Domain) (kind : PayloadKind) (entry : String × List Property)
    (need : entry ∈ kind.needed d) : entry.1 ∈ d.names := by
  cases kind with
  | params =>
    obtain ⟨c, command, rfl⟩ := List.mem_map.mp need
    exact d.command_name c (List.mem_filter.mp command).1
  | results =>
    obtain ⟨c, command, rfl⟩ := List.mem_map.mp need
    exact d.command_name c (List.mem_filter.mp command).1
  | events =>
    obtain ⟨e, event, rfl⟩ := List.mem_map.mp need
    exact d.event_name e (List.mem_filter.mp event).1

theorem needed_property (d : Domain) (kind : PayloadKind) (entry : String × List Property) (p : Property)
    (need : entry ∈ kind.needed d) (member : p ∈ entry.2) : p ∈ d.properties := by
  cases kind with
  | params =>
    obtain ⟨c, command, rfl⟩ := List.mem_map.mp need
    exact d.param_property c p (List.mem_filter.mp command).1 member
  | results =>
    obtain ⟨c, command, rfl⟩ := List.mem_map.mp need
    exact d.result_property c p (List.mem_filter.mp command).1 member
  | events =>
    obtain ⟨e, event, rfl⟩ := List.mem_map.mp need
    exact d.payload_property e p (List.mem_filter.mp event).1 member

end PayloadKind

end ProtocolStubs
