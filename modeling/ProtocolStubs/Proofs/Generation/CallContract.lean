import ProtocolStubs.Proofs.Crate.Calls
import ProtocolStubs.Proofs.Script.Calls
import ProtocolStubs.Proofs.Session.Traffic

set_option autoImplicit false

namespace ProtocolStubs

open Payload (Kind Datum)
open Session (Request)

def Command.Takes (c : Command) : ArgumentForm → Prop
  | .none => c.params = []
  | .required => ∃ p ∈ c.params, p.isOptional = false
  | .omittable => c.params ≠ [] ∧ ∀ p ∈ c.params, p.isOptional = true

theorem Command.takes_form (c : Command) : c.Takes c.argumentForm := by
  rw [argumentForm, hasParams]
  cases params : c.params with
  | nil => exact params
  | cons p rest =>
    cases mandatory : c.hasMandatoryParams with
    | true =>
      obtain ⟨q, member, given⟩ := List.any_eq_true.mp mandatory
      exact ⟨q, member, by simpa using given⟩
    | false =>
      refine ⟨by simp [params], fun q member => ?_⟩
      simpa using List.any_eq_false.mp mandatory q member

theorem Command.answers_results (c : Command) : c.hasResults = true ↔ c.results ≠ [] := by
  rw [hasResults, Bool.not_eq_true', List.isEmpty_eq_false_iff]

theorem Event.carries_params (e : Event) : (!e.isSignal) = true ↔ e.params ≠ [] := by
  rw [isSignal, Bool.not_eq_true', List.isEmpty_eq_false_iff]

-- What the body of a method in Rust asks of its client, where `given` are the parameters, if any, and
-- `result` is what an answer reads as.
def asks (form : ArgumentForm) (answers : Bool) (given : Option Datum) (result : Kind) : Request :=
  match answers, form with
  | true, .none => .fetch result
  | true, _ => .invoke given result
  | false, .none => .call none
  | false, _ => .send given

def outgoing (form : ArgumentForm) (given : Option Datum) : Except PayloadError Value :=
  match form, given with
  | .none, _ => .ok .empty
  | _, none => .ok .empty
  | _, some params => Kind.any.codec.encode params

theorem asks_wire (form : ArgumentForm) (answers : Bool) (given : Option Datum) (result : Kind) :
    (asks form answers given result).wire = outgoing form given := by
  cases answers <;> cases form <;> cases given <;> rfl

-- A client made with the name of the domain sends the command under the qualified name.
def Sends (domain command : String) (form : ArgumentForm) (answers : Bool) : Prop :=
  ∀ (κ : Type) (s : Session κ) (client : Client), client.domain = domain → ∀ given result,
    (s.request client command (asks form answers given result)).1.transport.sent = s.transport.sent ++
      ((outgoing form given).toOption.map fun params => (qualified domain command, params)).toList

theorem client_sends (domain command : String) (form : ArgumentForm) (answers : Bool) :
    Sends domain command form answers := by
  intro κ s client named given result
  have course := Session.exchange_course client.domain command (asks form answers given result) s.transport
  have after := Exchange.course_after course
  change (Session.exchange client.domain command (asks form answers given result) s.transport).2.sent = _
  rw [after, Exchange.departed_sent, asks_wire, named]

structure SharedCall (d : Domain) (c : Command) (form : ArgumentForm) (answers : Bool)
    (script crate : List String) : Prop where
  takes : c.Takes form
  answering : answers = true ↔ c.results ≠ []
  script : Script.Calls d c.name form answers script
  crate : Crate.Calls c.name form answers crate
  sends : Sends d.name c.name form answers

structure SharedEvent (d : Domain) (e : Event) (carries : Bool) (script crate : List String) : Prop where
  carrying : carries = true ↔ e.params ≠ []
  script : Script.Listens d e.name carries script
  crate : Crate.Listens e.name carries crate

-- What the rows of the two files of a domain have in common.
structure Contract (d : Domain) (script crate : List String) : Prop where
  serves : Crate.Serves d crate
  calls : ∀ c ∈ d.commands, ∃ form answers, SharedCall d c form answers script crate
  events : ∀ e ∈ d.eventList, ∃ carries, SharedEvent d e carries script crate

theorem call_contract_shared (d : Domain) (known : List String) (index : Crate.TypeIndex)
    (options : Options) (path place : String)
    (lines : ∀ name ∈ d.names, '\n' ∉ name.toList ∧ '\r' ∉ name.toList) (plain : '<' ∉ d.name.toList) :
    ∃ text, Crate.domainText d known index options = .ok text ∧
      Contract d (GeneratedFile.ofSource path (Script.domainText d known options)).rows
        (GeneratedFile.ofSource place text).rows := by
  obtain ⟨text, written, rows⟩ :=
    Crate.domain_text_written d known index options (Crate.type_name_plain d.name plain)
  refine ⟨text, written, ?_⟩
  rw [Script.domain_rows, Layout.rows_of_source, rows]
  have feeds : ∀ name ∈ d.names, Text.OneLine name := fun name member => (lines name member).1
  have returns : ∀ name ∈ d.names, '\r' ∉ name.toList := fun name member => (lines name member).2
  refine ⟨Crate.domain_served d known index options, fun c member => ?_, fun e member => ?_⟩
  · exact ⟨c.argumentForm, c.hasResults, c.takes_form, c.answers_results,
      Script.command_called d known options feeds returns c member,
      Crate.command_called d known index options c member (feeds _ (d.command_name c member)),
      client_sends d.name c.name _ _⟩
  · exact ⟨!e.isSignal, e.carries_params, Script.event_heard d known options feeds returns e member,
      Crate.event_heard d known index options e member (feeds _ (d.event_name e member))⟩

-- `go'` has a mandatory parameter and an answer, `stop` has parameters that may be left out, `ping` none.
def remote : Domain where
  name := "Remote\\"
  description := none
  experimental := none
  deprecated := none
  dependencies := none
  types := none
  commands :=
    [⟨"go\x27", none, some [⟨"to", none, some "string", none, none, none, none, none, none⟩],
        some [⟨"at", none, some "number", none, none, none, none, none, none⟩], none, none, none⟩,
      ⟨"stop", none, some [⟨"now", none, some "boolean", none, none, none, some true, none, none⟩], none,
        none, none, none⟩,
      ⟨"ping", none, none, none, none, none, none⟩]
  events :=
    some [⟨"lost", none, none, none, none⟩,
      ⟨"moved", none, some [⟨"by", none, some "number", none, none, none, none, none, none⟩], none, none⟩]

theorem remote_contract :
    (∀ name ∈ remote.names, '\n' ∉ name.toList ∧ '\r' ∉ name.toList) ∧ '<' ∉ remote.name.toList ∧
    ∃ text, Crate.domainText remote [] (.ofDomains [remote]) {} = .ok text ∧
      Contract remote (GeneratedFile.ofSource "Remote.ts" (Script.domainText remote [] {})).rows
        (GeneratedFile.ofSource "remote.rs" text).rows :=
  ⟨by decide, by decide,
    call_contract_shared remote [] (.ofDomains [remote]) {} "Remote.ts" "remote.rs" (by decide) (by decide)⟩

end ProtocolStubs
