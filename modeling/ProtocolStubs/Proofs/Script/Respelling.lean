import ProtocolStubs.Proofs.Schema.Respelling
import ProtocolStubs.Script.File

set_option autoImplicit false

namespace ProtocolStubs.Script

theorem definition_type (domain : String) (d e : Definition) (respells : d.Respells domain e) :
    TypeExpr.ofDefinition domain d = .ofDefinition domain e := by
  apply shape_alike domain d e (TypeExpr.ofShape domain) respells
  · exact fun _ _ same => congrArg TypeExpr.named same
  · exact fun _ _ same => congrArg (fun ref => TypeExpr.array (.named ref)) same

theorem property_field (domain : String) (p q : Property) (respells : p.Respells domain q) :
    Field.ofProperty domain p = .ofProperty domain q := by
  rw [Field.ofProperty, Field.ofProperty, notes_lines _ _ _ (property_notes domain p q respells),
    respells.name, property_optional domain p q respells,
    definition_type domain _ _ (property_definition domain p q respells)]

theorem properties_record (domain name : String) (doc : List String) (ps qs : List Property)
    (respells : List.Forall₂ (Property.Respells domain) ps qs) :
    Record.ofProperties domain name doc ps = .ofProperties domain name doc qs := by
  rw [Record.ofProperties, Record.ofProperties,
    map_alike (Field.ofProperty domain) respells (property_field domain)]

theorem named_type (domain : String) (t u : TypeDef) (respells : t.Respells domain u) :
    NamedType.ofTypeDef domain t = .ofTypeDef domain u := by
  have properties := respells.properties
  rw [NamedType.ofTypeDef, NamedType.ofTypeDef, respells.id,
    notes_lines _ _ _ (type_notes domain t u respells),
    definition_type domain _ _ (type_definition domain t u respells)]
  generalize t.properties = left at properties
  generalize u.properties = right at properties
  cases properties with
  | none => rfl
  | some both => exact congrArg NamedType.record (properties_record domain _ _ _ _ both)

theorem command_method (domain : String) (c d : Command) (respells : c.Respells domain d) :
    Method.ofCommand domain c = .ofCommand domain d := by
  have argument : Argument.ofCommand domain c = Argument.ofCommand domain d := by
    rw [Argument.ofCommand, Argument.ofCommand, respells.name, command_form domain c d respells]
  rw [Method.ofCommand, Method.ofCommand, argument, respells.name,
    notes_lines _ _ _ (command_notes domain c d respells), command_has_results domain c d respells]

theorem event_overload (domain : String) (e f : Event) (respells : e.Respells domain f) :
    Overload.ofEvent domain e = .ofEvent domain f := by
  rw [Overload.ofEvent, Overload.ofEvent, respells.name,
    notes_lines _ _ _ (event_notes domain e f respells), event_signal domain e f respells]

section Domain

variable (d e : Domain) (respells : d.Respells e)

include respells

theorem domain_client (transport : String) :
    Client.ofDomain transport d = .ofDomain transport e := by
  rw [Client.ofDomain, Client.ofDomain, ← respells.name,
    notes_lines _ _ _ (Domain.notes_respell d e respells),
    map_alike _ (Domain.events_respell d e respells) (event_overload d.name),
    map_alike _ respells.commands (command_method d.name)]

theorem domain_section : DataSection.ofDomain d = .ofDomain e := by
  have types := map_alike _ (Domain.types_respell d e respells) (named_type d.name)
  have params := map_alike (DataSection.paramsRecord d.name)
    (filter_alike _ respells.commands (command_has_params d.name)) fun a b both => by
      rw [DataSection.paramsRecord, DataSection.paramsRecord, both.name]
      exact properties_record d.name _ _ _ _ (command_params d.name a b both)
  have results := map_alike (DataSection.resultsRecord d.name)
    (filter_alike _ respells.commands (command_has_results d.name)) fun a b both => by
      rw [DataSection.resultsRecord, DataSection.resultsRecord, both.name]
      exact properties_record d.name _ _ _ _ (command_results d.name a b both)
  have payloads := map_alike (DataSection.payloadRecord d.name)
    (filter_alike _ (Domain.events_respell d e respells) fun a b both =>
      congrArg not (event_signal d.name a b both)) fun a b both => by
        rw [DataSection.payloadRecord, DataSection.payloadRecord, both.name]
        exact properties_record d.name _ _ _ _ (event_params d.name a b both)
  rw [DataSection.ofDomain, DataSection.ofDomain, ← respells.name, types, params, results, payloads,
    notes_lines _ _ _ (Domain.notes_respell d e respells)]

theorem domain_text (known : List String) (options : Options) :
    domainText d known options = domainText e known options := by
  rw [domainText, domainText, domainCode, domainCode, importedDomains, importedDomains,
    domain_client d e respells, domain_section d e respells,
    Domain.has_events_respell d e respells, Domain.dependency_names_respell d e respells,
    empty_alike respells.commands]

end Domain

theorem files_respelled (domains others : List Domain) (options : Options)
    (respells : List.Forall₂ Domain.Respells domains others) :
    files domains options = files others options := by
  have names : domains.map Domain.name = others.map Domain.name :=
    map_alike Domain.name respells fun _ _ both => both.name
  rw [files, files, names,
    map_alike _ respells fun d e both => by rw [both.name, domain_text d e both]]

end ProtocolStubs.Script
