import ProtocolStubs.Crate.File
import ProtocolStubs.Proofs.Schema.Respelling

set_option autoImplicit false

namespace ProtocolStubs.Crate

theorem definition_target (domain : String) (d e : Definition) (respells : d.Respells domain e) :
    d.target? domain = e.target? domain := by
  apply shape_alike domain d e (fun s => s.target?.map fun raw => TypeRef.parse raw domain) respells
  · exact fun _ _ same => congrArg some same
  · exact fun _ _ same => congrArg some same

theorem type_targets (domain : String) (t u : TypeDef) (respells : t.Respells domain u) :
    t.targets domain = u.targets domain := by
  have properties := respells.properties
  rw [TypeDef.targets, TypeDef.targets,
    definition_target domain _ _ (type_definition domain t u respells)]
  generalize t.properties = left at properties
  generalize u.properties = right at properties
  cases properties with
  | none => rfl
  | some both =>
    have targets := map_alike (fun p => p.definition.target? domain) both fun p q same =>
      definition_target domain _ _ (property_definition domain p q same)
    have collected := congrArg (List.filterMap id) targets
    rw [List.filterMap_map, List.filterMap_map] at collected
    exact collected

theorem domain_graph (d e : Domain) (respells : d.Respells e) :
    TypeGraph.ofDomain d = .ofDomain e := by
  rw [TypeGraph.ofDomain, TypeGraph.ofDomain, ← respells.name]
  exact map_alike _ (Domain.types_respell d e respells) fun t u both => by
    rw [both.id, type_targets d.name t u both]

theorem domain_records (d e : Domain) (respells : d.Respells e) :
    TypeIndex.recordNames d = TypeIndex.recordNames e := by
  have records := filter_alike (fun t => t.properties.isSome) (Domain.types_respell d e respells)
    fun t u both => by
      have properties := both.properties
      generalize t.properties = left at properties
      generalize u.properties = right at properties
      cases properties <;> rfl
  rw [TypeIndex.recordNames, TypeIndex.recordNames, ← respells.name]
  exact map_alike _ records fun t u both => by rw [both.id]

theorem index_respelled (domains others : List Domain)
    (respells : List.Forall₂ Domain.Respells domains others) :
    TypeIndex.ofDomains domains = .ofDomains others := by
  rw [TypeIndex.ofDomains, TypeIndex.ofDomains, TypeGraph.ofDomains, TypeGraph.ofDomains,
    flat_map_alike _ respells domain_records, flat_map_alike _ respells domain_graph]

theorem definition_type (domain : String) (d e : Definition) (respells : d.Respells domain e) :
    TypeExpr.ofDefinition domain d = .ofDefinition domain e := by
  apply shape_alike domain d e (TypeExpr.ofShape domain) respells
  · exact fun _ _ same => congrArg (TypeExpr.ofRef domain) same
  · exact fun _ _ same => congrArg (fun ref => TypeExpr.vector (.ofRef domain ref)) same

theorem field_type (index : TypeIndex) (domain : String) (d e : Definition)
    (respells : d.Respells domain e) :
    TypeExpr.ofField index domain d = .ofField index domain e := by
  have shapes := definition_shape domain d e respells
  rw [TypeExpr.ofField, TypeExpr.ofField]
  generalize d.shape = s at shapes
  generalize e.shape = t at shapes
  cases shapes with
  | same s => rfl
  | reference raw other same =>
    dsimp only
    rw [same_ref_parse domain raw other same]
  | arrayOfReference raw other same =>
    exact congrArg (fun ref => TypeExpr.vector (.ofRef domain ref))
      (same_ref_parse domain raw other same)

theorem allowed_values (domain : String) (d e : Definition) (respells : d.Respells domain e) :
    allowedValues d = allowedValues e := by
  have shapes := definition_shape domain d e respells
  rw [allowedValues, allowedValues]
  generalize d.shape = s at shapes
  generalize e.shape = t at shapes
  cases shapes <;> rfl

theorem property_field (index : TypeIndex) (domain : String) (owner : Option String) (p q : Property)
    (respells : p.Respells domain q) :
    Field.ofProperty index domain owner p = .ofProperty index domain owner q := by
  have definitions := property_definition domain p q respells
  have notes := property_notes domain p q respells
  have doc : Field.docLines p = Field.docLines q := by
    rw [Field.docLines, Field.docLines, allowed_values domain _ _ definitions]
    exact congrArg (· ++ allowedValues q.definition) (notes_lines Layout.Comment.slashTag
      { p.notes with optional := none } { q.notes with optional := none }
      ⟨notes.description, notes.experimental, notes.deprecated, .same none⟩)
  simp only [Field.ofProperty, doc, respells.name, property_optional domain p q respells,
    definition_target domain _ _ definitions, field_type index domain _ _ definitions]

theorem properties_record (index : TypeIndex) (domain : String) (owner : Option String)
    (name : String) (doc : List String) (ps qs : List Property)
    (respells : List.Forall₂ (Property.Respells domain) ps qs) :
    Record.ofProperties index domain owner name doc ps =
      .ofProperties index domain owner name doc qs := by
  rw [Record.ofProperties, Record.ofProperties,
    map_alike _ respells (property_field index domain owner)]

theorem named_type (index : TypeIndex) (domain : String) (t u : TypeDef)
    (respells : t.Respells domain u) :
    NamedType.ofTypeDef index domain t = .ofTypeDef index domain u := by
  have properties := respells.properties
  have definitions := type_definition domain t u respells
  rw [NamedType.ofTypeDef, NamedType.ofTypeDef, respells.id,
    notes_lines _ _ _ (type_notes domain t u respells), allowed_values domain _ _ definitions,
    definition_type domain _ _ definitions]
  generalize t.properties = left at properties
  generalize u.properties = right at properties
  cases properties with
  | none => rfl
  | some both =>
    exact congrArg NamedType.record (properties_record index domain _ _ _ _ _ both)

theorem notes_text (n m : Notes) (respells : n.Respells m) : docText n = docText m :=
  congrArg (Text.joinWith "\n") (notes_lines _ n m respells)

theorem command_method (domain : String) (c d : Command) (respells : c.Respells domain d) :
    Method.ofCommand c = .ofCommand d := by
  have argument : Argument.ofCommand c = Argument.ofCommand d := by
    rw [Argument.ofCommand, Argument.ofCommand, respells.name, command_form domain c d respells]
  rw [Method.ofCommand, Method.ofCommand, argument, respells.name,
    notes_text _ _ (command_notes domain c d respells), command_has_results domain c d respells]

theorem event_subscription (domain : String) (once : Bool) (e f : Event)
    (respells : e.Respells domain f) : Subscription.ofEvent once e = .ofEvent once f := by
  rw [Subscription.ofEvent, Subscription.ofEvent, respells.name,
    notes_text _ _ (event_notes domain e f respells), event_signal domain e f respells]

section Domain

variable (d e : Domain) (respells : d.Respells e)

include respells

theorem domain_client : Client.ofDomain d = .ofDomain e := by
  have subscriptions := flat_map_alike
    (fun e => [Subscription.ofEvent false e, Subscription.ofEvent true e])
    (Domain.events_respell d e respells) fun e f both => by
      rw [event_subscription d.name false e f both, event_subscription d.name true e f both]
  rw [Client.ofDomain, Client.ofDomain, ← respells.name,
    notes_text _ _ (Domain.notes_respell d e respells), subscriptions,
    map_alike _ respells.commands (command_method d.name)]

theorem domain_modules (index : TypeIndex) :
    DataModules.ofDomain index d = .ofDomain index e := by
  have types := map_alike _ (Domain.types_respell d e respells) (named_type index d.name)
  have params := map_alike (DataModules.paramsRecord index d.name)
    (filter_alike _ respells.commands (command_has_params d.name)) fun a b both => by
      rw [DataModules.paramsRecord, DataModules.paramsRecord, both.name]
      exact properties_record index d.name _ _ _ _ _ (command_params d.name a b both)
  have results := map_alike (DataModules.resultsRecord index d.name)
    (filter_alike _ respells.commands (command_has_results d.name)) fun a b both => by
      rw [DataModules.resultsRecord, DataModules.resultsRecord, both.name]
      exact properties_record index d.name _ _ _ _ _ (command_results d.name a b both)
  have payloads := map_alike (DataModules.payloadRecord index d.name)
    (filter_alike _ (Domain.events_respell d e respells) fun a b both =>
      congrArg not (event_signal d.name a b both)) fun a b both => by
        rw [DataModules.payloadRecord, DataModules.payloadRecord, both.name]
        exact properties_record index d.name _ _ _ _ _ (event_params d.name a b both)
  rw [DataModules.ofDomain, DataModules.ofDomain, ← respells.name, types, params, results, payloads]

theorem domain_text (known : List String) (index : TypeIndex) (options : Options) :
    domainText d known index options = domainText e known index options := by
  have doc : moduleDoc d = moduleDoc e := by
    rw [moduleDoc, moduleDoc, respells.name,
      notes_lines _ _ _ (Domain.notes_respell d e respells)]
  rw [domainText, domainText, domainCode, domainCode, importedDomains, importedDomains, doc,
    domain_client d e respells, domain_modules d e respells index,
    Domain.dependency_names_respell d e respells]

end Domain

theorem files_respelled (domains others : List Domain) (options : Options)
    (respells : List.Forall₂ Domain.Respells domains others) :
    files domains options = files others options := by
  have names : domains.map Domain.name = others.map Domain.name :=
    map_alike Domain.name respells fun _ _ both => both.name
  have root : rootCode domains options = rootCode others options := by
    rw [rootCode, rootCode, Facade.ofDomains, Facade.ofDomains,
      map_alike (fun d : Domain => Slot.mk d.name) respells fun _ _ both => by rw [both.name],
      map_alike (fun d : Domain => Layout.Code.line ("pub mod " ++ identifier d.name ++ ";")) respells
        fun _ _ both => by rw [both.name]]
  have modules : ∀ known index,
      (domains.mapM fun d => (domainText d known index options).map
        (GeneratedFile.ofSource (identifier d.name ++ ".rs"))) =
      others.mapM fun d => (domainText d known index options).map
        (GeneratedFile.ofSource (identifier d.name ++ ".rs")) := by
    intro known index
    clear names root
    induction respells with
    | nil => rfl
    | cons first _ ih =>
      rw [List.mapM_cons, List.mapM_cons, ih, first.name, domain_text _ _ first]
  rw [files, files, names, index_respelled domains others respells, root, modules]

end ProtocolStubs.Crate
