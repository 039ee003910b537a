import Mathlib.Data.List.Forall2
import ProtocolStubs.Proofs.Schema.QualifiedName
import ProtocolStubs.Schema.Dependency
import ProtocolStubs.Schema.Filter
import ProtocolStubs.Schema.Notes

set_option autoImplicit false

namespace ProtocolStubs

inductive Omitted {α : Type} (plain : α) : Option α → Option α → Prop where
  | same (x : Option α) : Omitted plain x x
  | absent : Omitted plain (some plain) none
  | written : Omitted plain none (some plain)

def Listed {α : Type} (related : α → α → Prop) (a b : Option (List α)) : Prop :=
  List.Forall₂ related (a.getD []) (b.getD [])

inductive SameRef (domain : String) : String → String → Prop where
  | same (raw : String) : SameRef domain raw raw
  | qualify (name : String) (plain : '.' ∉ domain.toList) (unqualified : '.' ∉ name.toList) :
      SameRef domain name (qualified domain name)
  | unqualify (name : String) (plain : '.' ∉ domain.toList) (unqualified : '.' ∉ name.toList) :
      SameRef domain (qualified domain name) name

inductive SameKind : String → String → Prop where
  | same (kind : String) : SameKind kind kind
  | number : SameKind "integer" "number"
  | integer : SameKind "number" "integer"

structure Items.Respells (domain : String) (i j : Items) : Prop where
  kind : Option.Rel SameKind i.kind j.kind
  reference : Option.Rel (SameRef domain) i.reference j.reference

structure Property.Respells (domain : String) (p q : Property) : Prop where
  name : p.name = q.name
  description : Omitted "" p.description q.description
  kind : Option.Rel SameKind p.kind q.kind
  reference : Option.Rel (SameRef domain) p.reference q.reference
  values : p.values = q.values
  items : Option.Rel (Items.Respells domain) p.items q.items
  optional : Omitted false p.optional q.optional
  experimental : Omitted false p.experimental q.experimental
  deprecated : Omitted false p.deprecated q.deprecated

-- A type without properties is no record, so these are not to be left out.
structure TypeDef.Respells (domain : String) (t u : TypeDef) : Prop where
  id : t.id = u.id
  description : Omitted "" t.description u.description
  kind : Option.Rel SameKind t.kind u.kind
  values : t.values = u.values
  properties : Option.Rel (List.Forall₂ (Property.Respells domain)) t.properties u.properties
  items : Option.Rel (Items.Respells domain) t.items u.items
  experimental : Omitted false t.experimental u.experimental
  deprecated : Omitted false t.deprecated u.deprecated

-- The redirect may be any.
structure Command.Respells (domain : String) (c d : Command) : Prop where
  name : c.name = d.name
  description : Omitted "" c.description d.description
  parameters : Listed (Property.Respells domain) c.parameters d.parameters
  returns : Listed (Property.Respells domain) c.returns d.returns
  experimental : Omitted false c.experimental d.experimental
  deprecated : Omitted false c.deprecated d.deprecated

structure Event.Respells (domain : String) (e f : Event) : Prop where
  name : e.name = f.name
  description : Omitted "" e.description f.description
  parameters : Listed (Property.Respells domain) e.parameters f.parameters
  experimental : Omitted false e.experimental f.experimental
  deprecated : Omitted false e.deprecated f.deprecated

structure Domain.Respells (d e : Domain) : Prop where
  name : d.name = e.name
  description : Omitted "" d.description e.description
  experimental : Omitted false d.experimental e.experimental
  deprecated : Omitted false d.deprecated e.deprecated
  dependencies : Listed Eq d.dependencies e.dependencies
  types : Listed (TypeDef.Respells d.name) d.types e.types
  commands : List.Forall₂ (Command.Respells d.name) d.commands e.commands
  events : Listed (Event.Respells d.name) d.events e.events

-- The version may be any.
structure Document.Respells (doc other : Document) : Prop where
  domains : List.Forall₂ Domain.Respells doc.domains other.domains

section Lists

variable {α β : Type} {related : α → α → Prop} {left right : List α}

theorem map_alike (f : α → β) (alike : List.Forall₂ related left right)
    (same : ∀ a b, related a b → f a = f b) : left.map f = right.map f := by
  rw [← List.forall₂_eq_eq_eq]
  exact List.rel_map (fun a b both => same a b both) alike

theorem flat_map_alike (f : α → List β) (alike : List.Forall₂ related left right)
    (same : ∀ a b, related a b → f a = f b) : left.flatMap f = right.flatMap f := by
  rw [List.flatMap_def, List.flatMap_def, map_alike f alike same]

theorem filter_alike (keep : α → Bool) (alike : List.Forall₂ related left right)
    (same : ∀ a b, related a b → keep a = keep b) :
    List.Forall₂ related (left.filter keep) (right.filter keep) :=
  List.rel_filter (fun a b both => iff_of_eq (congrArg (· = true) (same a b both))) alike

theorem any_alike (test : α → Bool) (alike : List.Forall₂ related left right)
    (same : ∀ a b, related a b → test a = test b) : left.any test = right.any test := by
  induction alike with
  | nil => rfl
  | cons first _ ih => rw [List.any_cons, List.any_cons, same _ _ first, ih]

theorem empty_alike (alike : List.Forall₂ related left right) : left.isEmpty = right.isEmpty := by
  cases alike <;> rfl

end Lists

theorem omitted_flag (a b : Option Bool) (omitted : Omitted false a b) : isSet a = isSet b := by
  cases omitted <;> rfl

theorem omitted_text (a b : Option String) (omitted : Omitted "" a b) :
    a.elim [] Text.lines = b.elim [] Text.lines := by
  cases omitted <;> rfl

theorem unqualified_parse (domain name : String) (unqualified : '.' ∉ name.toList) :
    TypeRef.parse name domain = ⟨domain, name⟩ := by
  rw [TypeRef.parse, (cutAtDot_eq_none_iff name.toList).mpr unqualified]

theorem qualified_parse (domain name current : String) (plain : '.' ∉ domain.toList) :
    TypeRef.parse (qualified domain name) current = ⟨domain, name⟩ := by
  rw [TypeRef.parse, cut_qualified domain name plain]
  simp only [String.ofList_toList]

theorem same_ref_parse (domain raw other : String) (same : SameRef domain raw other) :
    TypeRef.parse raw domain = TypeRef.parse other domain := by
  cases same with
  | same => rfl
  | qualify name plain unqualified =>
    rw [unqualified_parse domain raw unqualified, qualified_parse domain raw domain plain]
  | unqualify name plain unqualified =>
    rw [unqualified_parse domain other unqualified, qualified_parse domain other domain plain]

theorem same_kind_primitive (a b : Option String) (same : Option.Rel SameKind a b) :
    a.bind Primitive.ofKind? = b.bind Primitive.ofKind? := by
  cases same with
  | none => rfl
  | some kinds => cases kinds <;> rfl

structure Notes.Respells (n m : Notes) : Prop where
  description : Omitted "" n.description m.description
  experimental : Omitted false n.experimental m.experimental
  deprecated : Omitted false n.deprecated m.deprecated
  optional : Omitted false n.optional m.optional

theorem notes_lines (tag : String → String) (n m : Notes) (respells : n.Respells m) :
    n.lines tag = m.lines tag := by
  have description : n.descriptionLines = m.descriptionLines :=
    congrArg (List.map Text.trimEnd) (omitted_text _ _ respells.description)
  have flags : n.setFlags = m.setFlags := by
    simp only [Notes.setFlags, Notes.flags, List.filter_cons, List.filter_nil,
      omitted_flag _ _ respells.experimental, omitted_flag _ _ respells.deprecated,
      omitted_flag _ _ respells.optional]
    split <;> split <;> split <;> rfl
  rw [Notes.lines, Notes.lines, description, flags]

structure Definition.Respells (domain : String) (d e : Definition) : Prop where
  kind : Option.Rel SameKind d.kind e.kind
  reference : Option.Rel (SameRef domain) d.reference e.reference
  values : d.values = e.values
  items : Option.Rel (Items.Respells domain) d.items e.items

-- Shapes are alike but for the spelling of the references in them.
inductive Shape.Respells (domain : String) : Shape → Shape → Prop where
  | same (s : Shape) : Respells domain s s
  | reference (raw other : String) (same : SameRef domain raw other) :
      Respells domain (.reference raw) (.reference other)
  | arrayOfReference (raw other : String) (same : SameRef domain raw other) :
      Respells domain (.arrayOfReference raw) (.arrayOfReference other)

theorem items_shape (domain : String) (i j : Items) (respells : i.Respells domain j) :
    Option.Rel (Shape.Respells domain) (Definition.itemsShape? i) (Definition.itemsShape? j) := by
  rw [Definition.itemsShape?, Definition.itemsShape?, same_kind_primitive _ _ respells.kind]
  have references := respells.reference
  generalize i.reference = raw at references
  generalize j.reference = other at references
  cases j.kind.bind Primitive.ofKind? with
  | some item => exact .some (.same _)
  | none =>
    cases references with
    | none => exact .none
    | some same => exact .some (.arrayOfReference _ _ same)

theorem definition_shape (domain : String) (d e : Definition) (respells : d.Respells domain e) :
    d.shape.Respells domain e.shape := by
  have plain : d.plainShape = e.plainShape := by
    rw [Definition.plainShape, Definition.plainShape, respells.values,
      same_kind_primitive _ _ respells.kind]
  have references := respells.reference
  have items := respells.items
  rw [Definition.shape, Definition.shape, plain]
  generalize d.reference = raw at references
  generalize e.reference = other at references
  cases references with
  | some same => exact .reference _ _ same
  | none =>
    generalize d.items = i at items
    generalize e.items = j at items
    cases items with
    | none => exact .same _
    | @some i j same =>
      have shapes := items_shape domain i j same
      change Shape.Respells domain ((Definition.itemsShape? i).getD _)
        ((Definition.itemsShape? j).getD _)
      generalize Definition.itemsShape? i = s at shapes
      generalize Definition.itemsShape? j = t at shapes
      cases shapes with
      | none => exact .same _
      | some both => exact both

-- What is read from a shape is the same if references count only as they resolve.
theorem shape_alike {β : Type} (domain : String) (d e : Definition) (read : Shape → β)
    (respells : d.Respells domain e)
    (reference : ∀ raw other, TypeRef.parse raw domain = TypeRef.parse other domain →
      read (.reference raw) = read (.reference other))
    (array : ∀ raw other, TypeRef.parse raw domain = TypeRef.parse other domain →
      read (.arrayOfReference raw) = read (.arrayOfReference other)) :
    read d.shape = read e.shape := by
  have shapes := definition_shape domain d e respells
  generalize d.shape = s at shapes
  generalize e.shape = t at shapes
  cases shapes with
  | same s => rfl
  | reference raw other same => exact reference raw other (same_ref_parse domain raw other same)
  | arrayOfReference raw other same => exact array raw other (same_ref_parse domain raw other same)

theorem reference_parse (domain : String) (a b : Option String)
    (same : Option.Rel (SameRef domain) a b) :
    a.toList.map (fun raw => TypeRef.parse raw domain) =
      b.toList.map fun raw => TypeRef.parse raw domain := by
  cases same with
  | none => rfl
  | some refs => exact congrArg (fun ref => [ref]) (same_ref_parse domain _ _ refs)

theorem definition_references (domain : String) (d e : Definition) (respells : d.Respells domain e) :
    d.references.map (fun raw => TypeRef.parse raw domain) =
      e.references.map fun raw => TypeRef.parse raw domain := by
  have item : Option.Rel (SameRef domain) d.itemReference e.itemReference := by
    have items := respells.items
    rw [Definition.itemReference, Definition.itemReference]
    generalize d.items = i at items
    generalize e.items = j at items
    cases items with
    | none => exact .none
    | some both => exact both.reference
  rw [Definition.references, Definition.references, List.map_append, List.map_append,
    reference_parse domain _ _ respells.reference, reference_parse domain _ _ item]

section Members

variable (domain : String)

theorem property_definition (p q : Property) (respells : p.Respells domain q) :
    p.definition.Respells domain q.definition :=
  ⟨respells.kind, respells.reference, respells.values, respells.items⟩

theorem property_notes (p q : Property) (respells : p.Respells domain q) :
    p.notes.Respells q.notes :=
  ⟨respells.description, respells.experimental, respells.deprecated, respells.optional⟩

theorem property_optional (p q : Property) (respells : p.Respells domain q) :
    p.isOptional = q.isOptional :=
  omitted_flag _ _ respells.optional

theorem type_definition (t u : TypeDef) (respells : t.Respells domain u) :
    t.definition.Respells domain u.definition :=
  ⟨respells.kind, .none, respells.values, respells.items⟩

theorem type_notes (t u : TypeDef) (respells : t.Respells domain u) : t.notes.Respells u.notes :=
  ⟨respells.description, respells.experimental, respells.deprecated, .same none⟩

theorem type_fields (t u : TypeDef) (respells : t.Respells domain u) :
    List.Forall₂ (Property.Respells domain) (t.properties.getD []) (u.properties.getD []) := by
  have properties := respells.properties
  generalize t.properties = left at properties
  generalize u.properties = right at properties
  cases properties with
  | none => exact .nil
  | some both => exact both

theorem command_notes (c d : Command) (respells : c.Respells domain d) :
    c.notes.Respells d.notes :=
  ⟨respells.description, respells.experimental, respells.deprecated, .same none⟩

theorem command_params (c d : Command) (respells : c.Respells domain d) :
    List.Forall₂ (Property.Respells domain) c.params d.params := respells.parameters

theorem command_results (c d : Command) (respells : c.Respells domain d) :
    List.Forall₂ (Property.Respells domain) c.results d.results := respells.returns

theorem command_has_params (c d : Command) (respells : c.Respells domain d) :
    c.hasParams = d.hasParams :=
  congrArg not (empty_alike (command_params domain c d respells))

theorem command_has_results (c d : Command) (respells : c.Respells domain d) :
    c.hasResults = d.hasResults :=
  congrArg not (empty_alike (command_results domain c d respells))

theorem command_form (c d : Command) (respells : c.Respells domain d) :
    c.argumentForm = d.argumentForm := by
  have mandatory : c.hasMandatoryParams = d.hasMandatoryParams :=
    any_alike _ (command_params domain c d respells) fun p q both =>
      congrArg not (property_optional domain p q both)
  rw [Command.argumentForm, Command.argumentForm, command_has_params domain c d respells, mandatory]

theorem event_notes (e f : Event) (respells : e.Respells domain f) : e.notes.Respells f.notes :=
  ⟨respells.description, respells.experimental, respells.deprecated, .same none⟩

theorem event_params (e f : Event) (respells : e.Respells domain f) :
    List.Forall₂ (Property.Respells domain) e.params f.params := respells.parameters

theorem event_signal (e f : Event) (respells : e.Respells domain f) : e.isSignal = f.isSignal :=
  empty_alike (event_params domain e f respells)

end Members

namespace Domain

variable (d e : Domain) (respells : d.Respells e)

include respells

theorem notes_respell : d.notes.Respells e.notes :=
  ⟨respells.description, respells.experimental, respells.deprecated, .same none⟩

theorem types_respell : List.Forall₂ (TypeDef.Respells d.name) d.typeDefs e.typeDefs :=
  respells.types

theorem events_respell : List.Forall₂ (Event.Respells d.name) d.eventList e.eventList :=
  respells.events

theorem has_events_respell : d.hasEvents = e.hasEvents :=
  congrArg not (empty_alike (events_respell d e respells))

theorem filtered_respell (filter : Filter) : (d.filtered filter).Respells (e.filtered filter) where
  name := respells.name
  description := respells.description
  experimental := respells.experimental
  deprecated := respells.deprecated
  dependencies := respells.dependencies
  types := respells.types
  commands := filter_alike filter.keepsCommand respells.commands fun c d both => by
    rw [Filter.keepsCommand, Filter.keepsCommand, Filter.keeps, Filter.keeps,
      omitted_flag _ _ both.experimental, omitted_flag _ _ both.deprecated]
  events := by
    have kept := filter_alike filter.keepsEvent respells.events fun e f both => by
      rw [Filter.keepsEvent, Filter.keepsEvent, Filter.keeps, Filter.keeps,
        omitted_flag _ _ both.experimental, omitted_flag _ _ both.deprecated]
    have listed : ∀ events : Option (List Event),
        (events.map fun listed => listed.filter filter.keepsEvent).getD [] =
          (events.getD []).filter filter.keepsEvent := by
      intro events
      cases events <;> rfl
    change List.Forall₂ _ (Option.getD (Option.map _ _) []) (Option.getD (Option.map _ _) [])
    rw [listed, listed]
    exact kept

theorem properties_respell :
    List.Forall₂ (Property.Respells d.name) d.properties e.properties := by
  have fields := List.rel_flatMap (types_respell d e respells) (type_fields d.name)
  have members := List.rel_flatMap respells.commands fun c d both =>
    List.rel_append (command_params _ c d both) (command_results _ c d both)
  have payloads := List.rel_flatMap (events_respell d e respells) (event_params d.name)
  exact List.rel_append (List.rel_append fields members) payloads

theorem definitions_respell :
    List.Forall₂ (Definition.Respells d.name) d.definitions e.definitions :=
  List.rel_append (List.rel_map (type_definition d.name) (types_respell d e respells))
    (List.rel_map (property_definition d.name) (properties_respell d e respells))

theorem dependency_names_respell : d.dependencyNames = e.dependencyNames := by
  have declared : d.dependencies.getD [] = e.dependencies.getD [] := by
    rw [← List.forall₂_eq_eq_eq]
    exact respells.dependencies
  have referred : d.referredDomains = e.referredDomains := by
    rw [referredDomains, referredDomains, ← respells.name]
    apply flat_map_alike _ (definitions_respell d e respells)
    intro definition other both
    have parsed := congrArg (List.map TypeRef.domain) (definition_references d.name _ _ both)
    rw [List.map_map, List.map_map] at parsed
    exact parsed
  rw [dependencyNames, dependencyNames, declared, referred, respells.name]

end Domain

end ProtocolStubs
