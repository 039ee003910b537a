import ProtocolStubs.Crate.TypeGraph
import ProtocolStubs.Proofs.Text.Ink
import ProtocolStubs.Schema.Dependency
import ProtocolStubs.Schema.Filter

set_option autoImplicit false

namespace ProtocolStubs

open Text (OneLine)

namespace Definition

theorem plain_target (d : Definition) : d.plainShape.target? = none := by
  rw [plainShape]
  split <;> rfl

theorem items_target (items : Items) (shape : Shape) (raw : String)
    (found : itemsShape? items = some shape) (target : shape.target? = some raw) :
    items.reference = some raw := by
  rw [itemsShape?] at found
  split at found
  · cases found
    cases target
  · rename_i _ reference
    cases found
    rwa [← target]
  · cases found

theorem target_reference (d : Definition) (raw : String) (target : d.shape.target? = some raw) :
    raw ∈ d.references := by
  rw [references, List.mem_append, Option.mem_toList, Option.mem_toList]
  rw [shape] at target
  cases own : d.reference with
  | some other =>
    rw [own] at target
    cases target
    exact .inl rfl
  | none =>
    rw [own] at target
    cases found : d.items.bind itemsShape? with
    | none =>
      rw [found, Option.getD_none, plain_target] at target
      cases target
    | some shape =>
      rw [found, Option.getD_some] at target
      obtain ⟨items, given, shaped⟩ := Option.bind_eq_some_iff.mp found
      right
      rw [itemReference, given]
      exact items_target items shape raw shaped target

end Definition

namespace Domain

theorem type_definition (d : Domain) (t : TypeDef) (member : t ∈ d.typeDefs) :
    t.definition ∈ d.definitions :=
  List.mem_append_left _ (List.mem_map_of_mem member)

theorem property_definition (d : Domain) (p : Property) (member : p ∈ d.properties) :
    p.definition ∈ d.definitions :=
  List.mem_append_right _ (List.mem_map_of_mem member)

theorem type_property (d : Domain) (t : TypeDef) (properties : List Property) (p : Property)
    (type : t ∈ d.typeDefs) (record : t.properties = some properties) (member : p ∈ properties) :
    p ∈ d.properties := by
  refine List.mem_append_left _ (List.mem_append_left _ (List.mem_flatMap.mpr ⟨t, type, ?_⟩))
  rw [record]
  exact member

theorem param_property (d : Domain) (c : Command) (p : Property) (command : c ∈ d.commands)
    (member : p ∈ c.params) : p ∈ d.properties :=
  List.mem_append_left _ (List.mem_append_right _
    (List.mem_flatMap.mpr ⟨c, command, List.mem_append_left _ member⟩))

theorem result_property (d : Domain) (c : Command) (p : Property) (command : c ∈ d.commands)
    (member : p ∈ c.results) : p ∈ d.properties :=
  List.mem_append_left _ (List.mem_append_right _
    (List.mem_flatMap.mpr ⟨c, command, List.mem_append_right _ member⟩))

theorem payload_property (d : Domain) (e : Event) (p : Property) (event : e ∈ d.eventList)
    (member : p ∈ e.params) : p ∈ d.properties :=
  List.mem_append_right _ (List.mem_flatMap.mpr ⟨e, event, member⟩)

theorem target_known (d : Domain) (definition : Definition) (ref : TypeRef)
    (member : definition ∈ d.definitions) (target : definition.target? d.name = some ref) :
    ref.domain = d.name ∨ ref.domain ∈ d.dependencyNames := by
  obtain ⟨raw, points, rfl⟩ := Option.map_eq_some_iff.mp target
  have referred : (TypeRef.parse raw d.name).domain ∈ d.referredDomains :=
    List.mem_flatMap.mpr ⟨definition, member,
      List.mem_map.mpr ⟨raw, definition.target_reference raw points, rfl⟩⟩
  by_cases own : (TypeRef.parse raw d.name).domain = d.name
  · exact .inl own
  · refine .inr ((mem_sortedNames _ _).mpr (List.mem_filter.mpr ⟨?_, decide_eq_true own⟩))
    exact List.mem_append_right _ referred

theorem dependency_other (d : Domain) : d.name ∉ d.dependencyNames := by
  rw [dependencyNames, mem_sortedNames]
  simp

-- Names and references that stay on one line.
structure Legible (d : Domain) : Prop where
  name : OneLine d.name
  ids : ∀ t ∈ d.typeDefs, OneLine t.id
  references : ∀ definition ∈ d.definitions, ∀ raw ∈ definition.references, OneLine raw

end Domain

theorem TypeRef.parse_subset (raw current : String) :
    (∀ c ∈ (parse raw current).domain.toList, c ∈ raw.toList ∨ c ∈ current.toList) ∧
      ∀ c ∈ (parse raw current).name.toList, c ∈ raw.toList := by
  rw [parse]
  cases cut : cutAtDot raw.toList with
  | none => exact ⟨fun c => .inr, fun c => id⟩
  | some parts =>
    obtain ⟨before, after⟩ := parts
    have whole := (cutAtDot_eq_some cut).1
    rw [whole]
    constructor
    · intro c member
      exact .inl (List.mem_append_left _ (by simpa using member))
    · intro c member
      exact List.mem_append_right _ (List.mem_cons_of_mem _ (by simpa using member))

theorem Domain.target_legible (d : Domain) (legible : d.Legible) (definition : Definition) (ref : TypeRef)
    (member : definition ∈ d.definitions) (target : definition.target? d.name = some ref) :
    OneLine ref.domain ∧ OneLine ref.name := by
  obtain ⟨raw, points, rfl⟩ := Option.map_eq_some_iff.mp target
  have line := legible.references definition member raw (definition.target_reference raw points)
  obtain ⟨domain, name⟩ := TypeRef.parse_subset raw d.name
  exact ⟨fun feed => (domain _ feed).elim line legible.name, fun feed => line (name _ feed)⟩

theorem Domain.filtered_events (d : Domain) (f : Filter) :
    (d.filtered f).eventList = d.eventList.filter f.keepsEvent := by
  rw [eventList, eventList, filtered]
  cases d.events <;> rfl

theorem Domain.filtered_definitions (d : Domain) (f : Filter) :
    ∀ definition ∈ (d.filtered f).definitions, definition ∈ d.definitions := by
  have properties : ∀ p ∈ (d.filtered f).properties, p ∈ d.properties := by
    intro p member
    rcases List.mem_append.mp member with before | payload
    · rcases List.mem_append.mp before with type | command
      · exact List.mem_append_left _ (List.mem_append_left _ type)
      · obtain ⟨c, among, own⟩ := List.mem_flatMap.mp command
        exact List.mem_append_left _ (List.mem_append_right _
          (List.mem_flatMap.mpr ⟨c, (List.mem_filter.mp among).1, own⟩))
    · obtain ⟨e, among, own⟩ := List.mem_flatMap.mp payload
      rw [d.filtered_events f] at among
      exact payload_property d e p (List.mem_filter.mp among).1 own
  intro definition member
  rcases List.mem_append.mp member with type | property
  · exact List.mem_append_left _ type
  · obtain ⟨p, among, rfl⟩ := List.mem_map.mp property
    exact d.property_definition p (properties p among)

theorem Domain.filtered_legible (d : Domain) (f : Filter) (legible : d.Legible) :
    (d.filtered f).Legible :=
  ⟨legible.name, legible.ids, fun definition member =>
    legible.references definition (d.filtered_definitions f definition member)⟩

end ProtocolStubs
