import Mathlib.Data.List.Forall2
import ProtocolStubs.Crate.Record
import ProtocolStubs.Generation.Generate
import ProtocolStubs.Proofs.Crate.Reachability
import ProtocolStubs.Proofs.Lookup

set_option autoImplicit false

namespace ProtocolStubs

def Definition.PointsAt (d : Definition) (raw : String) : Prop :=
  d.shape = .reference raw ∨ d.shape = .arrayOfReference raw

theorem Definition.target_points (d : Definition) (domain : String) (target : TypeRef) :
    d.target? domain = some target ↔ ∃ raw, d.PointsAt raw ∧ TypeRef.parse raw domain = target := by
  unfold target? PointsAt
  cases d.shape <;> simp [Shape.target?]

theorem TypeDef.points_array (t : TypeDef) (raw : String) :
    t.definition.PointsAt raw ↔ t.definition.shape = .arrayOfReference raw := by
  constructor
  · rintro (reference | array)
    · rw [Definition.shape] at reference
      change (t.items.bind Definition.itemsShape?).getD t.definition.plainShape = _ at reference
      cases items : t.items.bind Definition.itemsShape? with
      | none =>
        rw [items, Option.getD_none, Definition.plainShape] at reference
        split at reference <;> cases reference
      | some shape =>
        rw [items, Option.getD_some] at reference
        subst reference
        obtain ⟨item, _, found⟩ := Option.bind_eq_some_iff.mp items
        rw [Definition.itemsShape?] at found
        split at found <;> cases found
    · exact array
  · exact .inr

namespace Crate

-- Types by their qualified names: a record refers by its fields, any other type by its items.
inductive Refers (domains : List Domain) : String → String → Prop where
  | field (d : Domain) (t : TypeDef) (properties : List Property) (p : Property) (raw : String)
      (domain : d ∈ domains) (type : t ∈ d.typeDefs) (record : t.properties = some properties)
      (property : p ∈ properties) (points : p.definition.PointsAt raw) :
      Refers domains (qualified d.name t.id) (TypeRef.parse raw d.name).qualifiedName
  | items (d : Domain) (t : TypeDef) (raw : String) (domain : d ∈ domains) (type : t ∈ d.typeDefs)
      (plain : t.properties = none) (points : t.definition.shape = .arrayOfReference raw) :
      Refers domains (qualified d.name t.id) (TypeRef.parse raw d.name).qualifiedName

def qualifiedTypes (domains : List Domain) : List String :=
  domains.flatMap fun d => d.typeDefs.map fun t => qualified d.name t.id

namespace TypeGraph

theorem graph_names (domains : List Domain) :
    (ofDomains domains).map Prod.fst = (qualifiedTypes domains).reverse := by
  rw [ofDomains, List.map_reverse, List.map_flatMap, qualifiedTypes]
  simp only [ofDomain, List.map_map]
  rfl

theorem graph_member (domains : List Domain) (name : String) (next : List String) :
    (name, next) ∈ ofDomains domains ↔ ∃ d ∈ domains, ∃ t ∈ d.typeDefs,
      qualified d.name t.id = name ∧ (t.targets d.name).map TypeRef.qualifiedName = next := by
  simp only [ofDomains, List.mem_reverse, List.mem_flatMap, ofDomain, List.mem_map, Prod.mk.injEq]

theorem targets_refers (domains : List Domain) (d : Domain) (t : TypeDef) (target : TypeRef)
    (domain : d ∈ domains) (type : t ∈ d.typeDefs) (member : target ∈ t.targets d.name) :
    Refers domains (qualified d.name t.id) target.qualifiedName := by
  rw [TypeDef.targets] at member
  cases record : t.properties with
  | some properties =>
    rw [record] at member
    obtain ⟨p, property, found⟩ := List.mem_filterMap.mp member
    obtain ⟨raw, points, rfl⟩ := (p.definition.target_points d.name target).mp found
    exact .field d t properties p raw domain type record property points
  | none =>
    rw [record] at member
    obtain ⟨raw, points, rfl⟩ :=
      (t.definition.target_points d.name target).mp (Option.mem_toList.mp member)
    exact .items d t raw domain type record ((t.points_array raw).mp points)

theorem refers_targets (domains : List Domain) (source target : String)
    (refers : Refers domains source target) : ∃ d ∈ domains, ∃ t ∈ d.typeDefs,
      qualified d.name t.id = source ∧
        target ∈ (t.targets d.name).map TypeRef.qualifiedName := by
  cases refers with
  | field d t properties p raw domain type record property points =>
    refine ⟨d, domain, t, type, rfl, List.mem_map.mpr ⟨TypeRef.parse raw d.name, ?_, rfl⟩⟩
    rw [TypeDef.targets, record]
    exact List.mem_filterMap.mpr
      ⟨p, property, (p.definition.target_points d.name _).mpr ⟨raw, points, rfl⟩⟩
  | items d t raw domain type plain points =>
    refine ⟨d, domain, t, type, rfl, List.mem_map.mpr ⟨TypeRef.parse raw d.name, ?_, rfl⟩⟩
    rw [TypeDef.targets, plain]
    exact Option.mem_toList.mpr
      ((t.definition.target_points d.name _).mpr ⟨raw, .inr points, rfl⟩)

theorem leads_refers (domains : List Domain) (source target : String)
    (distinct : (qualifiedTypes domains).Nodup) :
    Leads (ofDomains domains) source target ↔ Refers domains source target := by
  have names : ((ofDomains domains).map Prod.fst).Nodup := by
    rw [graph_names]
    exact (List.reverse_perm _).nodup_iff.mpr distinct
  constructor
  · rintro ⟨next, found, member⟩
    obtain ⟨d, domain, t, type, rfl, rfl⟩ :=
      (graph_member domains source next).mp ((lookup_distinct _ source next names).mp found)
    obtain ⟨ref, among, rfl⟩ := List.mem_map.mp member
    exact targets_refers domains d t ref domain type among
  · intro refers
    obtain ⟨d, domain, t, type, same, member⟩ := refers_targets domains source target refers
    refine ⟨_, (lookup_distinct _ source _ names).mpr ?_, member⟩
    exact (graph_member domains source _).mpr ⟨d, domain, t, type, same, rfl⟩

end TypeGraph

def recursiveMark : Layout.Code := .line "#[facet(recursive_type)]"

theorem joined_first (separator first : String) (rest : List String) :
    ∃ tail, (Text.joinWith separator (first :: rest)).toList = first.toList ++ tail := by
  rw [Text.joinWith, String.toList_ofList, List.map_cons]
  cases rest with
  | nil => exact ⟨[], by simp [List.intercalate]⟩
  | cons second rest =>
    exact ⟨separator.toList ++ List.intercalate separator.toList ((second :: rest).map String.toList),
      by simp [List.intercalate]⟩

-- Of the attribute list, the mark could only be told apart at its third letter.
theorem attribute_line (first : String) (rest : List String)
    (known : first = "default" ∨ ∃ wire, first = "rename = " ++ wire) :
    "#[facet(" ++ Text.joinWith ", " (first :: rest) ++ ")]" ≠ "#[facet(recursive_type)]" := by
  intro same
  obtain ⟨tail, joined⟩ := joined_first ", " first rest
  have chars := congrArg (fun line : String => line.toList[10]?) same
  simp only [String.toList_append, joined] at chars
  rcases known with rfl | ⟨wire, rfl⟩
  · exact absurd chars (by simp)
  · rw [String.toList_append] at chars
    exact absurd chars (by simp)

theorem field_attributes (f : Field) (first : String) (rest : List String)
    (same : f.attributes = first :: rest) :
    first = "default" ∨ ∃ wire, first = "rename = " ++ wire := by
  rw [Field.attributes] at same
  split at same
  · cases same
    exact .inl rfl
  · rw [List.nil_append] at same
    obtain ⟨wire, _, renames⟩ := List.mem_map.mp (same ▸ List.mem_cons_self :
      first ∈ f.renamed?.toList.map fun wire => "rename = " ++ Text.quote wire)
    exact .inr ⟨Text.quote wire, renames.symm⟩

theorem doc_line (lines : List String) : recursiveMark ∉ Layout.Comment.slash lines := by
  intro member
  obtain ⟨line, _, same⟩ := List.mem_map.mp member
  have text : Layout.Pen.commentLine "///" line = "#[facet(recursive_type)]" :=
    Layout.Code.line.inj same
  have chars := congrArg (fun text : String => text.toList.head?) text
  rw [Layout.Pen.commentLine] at chars
  split at chars
  · exact absurd chars (by decide)
  · simp only [String.toList_append] at chars
    exact absurd chars (by simp)

theorem field_mark (runtime : String) (f : Field) :
    recursiveMark ∈ f.code runtime ↔ f.recursive = true := by
  have attributes : recursiveMark ∉ (if f.attributes.isEmpty then []
      else [Layout.Code.line ("#[facet(" ++ Text.joinWith ", " f.attributes ++ ")]")]) := by
    cases given : f.attributes with
    | nil => simp
    | cons first rest =>
      intro member
      have same := Layout.Code.line.inj (List.mem_singleton.mp member)
      exact attribute_line first rest (field_attributes f first rest given) same.symm
  have declaration : recursiveMark ≠
      .line ("pub " ++ f.name ++ ": " ++ f.typeText runtime ++ ",") := by
    intro same
    have chars := congrArg (fun line : String => line.toList.head?) (Layout.Code.line.inj same)
    simp only [String.toList_append] at chars
    exact absurd chars (by simp)
  rw [Field.code, List.mem_append, List.mem_append, List.mem_append]
  constructor
  · rintro (((doc | listed) | mark) | last)
    · exact absurd doc (doc_line f.doc)
    · exact absurd listed attributes
    · by_contra silent
      rw [if_neg silent] at mark
      cases mark
    · exact absurd (List.mem_singleton.mp last) declaration
  · intro recursive
    rw [if_pos recursive]
    exact .inl (.inr List.mem_cons_self)

theorem filtered_graph (doc : Document) (filter : Filter) :
    TypeGraph.ofDomains (doc.filteredDomains filter) = TypeGraph.ofDomains doc.domains := by
  rw [TypeGraph.ofDomains, Document.filteredDomains, List.flatMap_map]
  rfl

theorem filtered_index (doc : Document) (filter : Filter) :
    TypeIndex.ofDomains (doc.filteredDomains filter) = .ofDomains doc.domains := by
  rw [TypeIndex.ofDomains, filtered_graph, Document.filteredDomains, List.flatMap_map]
  rfl

theorem recursive_field (index : TypeIndex) (domain owner : String) (p : Property) :
    (Field.ofProperty index domain (some owner) p).recursive = true ↔
      ∃ target, p.definition.target? domain = some target ∧
        index.graph.closesCycle owner target = true := by
  cases found : p.definition.target? domain with
  | none => simp [Field.ofProperty, found]
  | some target => simp [Field.ofProperty, found]

theorem property_mark (domains : List Domain) (index : TypeIndex) (runtime domain owner : String)
    (p : Property) (graph : index.graph = .ofDomains domains)
    (distinct : (qualifiedTypes domains).Nodup) :
    recursiveMark ∈ (Field.ofProperty index domain (some owner) p).code runtime ↔
      ∃ raw, p.definition.PointsAt raw ∧
        Relation.ReflTransGen (Refers domains) (TypeRef.parse raw domain).qualifiedName owner := by
  have refers : TypeGraph.Leads (.ofDomains domains) = Refers domains := by
    funext source target
    exact propext (TypeGraph.leads_refers domains source target distinct)
  rw [field_mark, recursive_field, graph]
  constructor
  · rintro ⟨target, found, closes⟩
    obtain ⟨raw, points, rfl⟩ := (p.definition.target_points domain target).mp found
    exact ⟨raw, points, refers ▸ (TypeGraph.closes_cycle_reaches _ owner _).mp closes⟩
  · rintro ⟨raw, points, path⟩
    exact ⟨_, (p.definition.target_points domain _).mpr ⟨raw, points, rfl⟩,
      (TypeGraph.closes_cycle_reaches _ owner _).mpr (refers ▸ path)⟩

def rulesField : Property :=
  ⟨"rules", none, none, some "CSS.Rules", none, none, none, none, none⟩

def nameField : Property :=
  ⟨"name", none, some "string", none, none, none, none, none, none⟩

def nodeType : TypeDef := ⟨"Node", none, none, none, some [rulesField, nameField], none, none, none⟩

def rulesType : TypeDef :=
  ⟨"Rules", none, none, none, none, some ⟨none, some "DOM.Node"⟩, none, none⟩

def mutualTypes : Document :=
  ⟨none, [⟨"DOM", none, none, none, none, some [nodeType], [], none⟩,
    ⟨"CSS", none, none, none, none, some [rulesType], [], none⟩]⟩

theorem recursive_mark_exact (doc : Document) (filter : Filter) (runtime : String)
    (distinct : (qualifiedTypes doc.domains).Nodup) :
    let index := TypeIndex.ofDomains (doc.filteredDomains filter)
    (∀ d ∈ doc.domains, ∀ t ∈ d.typeDefs, ∀ properties, t.properties = some properties →
      ∃ record, .record record ∈ (DataModules.ofDomain index (d.filtered filter)).types ∧
        NamedType.ofTypeDef index d.name t = .record record ∧
        List.Forall₂ (fun p field => recursiveMark ∈ Field.code runtime field ↔
            ∃ raw, p.definition.PointsAt raw ∧
              Relation.ReflTransGen (Refers doc.domains) (TypeRef.parse raw d.name).qualifiedName
                (qualified d.name t.id))
          properties record.fields) ∧
      ∀ (g : TypeGraph) (owner : String) (target : TypeRef), ∃ steps ≤ g.size + 2,
        (TypeGraph.Search.step g owner)^[steps] (.looking [] [target.qualifiedName]) =
          .answered (g.closesCycle owner target) := by
  intro index
  refine ⟨?_, TypeGraph.search_halts⟩
  intro d domain t type properties record
  have graph : index.graph = .ofDomains doc.domains := filtered_graph doc filter
  have written : NamedType.ofTypeDef index d.name t =
      .record (.ofProperties index d.name (some (qualified d.name t.id)) t.id
        (t.notes.lines Layout.Comment.slashTag) properties) := by
    rw [NamedType.ofTypeDef, record]
  refine ⟨_, List.mem_map.mpr ⟨t, type, written⟩, written, ?_⟩
  apply List.forall₂_map_right_iff.mpr
  apply List.forall₂_same.mpr
  exact fun p _ => property_mark doc.domains index runtime d.name _ p graph distinct

theorem mutual_types_lead : Relation.ReflTransGen (Refers mutualTypes.domains)
    (TypeRef.parse "CSS.Rules" "DOM").qualifiedName (qualified "DOM" "Node") := by
  have leads : Refers mutualTypes.domains _ _ := .items
    ⟨"CSS", none, none, none, none, some [rulesType], [], none⟩ rulesType "DOM.Node" (by decide)
    (by decide) rfl (by decide)
  have source : qualified "CSS" rulesType.id = (TypeRef.parse "CSS.Rules" "DOM").qualifiedName := by
    decide
  have target : (TypeRef.parse "DOM.Node" "CSS").qualifiedName = qualified "DOM" "Node" := by decide
  rw [target] at leads
  exact .single (source ▸ leads)

theorem mutual_types_marked :
    (qualifiedTypes mutualTypes.domains).Nodup ∧
      ∃ record, NamedType.ofTypeDef (.ofDomains (mutualTypes.filteredDomains .none)) "DOM" nodeType =
          .record record ∧
        List.Forall₂ (fun p field => recursiveMark ∈ Field.code "cdp" field ↔ p = rulesField)
          [rulesField, nameField] record.fields := by
  have distinct : (qualifiedTypes mutualTypes.domains).Nodup := by decide
  obtain ⟨record, _, written, marks⟩ := (recursive_mark_exact mutualTypes .none "cdp" distinct).1
    ⟨"DOM", none, none, none, none, some [nodeType], [], none⟩ (by decide) nodeType (by decide)
    [rulesField, nameField] rfl
  refine ⟨distinct, record, written, ?_⟩
  generalize record.fields = fields at marks
  obtain _ | ⟨first, _ | ⟨second, _ | _⟩⟩ := marks
  refine .cons (first.trans ?_) (.cons (second.trans ?_) .nil)
  · exact iff_of_true ⟨"CSS.Rules", .inl (by decide), mutual_types_lead⟩ rfl
  · refine iff_of_false ?_ (by decide)
    rintro ⟨raw, reference | array, _⟩
    · exact absurd reference (by rw [show nameField.definition.shape = .primitive .string by decide]; simp)
    · exact absurd array (by rw [show nameField.definition.shape = .primitive .string by decide]; simp)

end Crate

end ProtocolStubs
