import Mathlib.Data.List.Nodup
import Mathlib.Logic.Relation
import ProtocolStubs.Proofs.Crate.RecursiveMark
import ProtocolStubs.Proofs.Crate.References

set_option autoImplicit false

namespace ProtocolStubs

def TypeRef.Defined (domains : List Domain) (ref : TypeRef) : Prop :=
  ∃ d ∈ domains, d.name = ref.domain ∧ ∃ t ∈ d.typeDefs, t.id = ref.name

instance (domains : List Domain) (ref : TypeRef) : Decidable (ref.Defined domains) :=
  inferInstanceAs (Decidable (∃ d ∈ domains, d.name = ref.domain ∧ ∃ t ∈ d.typeDefs, t.id = ref.name))

def ReferencesDefined (domains : List Domain) : Prop :=
  ∀ d ∈ domains, ∀ t ∈ d.typeDefs, ∀ ref ∈ t.targets d.name, ref.Defined domains

instance (domains : List Domain) : Decidable (ReferencesDefined domains) :=
  inferInstanceAs (Decidable
    (∀ d ∈ domains, ∀ t ∈ d.typeDefs, ∀ ref ∈ t.targets d.name, ref.Defined domains))

namespace Crate

def definedTypes (domains : List Domain) : List (Domain × TypeDef) :=
  domains.flatMap fun d => d.typeDefs.map (Prod.mk d)

def itemPaths (domains : List Domain) : List ItemPath :=
  (definedTypes domains).map fun entry => itemPath entry.1.name entry.2.id

def domainItems (index : TypeIndex) (d : Domain) : List (ItemPath × NamedType) :=
  (DataModules.ofDomain index d).types.map fun item => ((identifier d.name, item.name), item)

def namedItems (domains : List Domain) : List (ItemPath × NamedType) :=
  domains.flatMap (domainItems (.ofDomains domains))

theorem defined_type_member (domains : List Domain) (d : Domain) (t : TypeDef) (domain : d ∈ domains)
    (type : t ∈ d.typeDefs) : (d, t) ∈ definedTypes domains :=
  List.mem_flatMap.mpr ⟨d, domain, List.mem_map_of_mem type⟩

theorem named_item_member (domains : List Domain) (path : ItemPath) (item : NamedType) :
    (path, item) ∈ namedItems domains ↔ ∃ d ∈ domains, ∃ t ∈ d.typeDefs,
      itemPath d.name t.id = path ∧ NamedType.ofTypeDef (.ofDomains domains) d.name t = item := by
  simp only [namedItems, domainItems, DataModules.ofDomain, List.mem_flatMap, List.map_map, List.mem_map,
    Function.comp_apply, type_name_kept, Prod.mk.injEq, itemPath]

theorem filtered_items (doc : Document) (filter : Filter) :
    namedItems (doc.filteredDomains filter) = namedItems doc.domains := by
  rw [namedItems, filtered_index, Document.filteredDomains, List.flatMap_map]
  rfl

theorem path_unique (domains : List Domain) (distinct : (itemPaths domains).Nodup) (d g : Domain)
    (t u : TypeDef) (domain : d ∈ domains) (type : t ∈ d.typeDefs) (other : g ∈ domains)
    (another : u ∈ g.typeDefs) (same : itemPath d.name t.id = itemPath g.name u.id) : d = g ∧ t = u := by
  have member := defined_type_member domains d t domain type
  have second := defined_type_member domains g u other another
  exact Prod.mk.inj (List.inj_on_of_nodup_map distinct member second same)

def resolved (module : String) (path : Option String × String) : ItemPath := (path.1.getD module, path.2)

theorem path_resolved (domain : String) (ref : TypeRef) :
    resolved (identifier domain) (TypeExpr.pathOf domain ref) = itemPath ref.domain ref.name := by
  rw [resolved, TypeExpr.pathOf, itemPath]
  by_cases own : ref.domain = domain <;> simp [own]

-- By value a text holds the type at a path if it is that path, in an `Option` or not. The path of dynamic
-- values names no type of a schema, however the runtime is called.
def HoldsByValue (runtime module text : String) (path : ItemPath) : Prop :=
  ∃ name, Names module name path ∧ name ≠ valuePath runtime ∧
    (text = name ∨ text = "Option<" ++ name ++ ">")

-- One named type contains another by value if a row of it gives a type that holds the other so.
def Contains (runtime : String) (items : List (ItemPath × NamedType)) (holder held : ItemPath) : Prop :=
  (∃ other, (held, other) ∈ items) ∧ ∃ item, (holder, item) ∈ items ∧
    ∃ type, Gives runtime item type ∧ HoldsByValue runtime holder.1 type held

theorem shape_option (domain runtime inner : String) (shape : Shape) :
    (TypeExpr.ofShape domain shape).text runtime ≠ "Option<" ++ inner ++ ">" := by
  intro same
  have first := congrArg (fun s => s.toList.head?) same
  have last := congrArg (fun s => s.toList.getLast?) same
  have reference : ∀ ref, (TypeExpr.ofRef domain ref).text runtime ≠ "Option<" ++ inner ++ ">" := by
    intro ref same
    have names := TypeExpr.reference_names domain runtime ref
    rw [same] at names
    exact wrapped_unnamed _ "Option" (inner ++ ">") _ _ (by simp)
      (by simpa [String.append_assoc] using names)
  cases shape with
  | reference raw => exact reference _ same
  | arrayOf item => simp [TypeExpr.ofShape, TypeExpr.text] at first
  | arrayOfReference raw => simp [TypeExpr.ofShape, TypeExpr.text] at first
  | enumeration values => simp [TypeExpr.ofShape, TypeExpr.text] at first
  | primitive p =>
    cases p <;>
      simp [TypeExpr.ofShape, TypeExpr.ofPrimitive, TypeExpr.text, valuePath, List.getLast?_cons] at first last
  | unknown => simp [TypeExpr.ofShape, TypeExpr.text, valuePath, List.getLast?_cons] at last

theorem held_named (runtime module type text domain id : String)
    (written : text = type ∨ text = "Option<" ++ type ++ ">")
    (bare : ∀ inner, type ≠ "Option<" ++ inner ++ ">")
    (holds : HoldsByValue runtime module text (itemPath domain id)) :
    Names module type (itemPath domain id) ∧ type ≠ valuePath runtime := by
  obtain ⟨name, names, static, same⟩ := holds
  rcases written with rfl | rfl <;> rcases same with same | same
  · exact same ▸ ⟨names, static⟩
  · exact absurd same (bare name)
  · rw [← same] at names
    exact absurd names (by
      simpa [String.append_assoc] using wrapped_unnamed module "Option" (type ++ ">") domain id (by simp))
  · rw [(String.append_right_inj "Option<").mp ((String.append_left_inj ">").mp same)]
    exact ⟨names, static⟩

theorem field_held (index : TypeIndex) (runtime domain text other name : String) (d : Definition)
    (written : text = (TypeExpr.ofField index domain d).text runtime ∨
      text = "Option<" ++ (TypeExpr.ofField index domain d).text runtime ++ ">")
    (holds : HoldsByValue runtime (identifier domain) text (itemPath other name)) :
    ∃ ref, d.target? domain = some ref ∧ index.isRecord ref = false ∧
      itemPath other name = itemPath ref.domain ref.name := by
  rw [Definition.target?]
  have unboxed : TypeExpr.ofField index domain d = TypeExpr.ofShape domain d.shape → ∃ raw,
      d.shape = .reference raw ∧ itemPath other name =
        itemPath (TypeRef.parse raw domain).domain (TypeRef.parse raw domain).name := by
    intro same
    rw [same] at written
    obtain ⟨named, static⟩ := held_named runtime _ _ text other name written
      (fun inner => shape_option domain runtime inner d.shape) holds
    exact TypeExpr.shape_named domain runtime other name d.shape named static
  cases shape : d.shape with
  | reference raw =>
    by_cases record : index.isRecord (TypeRef.parse raw domain) = true
    · have boxed : (TypeExpr.ofField index domain d).text runtime =
          "Box" ++ "<" ++ ((TypeExpr.ofRef domain (TypeRef.parse raw domain)).text runtime ++ ">") :=
        String.toList_injective (by simp [TypeExpr.ofField, shape, record, TypeExpr.text])
      have box : ∀ inner body : String, "Box" ++ "<" ++ body ≠ "Option<" ++ inner ++ ">" := by
        intro inner body same
        have first := congrArg (fun s => s.toList.head?) same
        simp at first
      rw [boxed] at written
      obtain ⟨named, _⟩ := held_named runtime _ _ text other name written (fun inner => box inner _) holds
      exact absurd named (wrapped_unnamed _ "Box" _ other name (by simp))
    · obtain ⟨_, same, leads⟩ := unboxed (by simp [TypeExpr.ofField, shape, record, TypeExpr.ofShape])
      cases shape.symm.trans same
      exact ⟨_, rfl, Bool.eq_false_iff.mpr record, leads⟩
  | _ =>
    obtain ⟨_, same, _⟩ := unboxed (by simp only [TypeExpr.ofField, shape])
    cases shape.symm.trans same

theorem alias_holds_nothing (t : TypeDef) (runtime domain other name : String) :
    ¬HoldsByValue runtime (identifier domain) ((TypeExpr.ofDefinition domain t.definition).text runtime)
      (itemPath other name) := by
  intro holds
  obtain ⟨named, static⟩ := held_named runtime _ _ _ other name (.inl rfl)
    (fun inner => shape_option domain runtime inner t.definition.shape) holds
  obtain ⟨raw, shape, _⟩ := TypeExpr.shape_named domain runtime other name _ named static
  have array := (t.points_array raw).mp (.inl shape)
  rw [shape] at array
  cases array

theorem record_indexed (domains : List Domain) (d : Domain) (t : TypeDef) (domain : d ∈ domains)
    (type : t ∈ d.typeDefs) (record : t.properties.isSome) :
    (TypeIndex.ofDomains domains).isRecord ⟨d.name, t.id⟩ = true := by
  rw [TypeIndex.isRecord, List.contains_iff_mem]
  refine List.mem_flatMap.mpr ⟨d, domain, List.mem_map.mpr ⟨t, ?_, rfl⟩⟩
  exact List.mem_filter.mpr ⟨type, record⟩

section Containment

variable (runtime : String) (domains : List Domain) (defined : ReferencesDefined domains)

-- Only records hold anything by value, and what they hold are references outside of boxes.
theorem holder_record (holder : ItemPath) (other name : String)
    (contains : Contains runtime (namedItems domains) holder (itemPath other name)) :
    ∃ d ∈ domains, ∃ t ∈ d.typeDefs, itemPath d.name t.id = holder ∧ ∃ properties,
      t.properties = some properties ∧ ∃ p ∈ properties, ∃ ref, p.definition.target? d.name = some ref ∧
        (TypeIndex.ofDomains domains).isRecord ref = false ∧
        itemPath other name = itemPath ref.domain ref.name := by
  obtain ⟨_, item, member, type, gives, holds⟩ := contains
  obtain ⟨d, domain, t, stands, rfl, rfl⟩ := (named_item_member domains holder item).mp member
  refine ⟨d, domain, t, stands, rfl, ?_⟩
  rw [item_module] at holds
  rw [NamedType.ofTypeDef] at gives
  cases record : t.properties with
  | some properties =>
    simp only [record] at gives
    obtain ⟨f, among, rfl⟩ := (record_gives runtime type _).mp gives
    obtain ⟨p, property, rfl⟩ := List.mem_map.mp among
    refine ⟨properties, rfl, p, property, ?_⟩
    refine field_held _ runtime d.name _ other name p.definition ?_ holds
    rw [Field.typeText]
    split
    · exact .inr rfl
    · exact .inl rfl
  | none =>
    simp only [record] at gives
    rw [(alias_gives runtime type _ _ _).mp gives] at holds
    exact absurd holds (alias_holds_nothing t runtime d.name other name)

theorem contained_item (holder held : ItemPath) (contains : Contains runtime (namedItems domains) holder held) :
    ∃ other name, held = itemPath other name := by
  obtain ⟨⟨item, member⟩, _⟩ := contains
  obtain ⟨d, _, t, _, path, _⟩ := (named_item_member domains held item).mp member
  exact ⟨d.name, t.id, path.symm⟩

include defined in
theorem held_alias (holder held : ItemPath) (contains : Contains runtime (namedItems domains) holder held) :
    ∃ d ∈ domains, ∃ t ∈ d.typeDefs, itemPath d.name t.id = held ∧ t.properties = none := by
  obtain ⟨other, name, rfl⟩ := contained_item runtime domains holder held contains
  obtain ⟨d, domain, t, type, _, properties, record, p, property, ref, target, plain, leads⟩ :=
    holder_record runtime domains holder other name contains
  have refers : ref ∈ t.targets d.name := by
    rw [TypeDef.targets, record]
    exact List.mem_filterMap.mpr ⟨p, property, target⟩
  obtain ⟨g, among, named, u, another, id⟩ := defined d domain t type ref refers
  refine ⟨g, among, u, another, by rw [leads, named, id], ?_⟩
  by_contra some
  have indexed := record_indexed domains g u among another (Option.isSome_iff_ne_none.mpr some)
  rw [named, id] at indexed
  exact Bool.false_ne_true (plain.symm.trans indexed)

include defined in
theorem held_holds_nothing (distinct : (itemPaths domains).Nodup) (holder held : ItemPath)
    (contains : Contains runtime (namedItems domains) holder held) (next : ItemPath) :
    ¬Contains runtime (namedItems domains) held next := by
  intro further
  obtain ⟨d, domain, t, type, path, plain⟩ := held_alias runtime domains defined holder held contains
  obtain ⟨other, name, rfl⟩ := contained_item runtime domains held next further
  obtain ⟨g, among, u, another, again, properties, record, _⟩ :=
    holder_record runtime domains held other name further
  obtain ⟨rfl, rfl⟩ := path_unique domains distinct d g t u domain type among another (path.trans again.symm)
  rw [plain] at record
  cases record

end Containment

theorem containment_acyclic (doc : Document) (filter : Filter) (runtime : String)
    (distinct : (itemPaths doc.domains).Nodup) (defined : ReferencesDefined doc.domains) (path : ItemPath) :
    ¬Relation.TransGen (Contains runtime (namedItems (doc.filteredDomains filter))) path path := by
  intro cycle
  rw [filtered_items] at cycle
  have ends := held_holds_nothing runtime doc.domains defined distinct
  obtain ⟨next, first, rest⟩ := Relation.TransGen.head'_iff.mp cycle
  rcases rest.cases_head with rfl | ⟨after, second, _⟩
  · exact ends _ _ first _ first
  · exact ends _ _ first _ second

def linkField (name reference : String) : Property :=
  ⟨name, none, none, some reference, none, none, some true, none, none⟩

def branchType : TypeDef :=
  ⟨"Node", none, none, none, some [linkField "parent" "Node", linkField "rules" "CSS.Rules"], none, none, none⟩

def styleType : TypeDef :=
  ⟨"Style", none, none, none, some [linkField "owner" "DOM.Node", linkField "next" "Style"], none, none, none⟩

def treeDomain : Domain := ⟨"DOM", none, none, none, none, some [branchType], [], none⟩

-- A node has a parent, and rules that list nodes; a style has an owner and a further style.
def treeTypes : Document :=
  ⟨none, [treeDomain, ⟨"CSS", none, none, none, none, some [rulesType, styleType], [], none⟩]⟩

theorem tree_contains :
    Contains "cdp_session" (namedItems treeTypes.domains) ("dom", "Node") ("css", "Rules") := by
  have holder := (named_item_member treeTypes.domains ("dom", "Node") _).mpr
    ⟨treeDomain, List.mem_cons_self, branchType, List.mem_cons_self, by decide, rfl⟩
  have held := (named_item_member treeTypes.domains ("css", "Rules") _).mpr
    ⟨_, List.mem_cons_of_mem _ List.mem_cons_self, rulesType, List.mem_cons_self, by decide, rfl⟩
  have row : Gives "cdp_session" (.ofTypeDef (.ofDomains treeTypes.domains) "DOM" branchType)
      "Option<css::types::Rules>" :=
    (record_gives _ _ _).mpr ⟨_, List.mem_map_of_mem (List.mem_cons_of_mem _ List.mem_cons_self), by decide⟩
  exact ⟨⟨_, held⟩, _, holder, _, row, "css::types::Rules", .inl (by decide), by decide, .inr (by decide)⟩

theorem tree_types_finite :
    (itemPaths treeTypes.domains).Nodup ∧ ReferencesDefined treeTypes.domains ∧
      Contains "cdp_session" (namedItems treeTypes.domains) ("dom", "Node") ("css", "Rules") ∧
      ∀ path, ¬Relation.TransGen (Contains "cdp_session" (namedItems (treeTypes.filteredDomains .none)))
        path path := by
  have distinct : (itemPaths treeTypes.domains).Nodup := by decide
  have defined : ReferencesDefined treeTypes.domains := by decide
  exact ⟨distinct, defined, tree_contains,
    containment_acyclic treeTypes .none "cdp_session" distinct defined⟩

end Crate

end ProtocolStubs
