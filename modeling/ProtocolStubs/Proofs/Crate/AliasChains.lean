import Mathlib.Data.Fintype.Card
import Mathlib.Data.Set.Finite.List
import ProtocolStubs.Proofs.Crate.NamedItems

set_option autoImplicit false

namespace ProtocolStubs

open Relation

section Ending

variable {α : Type} (r : α → α → Prop)

theorem no_cycle_below (a : α) (ends : Acc (flip r) a) :
    ∀ b, ReflTransGen r a b → ¬TransGen r b b := by
  induction ends with
  | intro a _ ih =>
    intro b path cycle
    rcases path.cases_head with rfl | ⟨next, first, rest⟩
    · obtain ⟨next, first, rest⟩ := TransGen.head'_iff.mp cycle
      exact ih next first a rest cycle
    · exact ih next first b rest cycle

abbrev Below (nodes : List α) (a : α) := { b : α // b ∈ nodes ∧ ReflTransGen r a b }

theorem below_well_founded (nodes : List α) (a : α)
    (acyclic : ∀ b, ReflTransGen r a b → ¬TransGen r b b) :
    WellFounded fun later earlier : Below r nodes a => TransGen r earlier.1 later.1 := by
  have : Finite (Below r nodes a) := (nodes.finite_toSet.subset fun _ member => member.1).to_subtype
  have : IsTrans (Below r nodes a) fun later earlier => TransGen r earlier.1 later.1 :=
    ⟨fun _ _ _ last first => first.trans last⟩
  have : Std.Irrefl fun later earlier : Below r nodes a => TransGen r earlier.1 later.1 :=
    ⟨fun b => acyclic b.1 b.2.2⟩
  exact Finite.wellFounded_of_trans_of_irrefl _

theorem ends_acyclic (nodes : List α) (edges : ∀ b c, r b c → b ∈ nodes) (a : α) :
    Acc (flip r) a ↔ ∀ b, ReflTransGen r a b → ¬TransGen r b b := by
  refine ⟨no_cycle_below r a, fun acyclic => ?_⟩
  have edgeless : ∀ b, b ∉ nodes → Acc (flip r) b := fun b missing =>
    Acc.intro b fun c edge => absurd (edges b c edge) missing
  have below : ∀ b : Below r nodes a, Acc (flip r) b.1 := by
    intro b
    induction b using (below_well_founded r nodes a acyclic).induction with
    | h b ih =>
      refine Acc.intro _ fun c edge => ?_
      by_cases member : c ∈ nodes
      · exact ih ⟨c, member, b.2.2.tail edge⟩ (.single edge)
      · exact edgeless c member
  by_cases member : a ∈ nodes
  · exact below ⟨a, member, .refl⟩
  · exact edgeless a member

end Ending

namespace Crate

-- From an alias, whatever path is followed ends at a record, or where no type is named any more.
inductive Settles (items : List (ItemPath × NamedType)) : ItemPath → Prop where
  | record (path : ItemPath) (r : Record) (stands : (path, .record r) ∈ items) : Settles items path
  | alias (path : ItemPath) (doc : List String) (name : String) (type : TypeExpr)
      (stands : (path, .alias doc name type) ∈ items)
      (ends : ∀ named ∈ type.paths, Settles items (resolved path.1 named)) : Settles items path

-- A type without properties that is an array of another.
inductive Lists (domains : List Domain) : TypeRef → TypeRef → Prop where
  | items (d : Domain) (t : TypeDef) (raw : String) (domain : d ∈ domains) (type : t ∈ d.typeDefs)
      (plain : t.properties = none) (array : t.definition.shape = .arrayOfReference raw) :
      Lists domains ⟨d.name, t.id⟩ (TypeRef.parse raw d.name)

theorem lists_target (domains : List Domain) (ref next : TypeRef) :
    Lists domains ref next ↔ ∃ d ∈ domains, ∃ t ∈ d.typeDefs, ref = ⟨d.name, t.id⟩ ∧
      t.properties = none ∧ t.definition.target? d.name = some next := by
  constructor
  · rintro ⟨d, t, raw, domain, type, plain, array⟩
    exact ⟨d, domain, t, type, rfl, plain, (t.definition.target_points d.name _).mpr ⟨raw, .inr array, rfl⟩⟩
  · rintro ⟨d, domain, t, type, rfl, plain, target⟩
    obtain ⟨raw, points, rfl⟩ := (t.definition.target_points d.name next).mp target
    exact .items d t raw domain type plain ((t.points_array raw).mp points)

theorem alias_paths (domain : String) (t : TypeDef) :
    (TypeExpr.ofDefinition domain t.definition).paths =
      ((t.definition.target? domain).map (TypeExpr.pathOf domain)).toList :=
  TypeExpr.rendered_paths ⟨[], []⟩ domain t.definition _ (.inl rfl)

section Chains

variable (domains : List Domain) (distinct : (itemPaths domains).Nodup) (defined : ReferencesDefined domains)

include defined in
theorem lists_defined (ref next : TypeRef) (lists : Lists domains ref next) : next.Defined domains := by
  obtain ⟨d, domain, t, type, rfl, plain, target⟩ := (lists_target domains ref next).mp lists
  refine defined d domain t type next ?_
  rw [TypeDef.targets, plain]
  exact Option.mem_toList.mpr target

include distinct in
theorem lists_named (ref next : TypeRef) (lists : Lists domains ref next) (item : NamedType)
    (stands : (itemPath ref.domain ref.name, item) ∈ namedItems domains) :
    ∃ doc name type, item = .alias doc name type ∧ ∃ named ∈ type.paths,
      resolved (itemPath ref.domain ref.name).1 named = itemPath next.domain next.name := by
  obtain ⟨d, domain, t, type, rfl, plain, target⟩ := (lists_target domains ref next).mp lists
  obtain ⟨g, other, u, another, same, rfl⟩ := (named_item_member domains _ item).mp stands
  obtain ⟨rfl, rfl⟩ := path_unique domains distinct g d u t other another domain type same
  rw [NamedType.ofTypeDef, plain]
  refine ⟨_, _, _, rfl, TypeExpr.pathOf g.name next, ?_, ?_⟩
  · rw [alias_paths, target]
    exact List.mem_cons_self
  · rw [item_module, path_resolved]

include distinct in
theorem settled_ends (path : ItemPath) (settles : Settles (namedItems domains) path) :
    ∀ ref, itemPath ref.domain ref.name = path → Acc (flip (Lists domains)) ref := by
  induction settles with
  | record path r stands =>
    rintro ref rfl
    refine Acc.intro ref fun next lists => ?_
    obtain ⟨_, _, _, same, _⟩ := lists_named domains distinct ref next lists _ stands
    cases same
  | «alias» path doc name type stands _ ih =>
    rintro ref rfl
    refine Acc.intro ref fun next lists => ?_
    obtain ⟨_, _, _, same, named, member, leads⟩ := lists_named domains distinct ref next lists _ stands
    cases same
    exact ih named member next leads.symm

include defined in
theorem ending_settles (ref : TypeRef) (ends : Acc (flip (Lists domains)) ref) :
    ref.Defined domains → Settles (namedItems domains) (itemPath ref.domain ref.name) := by
  induction ends with
  | intro ref _ ih =>
    rintro ⟨d, domain, named, t, type, id⟩
    have stands := (named_item_member domains (itemPath ref.domain ref.name) _).mpr
      ⟨d, domain, t, type, by rw [named, id], rfl⟩
    rw [NamedType.ofTypeDef] at stands
    cases record : t.properties with
    | some properties =>
      rw [record] at stands
      exact .record _ _ stands
    | none =>
      rw [record] at stands
      refine .alias _ _ _ _ stands fun path member => ?_
      rw [alias_paths] at member
      obtain ⟨next, target, rfl⟩ := Option.map_eq_some_iff.mp (Option.mem_toList.mp member)
      have lists : Lists domains ref next := (lists_target domains ref next).mpr
        ⟨d, domain, t, type, by rw [named, id], record, target⟩
      rw [item_module, ← named, path_resolved]
      exact ih next lists (lists_defined domains defined ref next lists)

end Chains

-- An alias names the value itself, so a chain of aliases goes from an array type to its items, and on
-- while these are array types; it ends just if that comes back to no type.
theorem alias_settles_iff (doc : Document) (filter : Filter) (distinct : (itemPaths doc.domains).Nodup)
    (defined : ReferencesDefined doc.domains) (ref : TypeRef) (names : ref.Defined doc.domains) :
    Settles (namedItems (doc.filteredDomains filter)) (itemPath ref.domain ref.name) ↔
      ∀ next, ReflTransGen (Lists doc.domains) ref next → ¬TransGen (Lists doc.domains) next next := by
  rw [filtered_items]
  have edges : ∀ source target, Lists doc.domains source target →
      source ∈ (definedTypes doc.domains).map fun entry => ⟨entry.1.name, entry.2.id⟩ := by
    rintro _ _ ⟨d, t, _, domain, type, _, _⟩
    exact List.mem_map.mpr ⟨(d, t), defined_type_member doc.domains d t domain type, rfl⟩
  rw [← ends_acyclic (Lists doc.domains) _ edges ref]
  constructor
  · intro settles
    exact settled_ends doc.domains distinct _ settles ref rfl
  · intro ends
    exact ending_settles doc.domains defined ref ends names

theorem tree_types_listed (source target : TypeRef) (lists : Lists treeTypes.domains source target) :
    source = ⟨"CSS", "Rules"⟩ ∧ target = ⟨"DOM", "Node"⟩ := by
  obtain ⟨d, domain, t, type, rfl, plain, points⟩ := (lists_target _ source target).mp lists
  have only : ∀ d ∈ treeTypes.domains, ∀ t ∈ d.typeDefs, t.properties = none →
      (⟨d.name, t.id⟩ : TypeRef) = ⟨"CSS", "Rules"⟩ ∧
        t.definition.target? d.name = some ⟨"DOM", "Node"⟩ := by decide
  obtain ⟨same, listed⟩ := only d domain t type plain
  exact ⟨same, Option.some.inj (points.symm.trans listed)⟩

theorem tree_aliases_settle :
    (itemPaths treeTypes.domains).Nodup ∧ ReferencesDefined treeTypes.domains ∧
      TypeRef.Defined treeTypes.domains ⟨"CSS", "Rules"⟩ ∧
      Settles (namedItems (treeTypes.filteredDomains .none)) (itemPath "CSS" "Rules") := by
  have distinct : (itemPaths treeTypes.domains).Nodup := by decide
  have defined : ReferencesDefined treeTypes.domains := by decide
  have names : TypeRef.Defined treeTypes.domains ⟨"CSS", "Rules"⟩ := by decide
  refine ⟨distinct, defined, names, ?_⟩
  refine (alias_settles_iff treeTypes .none distinct defined ⟨"CSS", "Rules"⟩ names).mpr fun next _ cycle => ?_
  obtain ⟨_, first, _⟩ := TransGen.head'_iff.mp cycle
  obtain ⟨_, _, last⟩ := TransGen.tail'_iff.mp cycle
  exact absurd ((tree_types_listed _ _ first).1.symm.trans (tree_types_listed _ _ last).2) (by decide)

def ownItemsType : TypeDef := ⟨"A", none, some "array", none, none, some ⟨none, some "A"⟩, none, none⟩

def ownItemsDomain : Domain := ⟨"D", none, none, none, none, some [ownItemsType], [], none⟩

def ownItems : Document := ⟨none, [ownItemsDomain]⟩

theorem own_items_unsettled :
    (qualifiedTypes ownItems.domains).Nodup ∧ (itemPaths ownItems.domains).Nodup ∧
      ReferencesDefined ownItems.domains ∧
      ¬Settles (namedItems (ownItems.filteredDomains .none)) (itemPath "D" "A") := by
  have distinct : (itemPaths ownItems.domains).Nodup := by decide
  refine ⟨by decide, distinct, by decide, fun settles => ?_⟩
  have lists : Lists ownItems.domains ⟨"D", "A"⟩ ⟨"D", "A"⟩ :=
    .items ownItemsDomain ownItemsType "A" List.mem_cons_self List.mem_cons_self rfl (by decide)
  have ends := settled_ends ownItems.domains distinct _ settles ⟨"D", "A"⟩ rfl
  exact no_cycle_below _ _ ends _ .refl (.single lists)

end Crate

end ProtocolStubs
