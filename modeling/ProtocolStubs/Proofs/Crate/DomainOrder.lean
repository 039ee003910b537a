import ProtocolStubs.Proofs.Crate.References
import ProtocolStubs.Proofs.Crate.RecursiveMark

set_option autoImplicit false

namespace ProtocolStubs.Crate

namespace TypeGraph

theorem shuffled_targets (g h : TypeGraph) (name : String) (same : g.Perm h)
    (distinct : (g.map Prod.fst).Nodup) : g.targets? name = h.targets? name := by
  have others : (h.map Prod.fst).Nodup := (same.map Prod.fst).nodup_iff.mp distinct
  refine Option.ext fun next => ?_
  rw [targets?, targets?, lookup_distinct g name next distinct, lookup_distinct h name next others]
  exact same.mem_iff

-- Which way the search goes hangs on the order of the entries, but not whether it comes back.
theorem shuffled_cycles (g h : TypeGraph) (owner : String) (target : TypeRef) (same : g.Perm h)
    (distinct : (g.map Prod.fst).Nodup) : g.closesCycle owner target = h.closesCycle owner target := by
  have leads : Leads g = Leads h := by
    funext source goal
    rw [Leads, Leads, shuffled_targets g h source same distinct]
  rw [Bool.eq_iff_iff, closes_cycle_reaches, closes_cycle_reaches, leads]

end TypeGraph

-- Two indexes that answer every question alike. A file only asks the index which names are records and
-- which references lead back.
structure TypeIndex.Alike (index other : TypeIndex) : Prop where
  records : ∀ ref, index.isRecord ref = other.isRecord ref
  cycles : ∀ owner target, index.graph.closesCycle owner target = other.graph.closesCycle owner target

theorem shuffled_index (domains others : List Domain) (shuffled : domains.Perm others)
    (distinct : (qualifiedTypes domains).Nodup) :
    (TypeIndex.ofDomains domains).Alike (.ofDomains others) where
  records ref := (shuffled.flatMap_right TypeIndex.recordNames).contains_eq
  cycles owner target := by
    have entries : (TypeGraph.ofDomains domains).Perm (TypeGraph.ofDomains others) :=
      (List.reverse_perm _).trans ((shuffled.flatMap_right _).trans (List.reverse_perm _).symm)
    apply TypeGraph.shuffled_cycles _ _ owner target entries
    rw [TypeGraph.graph_names]
    exact (List.reverse_perm _).nodup_iff.mpr distinct

section Alike

variable (index other : TypeIndex) (alike : index.Alike other)

include alike

theorem field_alike (domain : String) (owner : Option String) (p : Property) :
    Field.ofProperty index domain owner p = .ofProperty other domain owner p := by
  have type : TypeExpr.ofField index domain p.definition = .ofField other domain p.definition := by
    rw [TypeExpr.ofField, TypeExpr.ofField]
    cases p.definition.shape <;> simp [alike.records]
  have cycles := funext fun owner => funext (alike.cycles owner)
  unfold Field.ofProperty
  rw [type, cycles]

theorem record_alike (domain : String) (owner : Option String) (name : String) (doc : List String)
    (properties : List Property) :
    Record.ofProperties index domain owner name doc properties =
      .ofProperties other domain owner name doc properties := by
  rw [Record.ofProperties, Record.ofProperties, funext (field_alike index other alike domain owner)]

theorem named_type_alike (domain : String) (t : TypeDef) :
    NamedType.ofTypeDef index domain t = .ofTypeDef other domain t := by
  rw [NamedType.ofTypeDef, NamedType.ofTypeDef]
  cases t.properties with
  | none => rfl
  | some properties => simp only [record_alike index other alike]

theorem data_alike (d : Domain) : DataModules.ofDomain index d = .ofDomain other d := by
  have types := funext (named_type_alike index other alike d.name)
  have params : DataModules.paramsRecord index d.name = DataModules.paramsRecord other d.name :=
    funext fun _ => record_alike index other alike _ _ _ _ _
  have results : DataModules.resultsRecord index d.name = DataModules.resultsRecord other d.name :=
    funext fun _ => record_alike index other alike _ _ _ _ _
  have payloads : DataModules.payloadRecord index d.name = DataModules.payloadRecord other d.name :=
    funext fun _ => record_alike index other alike _ _ _ _ _
  rw [DataModules.ofDomain, DataModules.ofDomain, types, params, results, payloads]

theorem domain_text_alike (d : Domain) (known names : List String) (options : Options)
    (same : ∀ name, name ∈ known ↔ name ∈ names) :
    domainText d known index options = domainText d names other options := by
  have imported : importedDomains d known = importedDomains d names :=
    List.filter_congr fun name _ => decide_eq_decide.mpr (same name)
  rw [domainText, domainText, domainCode, domainCode, imported, data_alike index other alike]

end Alike

theorem root_writable (domains others : List Domain) (options : Options) (code : List Layout.Code)
    (written : rootCode domains options = .ok code) : ∃ root, rootCode others options = .ok root := by
  have facade : ∀ domains : List Domain,
      ((Facade.ofDomains options.facadeName domains).items options.runtimeCrate).all Item.isWritable =
        (Head.mk options.facadeName (options.runtimeCrate ++ "::Transport")).isPlain := by
    intro domains
    simp [Facade.items, Facade.ofDomains, Facade.head, Item.isWritable]
  rw [rootCode, Facade.text, Item.textAll, facade] at written ⊢
  split
  · exact ⟨_, rfl⟩
  · rename_i unwritable
    rw [if_neg unwritable] at written
    cases written

end ProtocolStubs.Crate
