import ProtocolStubs.Generation.Generate
import ProtocolStubs.Proofs.Crate.DomainOrder
import ProtocolStubs.Proofs.Script.TransportAlias

set_option autoImplicit false

namespace ProtocolStubs

-- The same domains in two orders have the same files, in these orders, but for the aggregator's contents.
def SameFiles (domains others : List Domain) (files reordered : List GeneratedFile) : Prop :=
  ∃ fileOf aggregator other error, files = domains.map fileOf ++ [aggregator, error] ∧
    reordered = others.map fileOf ++ [other, error] ∧ other.path = aggregator.path

theorem same_files_of (change : Domain → Domain) (domains others : List Domain)
    (files reordered : List GeneratedFile)
    (same : SameFiles (domains.map change) (others.map change) files reordered) :
    SameFiles domains others files reordered := by
  obtain ⟨fileOf, aggregator, other, error, rfl, rfl, path⟩ := same
  rw [List.map_map, List.map_map]
  exact ⟨fileOf ∘ change, aggregator, other, error, rfl, rfl, path⟩

theorem same_files (domains others : List Domain) (fileOf : Domain → GeneratedFile)
    (path source resource : String) (error : GeneratedFile) :
    SameFiles domains others (domains.map fileOf ++ [.ofSource path source, error])
      (others.map fileOf ++ [.ofSource path resource, error]) :=
  ⟨fileOf, .ofSource path source, .ofSource path resource, error, rfl, rfl, rfl⟩

namespace Script

theorem domain_text_alike (known names : List String) (same : ∀ name, name ∈ known ↔ name ∈ names)
    (d : Domain) (options : Options) : domainText d known options = domainText d names options := by
  have imported : importedDomains d known = importedDomains d names :=
    List.filter_congr fun name _ => decide_eq_decide.mpr (same name)
  rw [domainText, domainText, domainCode, domainCode, imported,
    alias_alike options.transportType known names same]

theorem files_shuffled (domains others : List Domain) (options : Options)
    (shuffled : domains.Perm others) :
    SameFiles domains others (files domains options) (files others options) := by
  have names := shuffled.map Domain.name
  have texts := fun d => domain_text_alike (domains.map Domain.name) (others.map Domain.name)
    (fun _ => names.mem_iff) d options
  rw [files, files]
  simp only [texts]
  exact same_files domains others _ "index.ts" _ _ _

end Script

namespace Crate

theorem files_shuffled (domains others : List Domain) (options : Options) (made : List GeneratedFile)
    (shuffled : domains.Perm others) (distinct : (qualifiedTypes domains).Nodup)
    (all : files domains options = .ok made) :
    ∃ reordered, files others options = .ok reordered ∧ SameFiles domains others made reordered := by
  have index := shuffled_index domains others shuffled distinct
  have names := shuffled.map Domain.name
  have texts := fun d => domain_text_alike _ _ index d (domains.map Domain.name) (others.map Domain.name)
    options fun _ => names.mem_iff
  obtain ⟨own, code, each, root, rfl⟩ := (files_written domains options made).mp all
  simp only [texts] at each
  have : Inhabited GeneratedFile := ⟨⟨"", ""⟩⟩
  obtain ⟨fileOf, rfl, fine⟩ := made_each _ domains own each
  obtain ⟨other, written⟩ := root_writable domains others options code root
  have again := each_made _ fileOf others fun d member => fine d (shuffled.mem_iff.mpr member)
  exact ⟨_, (files_written others options _).mpr ⟨_, other, again, written, rfl⟩,
    same_files domains others fileOf "mod.rs" _ _ _⟩

end Crate

theorem filtered_types (doc : Document) (filter : Filter) :
    Crate.qualifiedTypes (doc.filteredDomains filter) = Crate.qualifiedTypes doc.domains := by
  rw [Crate.qualifiedTypes, Document.filteredDomains, List.flatMap_map]
  rfl

theorem domain_order_irrelevant (doc : Document) (others : List Domain) (options : Options)
    (shuffled : doc.domains.Perm others) (distinct : (Crate.qualifiedTypes doc.domains).Nodup) :
    match doc.generate options, ({ doc with domains := others } : Document).generate options with
    | .ok files, .ok reordered => SameFiles doc.domains others files reordered
    | .error _, .error _ => True
    | _, _ => False := by
  let before := doc.filteredDomains options.filter
  let after := others.map fun d => d.filtered options.filter
  have kept : before.Perm after := shuffled.map _
  have types : (Crate.qualifiedTypes before).Nodup := (filtered_types doc options.filter).symm ▸ distinct
  have again : (Crate.qualifiedTypes after).Nodup := (kept.flatMap_right _).nodup_iff.mp types
  rw [Document.generate, Document.generate]
  cases options.target with
  | typeScript => exact same_files_of _ _ _ _ _ (Script.files_shuffled before after options kept)
  | rust =>
    change match Crate.files before options, Crate.files after options with
      | .ok files, .ok reordered => SameFiles doc.domains others files reordered
      | .error _, .error _ => True
      | _, _ => False
    cases written : Crate.files before options with
    | ok files =>
      obtain ⟨reordered, rewritten, same⟩ :=
        Crate.files_shuffled before after options files kept types written
      rw [rewritten]
      exact same_files_of _ _ _ _ _ same
    | error cause =>
      cases rewritten : Crate.files after options with
      | error other => trivial
      | ok reordered =>
        obtain ⟨files, back, _⟩ :=
          Crate.files_shuffled after before options reordered kept.symm again rewritten
        rw [back] at written
        cases written

-- Two types that refer to one another, with the domain of the other first.
def reversedTypes : Document := { Crate.mutualTypes with domains := Crate.mutualTypes.domains.reverse }

theorem mutual_types_reordered :
    Crate.mutualTypes.domains.Perm reversedTypes.domains ∧
      (Crate.qualifiedTypes Crate.mutualTypes.domains).Nodup ∧
      ∃ files reordered, Crate.mutualTypes.generate { target := .rust } = .ok files ∧
        reversedTypes.generate { target := .rust } = .ok reordered ∧
        SameFiles Crate.mutualTypes.domains reversedTypes.domains files reordered := by
  have shuffled : Crate.mutualTypes.domains.Perm reversedTypes.domains := (List.reverse_perm _).symm
  have distinct : (Crate.qualifiedTypes Crate.mutualTypes.domains).Nodup := by decide
  have same := domain_order_irrelevant Crate.mutualTypes reversedTypes.domains { target := .rust }
    shuffled distinct
  obtain ⟨files, generated⟩ : ∃ files, Crate.mutualTypes.generate { target := .rust } = .ok files :=
    ⟨_, rfl⟩
  obtain ⟨reordered, again⟩ : ∃ files, reversedTypes.generate { target := .rust } = .ok files :=
    ⟨_, rfl⟩
  have stays : ({ Crate.mutualTypes with domains := reversedTypes.domains } : Document) = reversedTypes :=
    rfl
  rw [generated, stays, again] at same
  exact ⟨shuffled, distinct, files, reordered, generated, again, same⟩

end ProtocolStubs
