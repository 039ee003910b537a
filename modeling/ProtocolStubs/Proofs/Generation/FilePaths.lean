import Mathlib.Data.List.Nodup
import ProtocolStubs.Generation.Generate
import ProtocolStubs.Proofs.Crate.FileStems
import ProtocolStubs.Proofs.Crate.References

set_option autoImplicit false

namespace ProtocolStubs

-- The paths of a directory: a stem for each domain, and the stems of two further files.
theorem paths_distinct (domains : List Domain) (stem : Domain → String) (extension first second : String)
    (apart : first ≠ second) :
    ((domains.map fun d => stem d ++ extension) ++ [first ++ extension, second ++ extension]).Nodup ↔
      (domains.map stem).Nodup ∧ ∀ d ∈ domains, stem d ≠ first ∧ stem d ≠ second := by
  have injective : Function.Injective (· ++ extension) := fun _ _ => String.append_left_inj _ |>.mp
  have stems : (domains.map fun d => stem d ++ extension) ++ [first ++ extension, second ++ extension] =
      (domains.map stem ++ [first, second]).map (· ++ extension) := by simp
  rw [stems, List.nodup_map_iff injective]
  simp [List.nodup_append, apart]

namespace Script

theorem files_paths (domains : List Domain) (options : Options) :
    (files domains options).map GeneratedFile.path =
      (domains.map fun d => d.name ++ ".ts") ++ ["index" ++ ".ts", "ProtocolError" ++ ".ts"] := by
  simp [files, GeneratedFile.ofSource]

end Script

namespace Crate

theorem own_paths (domains : List Domain) (options : Options) (own : List GeneratedFile)
    (each : domains.mapM (fun d => (domainText d (domains.map Domain.name) (.ofDomains domains) options).map
      (GeneratedFile.ofSource (identifier d.name ++ ".rs"))) = .ok own) :
    own.map GeneratedFile.path = domains.map fun d => identifier d.name ++ ".rs" := by
  have : Inhabited GeneratedFile := ⟨⟨"", ""⟩⟩
  obtain ⟨fileOf, rfl, fine⟩ := made_each _ domains own each
  rw [List.map_map]
  refine List.map_congr_left fun d member => ?_
  obtain ⟨source, _, same⟩ := (map_ok _ _ _).mp (fine d member)
  rw [Function.comp_apply, ← same]
  rfl

theorem files_paths (domains : List Domain) (options : Options) (made : List GeneratedFile)
    (all : files domains options = .ok made) :
    made.map GeneratedFile.path =
      (domains.map fun d => identifier d.name ++ ".rs") ++ ["mod" ++ ".rs", "error" ++ ".rs"] := by
  obtain ⟨own, root, each, _, rfl⟩ := (files_written domains options made).mp all
  rw [List.map_append, own_paths domains options own each]
  rfl

theorem stems_distinct (domains : List Domain) :
    (domains.map fun d => identifier d.name).Nodup ↔ (domains.map fun d => Text.snakeCase d.name).Nodup := by
  simp only [List.Nodup, List.pairwise_map, ne_eq, identifier_shared]

end Crate

-- The names that leave every file a path of its own.
def Document.KeepsApart (doc : Document) : Target → Prop
  | .typeScript => ∀ d ∈ doc.domains, d.name ≠ "index" ∧ d.name ≠ "ProtocolError"
  | .rust =>
    (doc.domains.map fun d => Text.snakeCase d.name).Nodup ∧
      ∀ d ∈ doc.domains, Text.snakeCase d.name ≠ "error"

theorem filtered_names {α : Type} (doc : Document) (filter : Filter) (read : String → α) :
    (doc.filteredDomains filter).map (fun d => read d.name) = doc.domains.map fun d => read d.name :=
  List.map_map

theorem filtered_each (doc : Document) (filter : Filter) (fits : String → Prop) :
    (∀ d ∈ doc.filteredDomains filter, fits d.name) ↔ ∀ d ∈ doc.domains, fits d.name :=
  List.forall_mem_map

theorem file_paths_distinct (doc : Document) (options : Options) (files : List GeneratedFile)
    (distinct : (doc.domains.map Domain.name).Nodup) (generated : doc.generate options = .ok files) :
    (files.map GeneratedFile.path).Nodup ↔ doc.KeepsApart options.target := by
  rw [Document.generate] at generated
  cases target : options.target with
  | typeScript =>
    rw [target] at generated
    have stems := filtered_names doc options.filter fun name => name
    rw [← Except.ok.inj generated, Script.files_paths,
      paths_distinct _ (fun d => d.name) _ _ _ (by decide), stems,
      filtered_each doc _ fun name => name ≠ "index" ∧ name ≠ "ProtocolError"]
    exact and_iff_right distinct
  | rust =>
    rw [target] at generated
    have stems := filtered_names doc options.filter Text.snakeCase
    rw [Crate.files_paths _ options files generated,
      paths_distinct _ (fun d => Crate.identifier d.name) _ _ _ (by decide), Crate.stems_distinct, stems,
      filtered_each doc _ fun name => Crate.identifier name ≠ "mod" ∧ Crate.identifier name ≠ "error"]
    simp [Document.KeepsApart, Crate.identifier_root, Crate.identifier_error]

def bareDomain (name : String) : Domain := ⟨name, none, none, none, none, none, [], none⟩

def caseTwins : Document := ⟨none, [bareDomain "DOM", bareDomain "Dom"]⟩

theorem case_twins_merge :
    (caseTwins.domains.map Domain.name).Nodup ∧
      (∃ files, caseTwins.generate { target := .typeScript } = .ok files ∧
        (files.map GeneratedFile.path).Nodup) ∧
      ∃ files, caseTwins.generate { target := .rust } = .ok files ∧
        ¬(files.map GeneratedFile.path).Nodup := by
  have distinct : (caseTwins.domains.map Domain.name).Nodup := by decide
  obtain ⟨scripts, rendered⟩ : ∃ files, caseTwins.generate { target := .typeScript } = .ok files :=
    ⟨_, rfl⟩
  obtain ⟨modules, generated⟩ : ∃ files, caseTwins.generate { target := .rust } = .ok files := ⟨_, rfl⟩
  refine ⟨distinct, ⟨scripts, rendered, ?_⟩, modules, generated, ?_⟩
  · rw [file_paths_distinct caseTwins _ scripts distinct rendered, Document.KeepsApart]
    decide
  · rw [file_paths_distinct caseTwins _ modules distinct generated, Document.KeepsApart]
    decide

def errorDomain : Document := ⟨none, [bareDomain "Error"]⟩

theorem error_domain_overwritten :
    (errorDomain.domains.map Domain.name).Nodup ∧
      ∃ files, errorDomain.generate { target := .rust } = .ok files ∧
        files.map GeneratedFile.path = ["error.rs", "mod.rs", "error.rs"] ∧
        ¬(files.map GeneratedFile.path).Nodup := by
  obtain ⟨files, generated⟩ : ∃ files, errorDomain.generate { target := .rust } = .ok files := ⟨_, rfl⟩
  have paths : files.map GeneratedFile.path = ["error.rs", "mod.rs", "error.rs"] :=
    Crate.files_paths _ _ files generated
  exact ⟨by decide, files, generated, paths, by rw [paths]; decide⟩

end ProtocolStubs
