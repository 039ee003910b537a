import ProtocolStubs.Generation.Generate
import ProtocolStubs.Proofs.Crate.References
import ProtocolStubs.Proofs.Script.References

set_option autoImplicit false

namespace ProtocolStubs

-- The files of the domains are consistent with one another.
def Document.Linked (doc : Document) (options : Options) (files : List GeneratedFile) : Prop :=
  ∃ modules others, files = modules.map Prod.snd ++ others ∧
    modules.map Prod.fst = doc.filteredDomains options.filter ∧
    ∀ d f, (d, f) ∈ modules → match options.target with
      | .typeScript => f.path = d.name ++ ".ts" ∧ Script.Consistent options modules d f
      | .rust => f.path = Crate.identifier d.name ++ ".rs" ∧ Crate.Consistent options modules d f

theorem references_resolve (doc : Document) (options : Options) (files : List GeneratedFile)
    (legible : ∀ d ∈ doc.domains, d.Legible) (generated : doc.generate options = .ok files) :
    doc.Linked options files := by
  have kept : ∀ d ∈ doc.filteredDomains options.filter, d.Legible := by
    intro d member
    obtain ⟨whole, among, rfl⟩ := List.mem_map.mp member
    exact whole.filtered_legible options.filter (legible whole among)
  rw [Document.generate] at generated
  rw [Document.Linked]
  cases target : options.target with
  | typeScript =>
    rw [target] at generated
    rw [← Except.ok.inj generated]
    obtain ⟨others, same⟩ := Script.files_parts (doc.filteredDomains options.filter) options
    refine ⟨Script.domainFiles (doc.filteredDomains options.filter) options, others, same, ?_, ?_⟩
    · rw [Script.domainFiles, List.map_map]
      exact List.map_id _
    · intro d f member
      obtain ⟨_, path, _⟩ := Script.domain_file_rows _ options d f member
      exact ⟨path, Script.files_consistent _ options kept d f member⟩
  | rust =>
    rw [target] at generated
    obtain ⟨modules, others, same, parts⟩ := Crate.files_parts _ options files generated
    refine ⟨modules, others, same, parts.listed, fun d f member => ?_⟩
    exact ⟨(parts.written d f member).1, Crate.files_consistent _ options modules parts kept d f member⟩

def framed : Document :=
  ⟨none, [⟨"Page", none, none, none, none, none,
      [⟨"root", none, none, some [⟨"node", none, none, some "DOM.Node", none, none, none, none, none⟩],
        none, none, none⟩], none⟩,
    ⟨"DOM", none, none, none, none, some [⟨"Node", none, some "integer", none, none, none, none, none⟩],
      [], none⟩]⟩

theorem framed_legible : ∀ d ∈ framed.domains, d.Legible := by
  refine List.forall_mem_cons.mpr ⟨⟨by decide, by decide, by decide⟩, ?_⟩
  exact List.forall_mem_cons.mpr ⟨⟨by decide, by decide, by decide⟩, nofun⟩

theorem framed_linked : (∀ d ∈ framed.domains, d.Legible) ∧
    ∃ files, framed.generate { target := .rust } = .ok files ∧ framed.Linked { target := .rust } files :=
  ⟨framed_legible, _, rfl, references_resolve framed _ _ framed_legible rfl⟩

end ProtocolStubs
