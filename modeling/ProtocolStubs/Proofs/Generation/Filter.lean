import ProtocolStubs.Generation.Generate
import ProtocolStubs.Proofs.Crate.DomainOrder
import ProtocolStubs.Proofs.Crate.RecursiveMark
import ProtocolStubs.Proofs.Layout.Parts
import ProtocolStubs.Proofs.Schema.Filter
import ProtocolStubs.Proofs.Script.Sections

set_option autoImplicit false

namespace ProtocolStubs

open Layout

namespace Script

def typesOpening (s : DataSection) : List Code :=
  Comment.star s.doc ++ [.line ("export namespace " ++ s.name ++ " \x7b"), .nest s.typesCode]

def typesText (d : Domain) : String := tidy (Code.text indent (typesOpening (.ofDomain d)))

theorem opening_written (s : DataSection) : rowsOf indent (Code.piecesAll 0 (typesOpening s)) ≠ [] := by
  have member : (0, "export namespace " ++ s.name ++ " \x7b") ∈ Code.piecesAll 0 (typesOpening s) :=
    Code.line_piece 0 _ _ (List.mem_append_right _ List.mem_cons_self)
  obtain ⟨_, row⟩ := back_written indent _ 0 _ " \x7b" (by decide) member
  exact List.ne_nil_of_mem row

theorem nest_split (before first second after : List Code) :
    Code.text indent (before ++ [.nest (first ++ second)] ++ after) =
      Code.text indent (before ++ [.nest first, .nest second] ++ after) := by
  have append := Code.text_at_append indent indent_margin
  have both : Code.textAt indent 0 [.nest (first ++ second)] =
      Code.textAt indent 0 [.nest first, .nest second] := by
    rw [Code.text_at_nest, append, ← Code.text_at_nest, ← Code.text_at_nest, ← append]
    rfl
  change Code.textAt indent 0 _ = Code.textAt indent 0 _
  rw [append, append, append 0 (before ++ _) after, append 0 before, both]

theorem types_embed (d : Domain) (known : List String) (options : Options) :
    Embedded (typesText d) (tidy (domainText d known options)) := by
  obtain ⟨before, code⟩ : ∃ before, domainCode d known options = before ++ (DataSection.ofDomain d).code :=
    ⟨_, rfl⟩
  obtain ⟨more, body⟩ : ∃ more, (DataSection.ofDomain d).code = Comment.star (DataSection.ofDomain d).doc ++
      Code.block ("export namespace " ++ (DataSection.ofDomain d).name)
        ((DataSection.ofDomain d).typesCode ++ more) := by
    simp only [DataSection.code, List.append_assoc]
    exact ⟨_, rfl⟩
  have cut : domainText d known options =
      Code.text indent (before ++ typesOpening (.ofDomain d) ++ [.nest more, .line "\x7d"]) := by
    rw [domainText, code, body]
    have split := nest_split (before ++ Comment.star (DataSection.ofDomain d).doc ++
      [.line ("export namespace " ++ (DataSection.ofDomain d).name ++ " \x7b")])
      (DataSection.ofDomain d).typesCode more [.line "\x7d"]
    simpa [typesOpening, Code.block, Code.between] using split
  rw [cut]
  exact part_embeds indent indent_margin _ _ (List.infix_append _ _ _) (opening_written _)

end Script

namespace Crate

def typesText (domains : List Domain) (runtime : String) (d : Domain) : String :=
  tidy (Code.text indent ((DataModules.ofDomain (.ofDomains domains) d).typesModule runtime))

theorem module_written (runtime : String) (m : DataModules) :
    rowsOf indent (Code.piecesAll 0 (m.typesModule runtime)) ≠ [] := by
  have member : (0, "pub mod types \x7b") ∈ Code.piecesAll 0 (m.typesModule runtime) := by
    apply Code.line_piece
    exact List.mem_append_left _ (List.mem_cons_of_mem _ List.mem_cons_self)
  exact List.ne_nil_of_mem (row_written indent _ 0 _ (by decide) member)

theorem types_embed (d : Domain) (known : List String) (index : TypeIndex) (options : Options)
    (source : String) (written : domainText d known index options = .ok source) :
    Embedded (tidy (Code.text indent ((DataModules.ofDomain index d).typesModule options.runtimeCrate)))
      (tidy source) := by
  obtain ⟨body, _, rfl⟩ := domain_text_client d known index options source written
  apply part_embeds indent indent_margin _ _ _ (module_written _ _)
  have first : (DataModules.ofDomain index d).typesModule options.runtimeCrate <:+:
      (DataModules.ofDomain index d).code options.runtimeCrate := by
    rw [DataModules.code_kinds, List.append_assoc, List.append_assoc]
    exact (List.prefix_append _ _).isInfix
  exact first.trans (List.infix_append _ _ _)

theorem files_writable (domains others : List Domain) (options : Options) (made : List GeneratedFile)
    (names : domains.map Domain.name = others.map Domain.name) (all : files domains options = .ok made) :
    ∃ again, files others options = .ok again := by
  obtain ⟨own, code, each, root, rfl⟩ := (files_written domains options made).mp all
  have : Inhabited GeneratedFile := ⟨⟨"", ""⟩⟩
  obtain ⟨fileOf, rfl, fine⟩ := made_each _ domains own each
  have plain : ∀ d ∈ others, '<' ∉ (typeName d.name).toList := by
    intro d member
    obtain ⟨twin, among, same⟩ := List.mem_map.mp (names ▸ List.mem_map_of_mem member :
      d.name ∈ domains.map Domain.name)
    obtain ⟨source, text, _⟩ := (map_ok _ _ _).mp (fine twin among)
    exact same ▸ domain_text_plain twin _ _ options source text
  have again : ∀ d ∈ others, ∃ file, (domainText d (others.map Domain.name) (.ofDomains others) options).map
      (GeneratedFile.ofSource (identifier d.name ++ ".rs")) = .ok file := by
    intro d member
    obtain ⟨source, text, _⟩ := domain_text_written d (others.map Domain.name) (.ofDomains others) options
      (plain d member)
    exact ⟨_, (map_ok _ _ _).mpr ⟨source, text, rfl⟩⟩
  choose! file written using again
  obtain ⟨other, rewritten⟩ := root_writable domains others options code root
  exact ⟨_, (files_written others options _).mpr ⟨_, other, each_made _ file others written, rewritten, rfl⟩⟩

end Crate

def Document.typesText (doc : Document) (options : Options) (d : Domain) : String :=
  match options.target with
  | .typeScript => Script.typesText d
  | .rust => Crate.typesText doc.domains options.runtimeCrate d

-- A file for each domain in which its types stand, and the files that belong to no domain.
def Document.ShowsTypes (doc : Document) (options : Options) (files : List GeneratedFile) : Prop :=
  ∃ own others, files = own ++ others ∧
    List.Forall₂ (fun d file => Embedded (doc.typesText options d) file.contents) doc.domains own

def Document.filtered (doc : Document) (f : Filter) : Document := { doc with domains := doc.filteredDomains f }

theorem generate_filtered (doc : Document) (options : Options) (f : Filter) :
    doc.generate { options with filter := f } = (doc.filtered f).generate { options with filter := .none } := by
  have same : (doc.filtered f).filteredDomains .none = doc.filteredDomains f := by
    rw [Document.filteredDomains, Document.filtered, funext Domain.filtered_none]
    exact List.map_id _
  rw [Document.generate, Document.generate, same]
  cases options.target <;> rfl

theorem generated_types (doc : Document) (options : Options) (files : List GeneratedFile)
    (generated : doc.generate options = .ok files) : doc.ShowsTypes options files := by
  rw [Document.generate, Document.filteredDomains] at generated
  cases target : options.target with
  | typeScript =>
    rw [target] at generated
    rw [← Except.ok.inj generated]
    refine ⟨_, _, rfl, ?_⟩
    rw [List.map_map]
    refine List.forall₂_map_right_iff.mpr (List.forall₂_same.mpr fun d _ => ?_)
    rw [Document.typesText, target]
    exact Script.types_embed (d.filtered options.filter) _ options
  | rust =>
    rw [target] at generated
    obtain ⟨own, root, each, _, rfl⟩ := (Crate.files_written _ options files).mp generated
    refine ⟨own, _, rfl, (List.forall₂_map_left_iff.mp (map_each _ _ own each)).imp ?_⟩
    intro d file written
    obtain ⟨source, text, rfl⟩ := (map_ok _ _ file).mp written
    rw [Document.typesText, target]
    rw [← Document.filteredDomains, Crate.filtered_index] at text
    exact Crate.types_embed (d.filtered options.filter) _ _ options source text

theorem generated_again (doc : Document) (options : Options) (f g : Filter) (files : List GeneratedFile)
    (generated : doc.generate { options with filter := f } = .ok files) :
    ∃ others, doc.generate { options with filter := g } = .ok others := by
  have names : (doc.filteredDomains f).map Domain.name = (doc.filteredDomains g).map Domain.name := by
    rw [Document.filteredDomains, Document.filteredDomains, List.map_map, List.map_map]
    rfl
  rw [Document.generate] at generated ⊢
  cases target : options.target with
  | typeScript => exact ⟨_, rfl⟩
  | rust =>
    simp only [target] at generated ⊢
    exact Crate.files_writable _ _ options files names generated

def Document.SameTypes (doc : Document) (options : Options) (f g : Filter) : Prop :=
  match doc.generate { options with filter := f }, doc.generate { options with filter := g } with
  | .ok files, .ok others => doc.ShowsTypes options files ∧ doc.ShowsTypes options others
  | .error _, .error _ => True
  | _, _ => False

theorem same_types (doc : Document) (options : Options) (f g : Filter) : doc.SameTypes options f g := by
  rw [Document.SameTypes]
  cases first : doc.generate { options with filter := f } with
  | ok files =>
    obtain ⟨others, second⟩ := generated_again doc options f g files first
    rw [second]
    exact ⟨generated_types doc { options with filter := f } files first,
      generated_types doc { options with filter := g } others second⟩
  | error cause =>
    cases second : doc.generate { options with filter := g } with
    | ok others =>
      obtain ⟨files, back⟩ := generated_again doc options g f others second
      rw [back] at first
      cases first
    | error other => trivial

theorem filtering_lawful (f g : Filter) :
    (∀ d : Domain, (∀ kept, d.Restricted f kept ↔ kept = d.filtered f) ∧
      (d.filtered f).filtered g = d.filtered (f.or g) ∧
      (d.filtered f).filtered g = (d.filtered g).filtered f ∧
      (d.filtered f).filtered f = d.filtered f ∧
      (d.filtered f).dependencyNames ⊆ d.dependencyNames) ∧
    ∀ (doc : Document) (options : Options),
      doc.generate { options with filter := f } =
        (doc.filtered f).generate { options with filter := .none } ∧
      doc.SameTypes options f g := by
  refine ⟨fun d => ⟨d.restricted_iff f, d.filtered_twice f g, ?_, ?_, d.filtered_dependencies f⟩, ?_⟩
  · rw [d.filtered_twice, d.filtered_twice, f.or_comm]
  · rw [d.filtered_twice, f.or_self]
  · exact fun doc options => ⟨generate_filtered doc options f, same_types doc options f g⟩

end ProtocolStubs
