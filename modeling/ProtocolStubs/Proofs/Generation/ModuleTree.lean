import ProtocolStubs.Proofs.Generation.FilePaths

set_option autoImplicit false

namespace ProtocolStubs

open Layout
open Text (OneLine inked)

namespace Crate

-- The module that a row declares; a row inside a block is indented and declares none.
def declared? (row : String) : Option String :=
  if "pub mod ".toList <+: row.toList ∧ row.toList.getLast? = some ';' then
    some (String.ofList (row.toList.drop 8).dropLast)
  else none

-- The file in which the compiler looks for a module: the prefix of a raw identifier is no part of it.
def sourceStem (module : String) : String :=
  match module.toList with
  | 'r' :: '#' :: rest => String.ofList rest
  | _ => module

def sourcePath (module : String) : String := sourceStem module ++ ".rs"

def declaredModules (root : GeneratedFile) : List String := root.rows.filterMap declared?

-- Each declaration leads to a file, and each file but the root has one declaration that leads to it.
structure CompleteFrom (root : GeneratedFile) (files : List GeneratedFile) : Prop where
  found : ∀ m ∈ declaredModules root, ∃ f ∈ files, f.path = sourcePath m
  declared : ∀ f ∈ files, f.path ≠ "mod.rs" → ((declaredModules root).map sourcePath).count f.path = 1

def TreeComplete (files : List GeneratedFile) : Prop :=
  ∃ root ∈ files, root.path = "mod.rs" ∧ CompleteFrom root files

theorem declaration_declares (m : String) : declared? ("pub mod " ++ m ++ ";") = some m := by
  have spelled : ("pub mod " ++ m ++ ";").toList = "pub mod ".toList ++ (m.toList ++ [';']) := by
    simp [String.toList_append]
  have closed : ("pub mod ".toList ++ (m.toList ++ [';'])).getLast? = some ';' := by
    rw [← List.append_assoc, List.getLast?_concat]
  rw [declared?, spelled, if_pos ⟨List.prefix_append _ _, closed⟩, List.drop_left' (by decide),
    List.dropLast_concat, String.ofList_toList]

theorem other_row (row : String) (i : Nat) (within : i < 8)
    (other : row.toList[i]? ≠ "pub mod ".toList[i]?) : declared? row = none := by
  refine if_neg fun declares => other ?_
  obtain ⟨rest, spelled⟩ := declares.1
  rw [← spelled, List.getElem?_append_left within]

theorem facade_doc : docCode "Entry point exposing every protocol domain over one transport." =
    [.line "/// Entry point exposing every protocol domain over one transport."] := by rfl

theorem head_declares_nothing (lead text runtime : String) (f : Facade) (body : List Code) (fourth : Char)
    (spelled : lead.toList[4]? = some fourth) (other : fourth ≠ 'm') (line : OneLine lead)
    (name : OneLine f.name) (crate : OneLine runtime)
    (member : .line text ∈ [.line (lead ++ (f.head runtime).text), (f.head runtime).boundCode] ++
      Code.between "\x7b" "\x7d" body) : Row text ∧ declared? text = none := by
  rcases head_code_line lead text _ body member with rfl | rfl | rfl | rfl
  · refine ⟨?_, other_row _ 4 (by decide) ?_⟩
    · rw [Head.text, ← String.append_assoc]
      exact row_append _ "<T>" ((one_line_append _ _).mpr ⟨line, name⟩) (by decide)
    · have within : 4 < lead.toList.length := (List.getElem?_eq_some_iff.mp spelled).1
      rw [String.toList_append, List.getElem?_append_left within, spelled]
      exact fun same => other (Option.some.inj same)
  · refine ⟨?_, other_row _ 4 (by decide) (by simp [String.toList_append])⟩
    refine row_append _ "," ((one_line_append _ _).mpr ⟨by decide, ?_⟩) (by decide)
    exact (one_line_append _ _).mpr ⟨crate, by decide⟩
  · exact ⟨by decide, by decide⟩
  · exact ⟨by decide, by decide⟩

theorem facade_line (runtime text : String) (f : Facade) (item : Item) (among : item ∈ f.items runtime)
    (member : .line text ∈ item.code) (name : OneLine f.name) (crate : OneLine runtime) :
    Row text ∧ declared? text = none := by
  simp only [Facade.items, List.mem_cons, List.not_mem_nil, or_false] at among
  rcases among with rfl | rfl
  · rw [Item.code, List.append_assoc, facade_doc] at member
    rcases List.mem_append.mp member with doc | own
    · cases List.mem_singleton.mp doc
      exact ⟨by decide, by decide⟩
    · exact head_declares_nothing "pub struct " text runtime f _ 's' (by decide) (by decide) (by decide) name
        crate own
  · exact head_declares_nothing "impl<T> " text runtime f _ '<' (by decide) (by decide) (by decide) name crate
      member

theorem facade_declares_nothing (runtime : String) (f : Facade) (text : String)
    (written : f.text runtime = .ok text) (name : OneLine f.name) (crate : OneLine runtime) :
    ∀ row ∈ inked text, declared? row = none := by
  rw [Item.items_rows _ _ written]
  intro row member
  obtain ⟨⟨depth, spelled⟩, among, stands⟩ := List.mem_flatMap.mp member
  obtain ⟨item, listed, own⟩ := List.mem_flatMap.mp among
  cases depth with
  | zero =>
    obtain ⟨whole, silent⟩ := facade_line runtime spelled f item listed (Code.top_line 0 spelled _ own) name crate
    rw [piece_row indent 0 spelled whole, List.mem_singleton, Pen.indentation, String.empty_append] at stands
    rw [stands, silent]
  | succ depth =>
    obtain ⟨rest, rfl⟩ := rows_deep indent 1 [(depth + 1, spelled)] (by simp) row
      (List.mem_flatMap.mpr ⟨_, List.mem_singleton_self _, stands⟩)
    refine other_row _ 0 (by decide) ?_
    simp [Pen.indentation, indent, Code.spaces, String.toList_append]

theorem root_code (domains : List Domain) (options : Options) (code : List Code)
    (written : rootCode domains options = .ok code) :
    ∃ facade, (Facade.ofDomains options.facadeName domains).text options.runtimeCrate = .ok facade ∧
      code = [Code.line headerText, Code.blank, Code.line "//! Typed clients for every protocol domain.",
          Code.blank, Code.line "pub mod error;"] ++
        domains.map (fun d => Code.line ("pub mod " ++ identifier d.name ++ ";")) ++
          [Code.blank, Code.line facade] := by
  rw [rootCode] at written
  obtain ⟨text, facade, same⟩ := (bind_ok _ _ _).mp written
  exact ⟨text, facade, (Except.ok.inj same).symm⟩

theorem declaration_row (d : Domain) : Row ("pub mod " ++ identifier d.name ++ ";") :=
  row_append _ ";" ((one_line_append _ _).mpr ⟨by decide, identifier_line d.name⟩) (by decide)

theorem declarations_declare (domains : List Domain) :
    (rowsOf indent (domains.map fun d => (0, "pub mod " ++ identifier d.name ++ ";"))).filterMap declared? =
      domains.map fun d => identifier d.name := by
  induction domains with
  | nil => rfl
  | cons d rest ih =>
    rw [List.map_cons, rows_of_cons, piece_row indent 0 _ (declaration_row d), Pen.indentation,
      String.empty_append, List.singleton_append, List.filterMap_cons, declaration_declares, ih, List.map_cons]

theorem header_rows : inked headerText =
    ["// @generated by cdp-codegen", "// DO NOT EDIT - regenerate with `cargo xtask codegen --rust`"] := by
  have split : headerText = "// @generated by cdp-codegen" ++ "\n" ++
    "// DO NOT EDIT - regenerate with `cargo xtask codegen --rust`" := by decide
  rw [split, Text.inked_append, inked_row _ (by decide), inked_row _ (by decide)]
  rfl

theorem opening_declares :
    (rowsOf indent [(0, headerText), (0, "//! Typed clients for every protocol domain."),
      (0, "pub mod error;")]).filterMap declared? = ["error"] := by
  rw [rows_of_cons, rows_of_cons, rows_of_cons, top_rows, top_rows, top_rows, header_rows,
    inked_row "//! Typed clients for every protocol domain." (by decide),
    inked_row "pub mod error;" (by decide)]
  decide

theorem root_declares (domains : List Domain) (options : Options) (code : List Code)
    (written : rootCode domains options = .ok code) (name : OneLine options.facadeName)
    (crate : OneLine options.runtimeCrate) :
    declaredModules (.ofSource "mod.rs" (Code.text indent code)) =
      "error" :: domains.map fun d => identifier d.name := by
  obtain ⟨facade, text, rfl⟩ := root_code domains options code written
  have silent := List.filterMap_eq_nil_iff.mpr (facade_declares_nothing _ _ facade text name crate)
  have opening : Code.piecesAll 0 [.line headerText, .blank,
      .line "//! Typed clients for every protocol domain.", .blank, .line "pub mod error;"] =
    [(0, headerText), (0, "//! Typed clients for every protocol domain."), (0, "pub mod error;")] := rfl
  have last : Code.piecesAll 0 [.blank, .line facade] = [(0, facade)] := rfl
  rw [declaredModules, rows_of_source, Code.inked_text indent indent_margin]
  simp only [Code.pieces_all_append, opening, last, Code.pieces_all_lines, rows_of_append,
    List.filterMap_append, opening_declares, declarations_declare, whole_rows, silent, List.append_nil,
    List.singleton_append]

theorem source_stem_plain (m : String) (unraw : '#' ∉ m.toList) : sourceStem m = m := by
  rw [sourceStem]
  split
  · rename_i rest raw
    rw [raw] at unraw
    simp at unraw
  · rfl

theorem source_stem_raw (stem : String) : sourceStem ("r#" ++ stem) = stem := by
  simp [sourceStem, String.toList_append]

theorem keyword_raw (name : String) (keyword : Text.snakeCase name ∈ keywords) :
    identifier name = "r#" ++ Text.snakeCase name := by
  have apart : ∀ word ∈ keywords, word ∉ pathKeywords := by decide
  rw [identifier, escaped, if_neg (apart _ keyword), if_pos keyword]

theorem other_unraw (name : String) (other : Text.snakeCase name ∉ keywords) :
    '#' ∉ (identifier name).toList := by
  have unraw := Text.snake_case_unraw name
  rw [identifier, escaped, if_neg other]
  split
  · simp [String.toList_append, unraw]
  · exact unraw

theorem domain_path_other (name : String) : identifier name ++ ".rs" ≠ "mod.rs" := by
  intro same
  have stems : identifier name ++ ".rs" = "mod" ++ ".rs" := same
  exact identifier_root name ((String.append_left_inj ".rs").mp stems)

theorem source_stem_unraw (name : String) : '#' ∉ (sourceStem (identifier name)).toList := by
  by_cases keyword : Text.snakeCase name ∈ keywords
  · rw [keyword_raw name keyword, source_stem_raw]
    exact Text.snake_case_unraw name
  · rw [source_stem_plain _ (other_unraw name keyword)]
    exact other_unraw name keyword

section Names

variable (domains : List Domain)

def moduleNames : List String := "error" :: domains.map fun d => identifier d.name

theorem module_stem_unraw : ∀ m ∈ moduleNames domains, '#' ∉ (sourceStem m).toList := by
  refine List.forall_mem_cons.mpr ⟨by decide, fun m member => ?_⟩
  obtain ⟨d, _, rfl⟩ := List.mem_map.mp member
  exact source_stem_unraw d.name

theorem root_declared (options : Options) (made : List GeneratedFile) (name : OneLine options.facadeName)
    (crate : OneLine options.runtimeCrate) (all : files domains options = .ok made) :
    (∃ root ∈ made, root.path = "mod.rs") ∧
      ∀ root ∈ made, root.path = "mod.rs" → declaredModules root = moduleNames domains := by
  obtain ⟨own, code, each, written, rfl⟩ := (files_written domains options made).mp all
  refine ⟨⟨_, List.mem_append_right _ List.mem_cons_self, rfl⟩, fun root member path => ?_⟩
  rcases List.mem_append.mp member with domain | other
  · have among : root.path ∈ own.map GeneratedFile.path := List.mem_map_of_mem domain
    rw [own_paths domains options own each, path] at among
    obtain ⟨d, _, same⟩ := List.mem_map.mp among
    exact absurd same (domain_path_other d.name)
  · rcases List.mem_cons.mp other with rfl | error
    · exact root_declares domains options code written name crate
    · have other : ("error.rs" : String) ≠ "mod.rs" := by decide
      rw [List.mem_singleton.mp error] at path
      exact absurd path other

theorem complete_names (options : Options) (made : List GeneratedFile) (name : OneLine options.facadeName)
    (crate : OneLine options.runtimeCrate) (all : files domains options = .ok made) :
    TreeComplete made ↔
      (∀ m ∈ moduleNames domains, sourcePath m ∈ made.map GeneratedFile.path) ∧
        ∀ path ∈ made.map GeneratedFile.path, path ≠ "mod.rs" →
          ((moduleNames domains).map sourcePath).count path = 1 := by
  obtain ⟨⟨root, member, path⟩, declares⟩ := root_declared domains options made name crate all
  constructor
  · rintro ⟨other, among, same, complete⟩
    have found := complete.found
    have declared := complete.declared
    rw [declares other among same] at found declared
    exact ⟨fun m given => List.mem_map.mpr (found m given), List.forall_mem_map.mpr declared⟩
  · rintro ⟨found, declared⟩
    refine ⟨root, member, path, ⟨?_, ?_⟩⟩ <;> rw [declares root member path]
    · exact fun m given => List.mem_map.mp (found m given)
    · exact List.forall_mem_map.mp declared

theorem keyword_undeclared (name : String) (keyword : Text.snakeCase name ∈ keywords) :
    identifier name ++ ".rs" ∉ (moduleNames domains).map sourcePath := by
  intro declared
  obtain ⟨m, given, same⟩ := List.mem_map.mp declared
  have unraw := module_stem_unraw domains m given
  rw [(String.append_left_inj ".rs").mp same, keyword_raw name keyword] at unraw
  exact unraw (by simp [String.toList_append])

theorem plain_sources (plain : ∀ d ∈ domains, Text.snakeCase d.name ∉ keywords) :
    (moduleNames domains).map sourcePath = (moduleNames domains).map (· ++ ".rs") := by
  have stems : ∀ m ∈ moduleNames domains, sourceStem m = m := by
    refine List.forall_mem_cons.mpr ⟨by decide, fun m member => ?_⟩
    obtain ⟨d, among, rfl⟩ := List.mem_map.mp member
    exact source_stem_plain _ (other_unraw d.name (plain d among))
  exact List.map_congr_left fun m member => congrArg (· ++ ".rs") (stems m member)

theorem names_complete (distinct : (domains.map fun d => identifier d.name).Nodup)
    (reserved : ∀ d ∈ domains, identifier d.name ≠ "error") (paths : List String)
    (listed : paths = (domains.map fun d => identifier d.name ++ ".rs") ++ ["mod" ++ ".rs", "error" ++ ".rs"]) :
    ((∀ m ∈ moduleNames domains, sourcePath m ∈ paths) ∧
        ∀ path ∈ paths, path ≠ "mod.rs" → ((moduleNames domains).map sourcePath).count path = 1) ↔
      ∀ d ∈ domains, Text.snakeCase d.name ∉ keywords := by
  constructor
  · rintro ⟨_, declared⟩ d member keyword
    have among : identifier d.name ++ ".rs" ∈ paths :=
      listed ▸ List.mem_append_left _ (List.mem_map_of_mem member)
    have once := declared _ among (domain_path_other d.name)
    rw [List.count_eq_zero_of_not_mem (keyword_undeclared domains d.name keyword)] at once
    cases once
  · intro plain
    have sources := plain_sources domains plain
    have apart : ((moduleNames domains).map sourcePath).Nodup := by
      rw [sources, List.nodup_map_iff fun _ _ => (String.append_left_inj ".rs").mp, moduleNames,
        List.nodup_cons]
      exact ⟨by simpa [eq_comm] using reserved, distinct⟩
    have same : ∀ path, path ∈ paths ↔ path ∈ (moduleNames domains).map sourcePath ∨ path = "mod.rs" := by
      intro path
      rw [listed, sources, moduleNames]
      simp only [List.map_cons, List.map_map, List.mem_append, List.mem_cons, List.not_mem_nil, or_false]
      tauto
    refine ⟨fun m member => (same _).mpr (.inl (List.mem_map_of_mem member)), fun path member other => ?_⟩
    exact List.count_eq_one_of_mem apart (((same path).mp member).resolve_right other)

end Names

end Crate

theorem module_tree_complete (doc : Document) (options : Options) (files : List GeneratedFile)
    (rust : options.target = .rust) (name : OneLine options.facadeName)
    (crate : OneLine options.runtimeCrate)
    (distinct : (doc.domains.map fun d => Crate.identifier d.name).Nodup)
    (reserved : ∀ d ∈ doc.domains, Crate.identifier d.name ≠ "error")
    (generated : doc.generate options = .ok files) :
    Crate.TreeComplete files ↔ ∀ d ∈ doc.domains, Text.snakeCase d.name ∉ Crate.keywords := by
  rw [Document.generate, rust] at generated
  have names := filtered_names doc options.filter Crate.identifier
  rw [Crate.complete_names _ options files name crate generated,
    Crate.names_complete (doc.filteredDomains options.filter) (names ▸ distinct) ?_ _
      (Crate.files_paths _ options files generated)]
  · exact filtered_each doc options.filter fun name => Text.snakeCase name ∉ Crate.keywords
  · exact (filtered_each doc options.filter fun name => Crate.identifier name ≠ "error").mpr reserved

def plainDomains : Document := ⟨none, [bareDomain "DOMDebugger", bareDomain "Self"]⟩

theorem plain_domains_complete :
    (plainDomains.domains.map fun d => Crate.identifier d.name) = ["dom_debugger", "self_"] ∧
      ∃ files, plainDomains.generate { target := .rust } = .ok files ∧ Crate.TreeComplete files := by
  have names : (plainDomains.domains.map fun d => Crate.identifier d.name) = ["dom_debugger", "self_"] := by
    decide
  obtain ⟨files, generated⟩ : ∃ files, plainDomains.generate { target := .rust } = .ok files := ⟨_, rfl⟩
  refine ⟨names, files, generated, ?_⟩
  exact (module_tree_complete plainDomains { target := .rust } files rfl (by decide) (by decide)
    (by rw [names]; decide) (by decide) generated).mpr (by decide)

-- A keyword: the file is written under the raw identifier, where no declaration leads.
def typeDomain : Document := ⟨none, [bareDomain "Type"]⟩

theorem type_domain_incomplete :
    (typeDomain.domains.map fun d => Crate.identifier d.name) = ["r#type"] ∧
      ∃ files, typeDomain.generate { target := .rust } = .ok files ∧
        files.map GeneratedFile.path = ["r#type.rs", "mod.rs", "error.rs"] ∧
        ¬Crate.TreeComplete files := by
  obtain ⟨files, generated⟩ : ∃ files, typeDomain.generate { target := .rust } = .ok files := ⟨_, rfl⟩
  have paths : files.map GeneratedFile.path = ["r#type.rs", "mod.rs", "error.rs"] :=
    Crate.files_paths _ _ files generated
  refine ⟨by decide, files, generated, paths, ?_⟩
  rw [Crate.complete_names [bareDomain "Type"] { target := .rust } files (by decide) (by decide) generated,
    paths]
  decide

end ProtocolStubs
