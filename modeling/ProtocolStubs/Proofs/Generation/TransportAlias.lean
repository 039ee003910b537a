import ProtocolStubs.Generation.Generate
import ProtocolStubs.Proofs.Script.References
import ProtocolStubs.Proofs.Script.TransportAlias

set_option autoImplicit false

namespace ProtocolStubs

namespace Script

open Layout

section Imports

variable (names : List String) (options : Options)

def banner : List String :=
  ["// @generated by cdp-codegen",
   "// DO NOT EDIT - regenerate with `cargo xtask codegen --typescript`"]

def transportText (name : String) : String :=
  "import \x7b " ++ options.transportType ++ " as " ++ name ++ " \x7d from " ++
    literal options.transportModule ++ ";"

inductive Imported : String → Prop where
  | emitter : Imported "import \x7b EventEmitter \x7d from 'events';"
  | error : Imported "import \x7b ProtocolError \x7d from './ProtocolError';"
  | domain (name : String) (member : name ∈ names) : Imported (importText name)

-- A file imports the transport under a name first of all, and nothing but domains and the fixed classes
-- after it.
def ImportsTransport (name : String) (f : GeneratedFile) : Prop :=
  ∃ others rest, f.rows =
      rowsOf indent ((banner ++ transportText options name :: others).map (fun t => (0, t)) ++ rest) ∧
    (∀ text ∈ others, Imported names text) ∧
    ∀ text, (0, text) ∈ rest → ¬ "import".toList <+: text.toList

def fixedImports (d : Domain) : List String :=
  (if d.hasEvents then ["import \x7b EventEmitter \x7d from 'events';"] else []) ++
    (if d.commands.isEmpty then [] else ["import \x7b ProtocolError \x7d from './ProtocolError';"])

theorem fixed_imported (d : Domain) : ∀ text ∈ fixedImports d, Imported names text := by
  intro text member
  rcases List.mem_append.mp member with emitter | error
  · split at emitter
    · cases List.mem_singleton.mp emitter
      exact .emitter
    · cases emitter
  · split at error
    · cases error
    · cases List.mem_singleton.mp error
      exact .error

theorem opening_split (d : Domain) : opening d names options =
    banner ++ transportText options (transportAlias options.transportType names) :: fixedImports d :=
  List.append_assoc _ _ _

theorem domain_imports (path : String) (d : Domain) :
    ImportsTransport names options (transportAlias options.transportType names)
      (.ofSource path (domainText d names options)) := by
  refine ⟨fixedImports d ++ (importedDomains d names).map importText,
    Code.piecesAll 0 (sections d names options), ?_, ?_, sections_import_nothing d names options⟩
  · rw [domain_rows, domain_pieces, opening_split, List.append_assoc, List.cons_append]
  · intro text member
    rcases List.mem_append.mp member with fixed | other
    · exact fixed_imported names d text fixed
    · obtain ⟨name, among, rfl⟩ := List.mem_map.mp other
      exact .domain name ((imported_iff d names name).mp among).2

theorem index_split : ∃ exported : List Code,
    header ++ indexBody names options =
        banner.map Code.line ++ [Code.blank] ++
          (transportText options (transportAlias options.transportType names) :: names.map importText).map
            Code.line ++ ([Code.blank] ++ exported) ∧
      ∀ text, Code.line text ∈ exported → text.toList.head? ≠ some 'i' := by
  refine ⟨?exported, ?split, ?own⟩
  case split =>
    have front : header = banner.map Code.line ++ [.blank] := rfl
    have transport : ∀ name, transportImport options name = .line (transportText options name) := fun _ => rfl
    have imports : names.map domainImport = (names.map importText).map Code.line := List.map_map.symm
    rw [indexBody, front, transport, imports]
    simp only [List.map_cons, List.append_assoc]
    rfl
  case own =>
    intro text member
    rcases List.mem_append.mp member with line | behind
    · obtain ⟨name, _, same⟩ := List.mem_map.mp line
      cases same
      simp
    · rcases List.mem_append.mp behind with fixed | block
      · simp only [List.mem_cons, Code.line.injEq, reduceCtorEq, false_or, List.not_mem_nil, or_false]
          at fixed
        rcases fixed with rfl | rfl <;> simp
      · rcases Code.block_line _ text _ block with rfl | rfl <;> simp

theorem index_imports (path : String) :
    ImportsTransport names options (transportAlias options.transportType names)
      (.ofSource path (Code.text indent (header ++ indexBody names options))) := by
  have lines : ∀ texts : List String, Code.piecesAll 0 (texts.map Code.line) =
      texts.map fun t => ((0, t) : Piece) := fun texts => Code.pieces_all_lines 0 texts id
  obtain ⟨exported, split, own⟩ := index_split names options
  refine ⟨names.map importText, Code.piecesAll 0 exported, ?_, ?_, ?_⟩
  · rw [rows_of_source, Code.inked_text indent indent_margin, split]
    simp only [Code.pieces_all_append, lines, List.map_append]
    simp [Code.piecesAll, Code.pieces]
  · intro text member
    obtain ⟨name, among, rfl⟩ := List.mem_map.mp member
    exact .domain name among
  · exact fun text member => import_head text (own text (Code.top_line 0 text _ member))

end Imports

end Script

-- The files of a run, but for the error file, import the transport under one name that no domain has.
structure Document.SharesAlias (doc : Document) (options : Options) (name : String) : Prop where
  generated : ∃ own index error,
    doc.generate { options with target := .typeScript } = .ok (own ++ [index, error]) ∧
      own.map GeneratedFile.path = doc.domains.map (fun d => d.name ++ ".ts") ∧
      index.path = "index.ts" ∧ error.path = "ProtocolError.ts" ∧
      ∀ f ∈ own ++ [index], Script.ImportsTransport (doc.domains.map Domain.name) options name f
  free : ∀ d ∈ doc.domains, d.name ≠ name

theorem alias_shared (doc : Document) (options : Options) :
    doc.SharesAlias options
      (Script.transportAlias options.transportType (doc.domains.map Domain.name)) := by
  have names : (doc.filteredDomains options.filter).map Domain.name = doc.domains.map Domain.name :=
    List.map_map
  refine ⟨⟨_, _, _, rfl, ?_, rfl, rfl, ?_⟩, ?_⟩
  · rw [List.map_map]
    exact List.map_map
  · rw [← names]
    intro f member
    rcases List.mem_append.mp member with own | last
    · obtain ⟨d, _, rfl⟩ := List.mem_map.mp own
      exact Script.domain_imports _ { options with target := .typeScript } _ d
    · cases List.mem_singleton.mp last
      exact Script.index_imports _ { options with target := .typeScript } _
  · intro d member same
    exact Script.alias_unknown options.transportType (doc.domains.map Domain.name)
      (List.mem_map.mpr ⟨d, member, same⟩)

-- The alias has the fewest underscores that make it unlike every known name, the search for it ends there,
-- and a run of the generator uses the one of all its domains.
theorem transport_alias_fresh (transportType : String) (known : List String) (doc : Document)
    (options : Options) :
    (∃ count, Script.LeastFree known (transportType ++ "Handle") count ∧
      Script.transportAlias transportType known = Script.underscored (transportType ++ "Handle") count) ∧
    (∀ result, Script.Pads known (transportType ++ "Handle") result ↔
      result = Script.transportAlias transportType known) ∧
    doc.SharesAlias options
      (Script.transportAlias options.transportType (doc.domains.map Domain.name)) :=
  ⟨Script.alias_least transportType known, Script.pads_alias transportType known, alias_shared doc options⟩

end ProtocolStubs
