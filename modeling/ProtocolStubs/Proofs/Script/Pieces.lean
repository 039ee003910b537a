import ProtocolStubs.Proofs.Layout.Blocks
import ProtocolStubs.Script.File

set_option autoImplicit false

namespace ProtocolStubs.Script

open Layout
open Text (OneLine)

theorem indent_margin : Margin indent := ⟨by decide, by decide⟩

def domainPieces (d : Domain) (known : List String) (options : Options) : List Piece :=
  Code.piecesAll 0 (domainCode d known options)

theorem domain_rows (path : String) (d : Domain) (known : List String) (options : Options) :
    (GeneratedFile.ofSource path (domainText d known options)).rows =
      rowsOf indent (domainPieces d known options) :=
  (rows_of_source path _).trans (Code.inked_text indent indent_margin _)

theorem import_head (text : String) (other : text.toList.head? ≠ some 'i') :
    ¬ "import".toList <+: text.toList := by
  rintro ⟨rest, spelled⟩
  apply other
  rw [← spelled]
  simp

section Parts

variable (d : Domain) (known : List String) (options : Options)

def opening : List String :=
  ["// @generated by cdp-codegen",
   "// DO NOT EDIT - regenerate with `cargo xtask codegen --typescript`",
   "import \x7b " ++ options.transportType ++ " as " ++ transportAlias options.transportType known ++
    " \x7d from " ++ literal options.transportModule ++ ";"] ++
  (if d.hasEvents then ["import \x7b EventEmitter \x7d from 'events';"] else []) ++
  (if d.commands.isEmpty then [] else ["import \x7b ProtocolError \x7d from './ProtocolError';"])

def importText (name : String) : String :=
  "import \x7b " ++ name ++ " \x7d from " ++ literal ("./" ++ name) ++ ";"

def client : Client := .ofDomain (transportAlias options.transportType known) d

def sections : List Code :=
  (if d.hasEvents then (client d known options).eventsCode ++ [Code.blank] else []) ++
    (client d known options).code ++ [Code.blank] ++ (DataSection.ofDomain d).code

theorem domain_pieces : domainPieces d known options =
    (opening d known options ++ (importedDomains d known).map importText).map (fun t => (0, t)) ++
      Code.piecesAll 0 (sections d known options) := by
  have lines : ∀ texts : List String, Code.piecesAll 0 (texts.map Code.line) =
      texts.map fun t => ((0, t) : Piece) := fun texts => Code.pieces_all_lines 0 texts id
  have split : domainCode d known options =
      header ++ [transportImport options (client d known options).transport] ++
        (if d.hasEvents then [Code.line "import \x7b EventEmitter \x7d from 'events';"] else []) ++
        (if d.commands.isEmpty then [] else
          [Code.line "import \x7b ProtocolError \x7d from './ProtocolError';"]) ++
        ((importedDomains d known).map importText).map Code.line ++ [Code.blank] ++
        sections d known options := by
    simp only [domainCode, sections, client, List.map_map, List.append_assoc]
    rfl
  rw [domainPieces, split, opening]
  simp only [Code.pieces_all_append, lines, List.map_append]
  cases d.hasEvents <;> cases d.commands.isEmpty <;>
    simp [header, transportImport, client, Client.ofDomain, Code.piecesAll, Code.pieces]

theorem sections_line (text : String) (member : .line text ∈ sections d known options) :
    text.toList.head? = some '/' ∨ text.toList.head? = some 'e' ∨ text.toList.head? = some '\x7d' := by
  have block : ∀ header body, header.toList.head? = some 'e' → .line text ∈ Code.block header body →
      text.toList.head? = some 'e' ∨ text.toList.head? = some '\x7d' := by
    intro header body head stands
    rcases Code.block_line header text body stands with rfl | rfl
    · rw [String.toList_append, List.head?_append, head]
      exact .inl rfl
    · exact .inr rfl
  simp only [sections, List.mem_append, Client.eventsCode, Client.code, DataSection.code] at member
  rcases member with ((events | doc | code) | blank) | doc | code
  · split at events
    · rcases List.mem_append.mp events with code | blank
      · exact .inr (block _ _ (by simp) code)
      · cases List.mem_singleton.mp blank
    · cases events
  · exact .inl (Comment.star_line _ _ doc)
  · exact .inr (block _ _ (by simp) code)
  · cases List.mem_singleton.mp blank
  · exact .inl (Comment.star_line _ _ doc)
  · exact .inr (block _ _ (by simp) code)

theorem sections_import_nothing (text : String)
    (member : (0, text) ∈ Code.piecesAll 0 (sections d known options)) :
    ¬ "import".toList <+: text.toList := by
  refine import_head text fun head => ?_
  have line := sections_line d known options text (Code.top_line 0 text _ member)
  rw [head] at line
  simp at line

theorem section_part (part : List Code) (within : part <:+: sections d known options) :
    Code.piecesAll 0 part <:+: domainPieces d known options := by
  rw [domain_pieces]
  exact (Code.pieces_all_part 0 _ _ within).trans (List.suffix_append _ _).isInfix

theorem data_part : Code.piecesAll 0 (DataSection.ofDomain d).code <:+: domainPieces d known options :=
  section_part d known options _ (List.suffix_append _ _).isInfix

theorem client_part :
    Code.piecesAll 0 (client d known options).code <:+: domainPieces d known options := by
  apply section_part
  rw [sections, List.append_assoc _ [Code.blank]]
  exact List.infix_append _ _ _

theorem events_part (given : d.hasEvents = true) :
    Code.piecesAll 0 (client d known options).eventsCode <:+: domainPieces d known options := by
  apply section_part
  rw [sections, if_pos given]
  simp only [List.append_assoc]
  exact (List.prefix_append _ _).isInfix

end Parts

end ProtocolStubs.Script
