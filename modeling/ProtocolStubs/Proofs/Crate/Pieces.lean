import ProtocolStubs.Crate.File
import ProtocolStubs.Proofs.Crate.Identifier
import ProtocolStubs.Proofs.Layout.Blocks
import ProtocolStubs.Proofs.Outcomes

set_option autoImplicit false

namespace ProtocolStubs.Crate

open Layout
open Text (OneLine inked)

theorem indent_margin : Margin indent := ⟨by decide, by decide⟩

theorem spaced_pieces (depth : Nat) (parts : List (List Code)) :
    Code.piecesAll depth (spaced parts) = parts.flatMap (Code.piecesAll depth) := by
  induction parts with
  | nil => rfl
  | cons part rest ih =>
    cases rest with
    | nil => rw [spaced, List.flatMap_singleton]
    | cons next rest => rw [spaced, Code.pieces_all_append, Code.piecesAll, ih, List.flatMap_cons]; rfl

theorem Item.items_rows (items : List Item) (text : String) (written : Item.textAll items = .ok text) :
    inked text = rowsOf indent (items.flatMap fun item => Code.piecesAll 0 item.code) := by
  rw [textAll] at written
  split at written
  · rw [← Except.ok.inj written]
    change inked (Code.rowText indent _) = _
    rw [Code.inked_row_text indent indent_margin, spaced_pieces, List.flatMap_map]
  · cases written

namespace Client

def pieces (runtime : String) (c : Client) : List Piece :=
  (c.items runtime).flatMap fun item => Code.piecesAll 0 item.code

theorem text_written (runtime : String) (c : Client) (plain : '<' ∉ c.name.toList) :
    ∃ text, c.text runtime = .ok text ∧ inked text = rowsOf indent (c.pieces runtime) := by
  have writable : (c.items runtime).all Item.isWritable = true := by
    simpa [items, Item.isWritable, head, Head.isPlain] using plain
  exact ⟨_, if_pos writable, Item.items_rows _ _ (if_pos writable)⟩

theorem text_plain (runtime text : String) (c : Client) (written : c.text runtime = .ok text) :
    '<' ∉ c.name.toList := by
  rw [Client.text, Item.textAll] at written
  split at written
  · rename_i writable
    simpa [items, Item.isWritable, head, Head.isPlain] using writable
  · cases written

end Client

section Parts

variable (d : Domain) (known : List String) (index : TypeIndex) (options : Options)

def docTexts : List String :=
  match d.notes.lines Comment.slashTag with
  | [] => ["//! The `" ++ d.name ++ "` domain."]
  | lines => lines.map (Pen.commentLine "//!")

def opening : List String :=
  [headerText] ++ docTexts d ++ ["#![allow(clippy::all, unused_imports)]"]

def importTexts : List String → List String
  | [] => []
  | [single] => ["use super::" ++ single ++ ";"]
  | many => ["use super::\x7b" ++ Text.joinWith ", " many ++ "\x7d;"]

def sections : List Piece :=
  Code.piecesAll 0 ((DataModules.ofDomain index d).code options.runtimeCrate) ++
    (Client.ofDomain d).pieces options.runtimeCrate

def domainPieces : List Piece :=
  (opening d ++ importTexts ((importedDomains d known).map identifier)).map (fun t => (0, t)) ++
    sections d index options

theorem doc_pieces : Code.piecesAll 0 (moduleDoc d) = (docTexts d).map fun t => (0, t) := by
  rw [moduleDoc, docTexts]
  cases d.notes.lines Comment.slashTag with
  | nil => rfl
  | cons line rest =>
    dsimp only
    rw [Code.pieces_all_lines, List.map_map]
    rfl

theorem import_pieces (names : List String) :
    Code.piecesAll 0 (importCode names) = (importTexts names).map fun t => (0, t) := by
  match names with
  | [] => rfl
  | [_] => rfl
  | _ :: _ :: _ => rfl

theorem top_rows (text : String) : Piece.rows indent (0, text) = inked text := by
  rw [Piece.rows]
  exact (List.map_congr_left fun row _ => String.empty_append).trans (List.map_id _)

theorem whole_rows (text : String) : rowsOf indent [(0, text)] = inked text := by
  rw [rowsOf, List.flatMap_singleton, top_rows]

theorem domain_code (body : String)
    (client : (Client.ofDomain d).text options.runtimeCrate = .ok body) :
    domainCode d known index options = .ok ([Code.line headerText, Code.blank] ++ moduleDoc d ++
      [Code.blank, Code.line "#![allow(clippy::all, unused_imports)]", Code.blank] ++
      importCode ((importedDomains d known).map identifier) ++ [Code.blank] ++
      (DataModules.ofDomain index d).code options.runtimeCrate ++ [Code.line body]) := by
  simp only [domainCode, client, bind, Except.bind, pure, Except.pure]

theorem domain_text_written (plain : '<' ∉ (typeName d.name).toList) :
    ∃ text, domainText d known index options = .ok text ∧
      inked text = rowsOf indent (domainPieces d known index options) := by
  obtain ⟨body, client, rows⟩ :=
    (Client.ofDomain d).text_written options.runtimeCrate plain
  rw [domainText, domain_code d known index options body client]
  refine ⟨_, rfl, ?_⟩
  have first : Code.piecesAll 0 [.line headerText, .blank] = [(0, headerText)] := rfl
  have middle : Code.piecesAll 0 [.blank, .line "#![allow(clippy::all, unused_imports)]", .blank] =
    [(0, "#![allow(clippy::all, unused_imports)]")] := rfl
  have gap : Code.piecesAll 0 [.blank] = [] := rfl
  have last : Code.piecesAll 0 [.line body] = [(0, body)] := rfl
  rw [Code.inked_text indent indent_margin]
  simp only [Code.pieces_all_append, doc_pieces, import_pieces, first, middle, gap, last,
    rows_of_append, whole_rows body, rows, domainPieces, opening, sections, List.map_append,
    List.map_cons, List.map_nil, List.append_assoc, List.nil_append]

theorem domain_text_client (text : String) (written : domainText d known index options = .ok text) :
    ∃ body, (Client.ofDomain d).text options.runtimeCrate = .ok body ∧
      Code.text indent ([Code.line headerText, Code.blank] ++ moduleDoc d ++
        [Code.blank, Code.line "#![allow(clippy::all, unused_imports)]", Code.blank] ++
        importCode ((importedDomains d known).map identifier) ++ [Code.blank] ++
        (DataModules.ofDomain index d).code options.runtimeCrate ++ [Code.line body]) = text := by
  obtain ⟨code, coded, rfl⟩ := (map_ok _ _ _).mp written
  obtain ⟨body, client, same⟩ := (bind_ok _ _ _).mp coded
  exact ⟨body, client, congrArg (Code.text indent) (Except.ok.inj same)⟩

theorem domain_text_plain (text : String) (written : domainText d known index options = .ok text) :
    '<' ∉ (typeName d.name).toList := by
  obtain ⟨body, client, _⟩ := domain_text_client d known index options text written
  exact (Client.ofDomain d).text_plain _ body client

theorem domain_text_rows (text : String) (written : domainText d known index options = .ok text) :
    inked text = rowsOf indent (domainPieces d known index options) := by
  obtain ⟨other, same, rows⟩ := domain_text_written d known index options
    (domain_text_plain d known index options text written)
  exact Except.ok.inj (same.symm.trans written) ▸ rows

theorem data_part : Code.piecesAll 0 ((DataModules.ofDomain index d).code options.runtimeCrate) <:+:
    domainPieces d known index options := by
  rw [domainPieces, sections, ← List.append_assoc]
  exact List.infix_append _ _ _

theorem client_part : (Client.ofDomain d).pieces options.runtimeCrate <:+:
    domainPieces d known index options :=
  (List.suffix_append _ _).isInfix.trans (List.suffix_append _ _).isInfix

end Parts

-- Whether a text can be an import of other modules shows in its first character.
theorem module_line (name doc text : String) (body : List Code)
    (member : .line text ∈ DataModules.moduleCode name doc body) : text.toList.head? ≠ some 'u' := by
  rw [DataModules.moduleCode, List.mem_append, List.mem_cons] at member
  rcases member with (own | block) | blank
  · cases own
    simp
  · rcases Code.block_line _ text _ block with rfl | rfl <;> simp
  · cases List.mem_singleton.mp blank

theorem data_line (runtime text : String) (m : DataModules) (member : .line text ∈ m.code runtime) :
    text.toList.head? ≠ some 'u' := by
  have records : ∀ name doc records, .line text ∈ DataModules.recordsCode runtime name doc records →
      text.toList.head? ≠ some 'u' := by
    intro name doc records stands
    rw [DataModules.recordsCode] at stands
    split at stands
    · cases stands
    · exact module_line name doc text _ stands
  simp only [DataModules.code, List.mem_append] at member
  rcases member with ((types | params) | results) | events
  · exact module_line _ _ text _ types
  · exact records _ _ _ params
  · exact records _ _ _ results
  · exact records _ _ _ events

theorem doc_code_line (doc text : String) (member : .line text ∈ docCode doc) :
    text.toList.head? ≠ some 'u' := by
  obtain ⟨line, _, same⟩ := List.mem_map.mp member
  cases same
  split <;> simp

theorem head_code_line (lead text : String) (head : Head) (body : List Code)
    (member : .line text ∈ [.line (lead ++ head.text), head.boundCode] ++ Code.between "\x7b" "\x7d" body) :
    text = lead ++ head.text ∨ text = "where T: " ++ head.bound ++ "," ∨ text = "\x7b" ∨ text = "\x7d" := by
  simpa only [Head.boundCode, Code.between, List.cons_append, List.nil_append, List.mem_cons,
    List.not_mem_nil, or_false, Code.line.injEq, reduceCtorEq, false_or] using member

theorem head_line (lead text : String) (head : Head) (body : List Code) (first : Char)
    (spelled : lead.toList.head? = some first) (other : first ≠ 'u')
    (member : .line text ∈ [.line (lead ++ head.text), head.boundCode] ++ Code.between "\x7b" "\x7d" body) :
    text.toList.head? ≠ some 'u' := by
  rcases head_code_line lead text head body member with rfl | rfl | rfl | rfl
  · rw [String.toList_append, List.head?_append, spelled]
    exact fun same => other (Option.some.inj same)
  · simp
  · simp
  · simp

theorem client_line (runtime text : String) (c : Client) (item : Item) (among : item ∈ c.items runtime)
    (member : .line text ∈ item.code) : text.toList.head? ≠ some 'u' := by
  simp only [Client.items, List.mem_cons, List.not_mem_nil, or_false] at among
  rcases among with rfl | rfl | rfl
  · rw [Item.code, List.append_assoc] at member
    rcases List.mem_append.mp member with doc | own
    · exact doc_code_line _ text doc
    · exact head_line "pub struct " text _ _ 'p' (by decide) (by decide) own
  · simp only [Item.code, Client.construction, List.mem_cons, List.not_mem_nil, or_false, Code.line.injEq,
      reduceCtorEq, false_or] at member
    rcases member with rfl | rfl | rfl | rfl | rfl | rfl | rfl | rfl <;> simp
  · exact head_line "impl<T> " text _ _ 'i' (by decide) (by decide) member

theorem sections_import_nothing (d : Domain) (index : TypeIndex) (options : Options) (text : String)
    (member : (0, text) ∈ sections d index options) : ¬ "use ".toList <+: text.toList := by
  rintro ⟨rest, spelled⟩
  have head : text.toList.head? = some 'u' := by rw [← spelled]; simp
  rcases List.mem_append.mp member with data | client
  · exact data_line _ text _ (Code.top_line 0 text _ data) head
  · obtain ⟨item, among, own⟩ := List.mem_flatMap.mp client
    exact client_line _ text _ item among (Code.top_line 0 text _ own) head

end ProtocolStubs.Crate
