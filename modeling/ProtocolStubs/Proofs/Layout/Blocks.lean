import ProtocolStubs.Generation.Options
import ProtocolStubs.Layout.Comment
import ProtocolStubs.Proofs.Layout.Pieces
import ProtocolStubs.Proofs.Text.Lines

set_option autoImplicit false

namespace ProtocolStubs

open Text (inked OneLine trimEnd)

-- A text that stands in a file as it is, but for its indentation.
def Row (s : String) : Prop := OneLine s ∧ trimEnd s ≠ "" ∧ trimEnd s = s

instance (s : String) : Decidable (Row s) :=
  inferInstanceAs (Decidable (OneLine s ∧ trimEnd s ≠ "" ∧ trimEnd s = s))

theorem fixed_row {text : List Char}
    (plain : '\n' ∉ text ∧ text.getLast?.any (fun c => !Text.isBlank c) = true) :
    Row (String.ofList text) := by
  obtain ⟨line, shown⟩ := plain
  cases last : text.getLast? with
  | none => simp [last] at shown
  | some c =>
    have trimmed : trimEnd (String.ofList text) = String.ofList text :=
      (Text.trimmed_iff _).mp (by simpa [Text.Trimmed, last] using shown)
    refine ⟨Text.fixed_line line, fun empty => ?_, trimmed⟩
    have nothing : text = [] := by simpa using trimmed.symm.trans empty
    simp [nothing] at last

theorem one_line_append (s t : String) : OneLine (s ++ t) ↔ OneLine s ∧ OneLine t := by
  simp [OneLine]

theorem row_append (s t : String) (line : OneLine s) (row : Row t) : Row (s ++ t) := by
  obtain ⟨tail, given, full⟩ := row
  have trimmed : trimEnd (s ++ t) = s ++ t := by rw [Text.trim_end_append s t given, full]
  refine ⟨(one_line_append s t).mpr ⟨line, tail⟩, ?_, trimmed⟩
  rw [trimmed]
  intro empty
  exact given (full.trans (String.append_eq_empty_iff.mp empty).2)

theorem inked_row (s : String) (row : Row s) : inked s = [s] := by
  rw [Text.inked_line s row.1, if_neg row.2.1, row.2.2]

theorem text_cut (before after : List Char) :
    String.ofList (before ++ '\n' :: after) = String.ofList before ++ "\n" ++ String.ofList after := by
  apply String.toList_injective
  simp

theorem first_line (s : String) : OneLine s ∨ ∃ a b, s = a ++ "\n" ++ b ∧ OneLine a := by
  by_cases feed : '\n' ∈ s.toList
  · obtain ⟨before, after, cut, free⟩ := List.eq_append_cons_of_mem feed
    refine .inr ⟨String.ofList before, String.ofList after, ?_, by simpa [OneLine] using free⟩
    rw [← text_cut, ← cut, String.ofList_toList]
  · exact .inl feed

theorem last_line (s : String) : OneLine s ∨ ∃ a b, s = a ++ "\n" ++ b ∧ OneLine b := by
  by_cases feed : '\n' ∈ s.toList
  · obtain ⟨after, before, cut, free⟩ := List.eq_append_cons_of_mem (List.mem_reverse.mpr feed)
    have cut := congrArg List.reverse cut
    rw [List.reverse_reverse, List.reverse_append, List.reverse_cons, List.append_assoc] at cut
    refine .inr ⟨String.ofList before.reverse, String.ofList after.reverse, ?_, ?_⟩
    · rw [← text_cut]
      exact String.toList_injective (cut.trans (by simp))
    · simpa [OneLine] using free
  · exact .inl feed

theorem inked_front_line (s t : String) (row : Row s) (line : OneLine t) :
    ∃ tail, inked (s ++ t) = [s ++ tail] := by
  have given : s ≠ "" := row.2.2 ▸ row.2.1
  have whole : OneLine (s ++ t) := (one_line_append s t).mpr ⟨row.1, line⟩
  by_cases nothing : trimEnd t = ""
  · refine ⟨"", ?_⟩
    rw [Text.inked_line _ whole, Text.trim_end_append_blank s t nothing, if_neg row.2.1, row.2.2,
      String.append_empty]
  · have trimmed := Text.trim_end_append s t nothing
    refine ⟨trimEnd t, ?_⟩
    rw [Text.inked_line _ whole, trimmed, if_neg fun empty => given (String.append_eq_empty_iff.mp empty).1]

theorem inked_front (s t : String) (row : Row s) : ∃ tail rest, inked (s ++ t) = (s ++ tail) :: rest := by
  rcases first_line t with line | ⟨a, b, rfl, line⟩
  · obtain ⟨tail, same⟩ := inked_front_line s t row line
    exact ⟨tail, [], same⟩
  · obtain ⟨tail, same⟩ := inked_front_line s a row line
    refine ⟨tail, inked b, ?_⟩
    rw [← String.append_assoc, ← String.append_assoc, Text.inked_append, same]
    rfl

theorem inked_back (s t : String) (row : Row t) : ∃ lead, lead ++ t ∈ inked (s ++ t) := by
  rcases last_line s with line | ⟨a, b, rfl, line⟩
  · exact ⟨s, by rw [inked_row _ (row_append s t line row)]; exact List.mem_singleton.mpr rfl⟩
  · refine ⟨b, ?_⟩
    rw [String.append_assoc, Text.inked_append, inked_row _ (row_append b t line row)]
    exact List.mem_append_right _ (List.mem_singleton.mpr rfl)

def Shows (row text : String) : Prop := text.toList <:+: row.toList

theorem shows_self (s : String) : Shows s s := List.infix_rfl

theorem shows_behind (lead row text : String) (shows : Shows row text) : Shows (lead ++ row) text := by
  rw [Shows, String.toList_append]
  exact shows.trans (List.suffix_append _ _).isInfix

theorem shows_before (row tail text : String) (shows : Shows row text) : Shows (row ++ tail) text := by
  rw [Shows, String.toList_append]
  exact shows.trans (List.prefix_append _ _).isInfix

def GeneratedFile.rows (f : GeneratedFile) : List String := inked f.contents

namespace Layout

theorem rows_of_source (path source : String) :
    (GeneratedFile.ofSource path source).rows = inked source := inked_tidy source

theorem indentation_split (indent : String) (first second : Nat) :
    Pen.indentation indent (first + second) =
      Pen.indentation indent first ++ Pen.indentation indent second := by
  induction first with
  | zero => rw [Nat.zero_add, Pen.indentation, String.empty_append]
  | succ first ih => rw [Nat.succ_add, Pen.indentation, ih, Pen.indentation, String.append_assoc]

namespace Code

theorem pieces_all_append (depth : Nat) (first second : List Code) :
    piecesAll depth (first ++ second) = piecesAll depth first ++ piecesAll depth second := by
  induction first with
  | nil => rfl
  | cons code rest ih => rw [List.cons_append, piecesAll, piecesAll, ih, List.append_assoc]

theorem pieces_all_part (depth : Nat) (part code : List Code) (within : part <:+: code) :
    piecesAll depth part <:+: piecesAll depth code := by
  obtain ⟨before, after, rfl⟩ := within
  rw [pieces_all_append, pieces_all_append]
  exact List.infix_append _ _ _

theorem pieces_all_flat_map {α : Type} (depth : Nat) (parts : List α) (code : α → List Code) :
    piecesAll depth (parts.flatMap code) = parts.flatMap fun part => piecesAll depth (code part) := by
  induction parts with
  | nil => rfl
  | cons part rest ih => rw [List.flatMap_cons, pieces_all_append, ih, List.flatMap_cons]

theorem pieces_all_lines {α : Type} (depth : Nat) (texts : List α) (text : α → String) :
    piecesAll depth (texts.map fun t => .line (text t)) = texts.map fun t => (depth, text t) := by
  induction texts with
  | nil => rfl
  | cons t rest ih => rw [List.map_cons, piecesAll, ih]; rfl

theorem pieces_between (depth : Nat) (opener closer : String) (body : List Code) :
    piecesAll depth (between opener closer body) =
      (depth, opener) :: piecesAll (depth + 1) body ++ [(depth, closer)] := by
  simp [between, piecesAll, pieces]

theorem block_member (depth : Nat) (header : String) (body : List Code) (piece : Piece)
    (member : piece ∈ piecesAll (depth + 1) body) : piece ∈ piecesAll depth (block header body) := by
  rw [block, pieces_between]
  exact List.mem_append_left _ (List.mem_cons_of_mem _ member)

mutual

theorem pieces_deep (depth : Nat) : (code : Code) → ∀ piece ∈ pieces depth code, depth ≤ piece.1
  | .line text => by simp [pieces]
  | .blank => by simp [pieces]
  | .nest body => fun piece member =>
    Nat.le_of_succ_le (pieces_all_deep (depth + 1) body piece member)

theorem pieces_all_deep (depth : Nat) :
    (code : List Code) → ∀ piece ∈ piecesAll depth code, depth ≤ piece.1
  | [] => nofun
  | code :: rest => fun piece member => by
    rcases List.mem_append.mp member with here | later
    · exact pieces_deep depth code piece here
    · exact pieces_all_deep depth rest piece later

end

theorem top_line (depth : Nat) (text : String) (code : List Code)
    (member : (depth, text) ∈ piecesAll depth code) : .line text ∈ code := by
  induction code with
  | nil => cases member
  | cons first rest ih =>
    rcases List.mem_append.mp member with here | later
    · cases first with
      | line own =>
        cases List.mem_singleton.mp here
        exact List.mem_cons_self
      | blank => cases here
      | nest body =>
        exact absurd (pieces_all_deep (depth + 1) body _ here) (Nat.not_succ_le_self depth)
    · exact List.mem_cons_of_mem first (ih later)

theorem line_piece (depth : Nat) (text : String) (code : List Code) (member : .line text ∈ code) :
    (depth, text) ∈ piecesAll depth code := by
  obtain ⟨before, after, rfl⟩ := List.append_of_mem member
  rw [pieces_all_append]
  exact List.mem_append_right _ List.mem_cons_self

theorem block_line (header text : String) (body : List Code) (member : .line text ∈ block header body) :
    text = header ++ " \x7b" ∨ text = "\x7d" := by
  simpa [block, between] using member

end Code

theorem Comment.star_line (doc : List String) (text : String) (member : .line text ∈ Comment.star doc) :
    text.toList.head? = some '/' := by
  rw [star] at member
  split at member
  · cases member
  · rename_i given
    cases List.mem_singleton.mp member
    match doc with
    | [] => exact absurd rfl given
    | [_] => simp [starText]
    | _ :: _ :: _ => simp [starText]

theorem Comment.star_depth (depth : Nat) (doc : List String) (piece : Piece)
    (member : piece ∈ Code.piecesAll depth (Comment.star doc)) : piece.1 = depth := by
  rw [star] at member
  split at member
  · cases member
  · rw [List.mem_singleton.mp member]

theorem infix_flat_map {α β : Type} (parts : List α) (part : α) (make : α → List β)
    (member : part ∈ parts) : make part <:+: parts.flatMap make := by
  obtain ⟨before, after, rfl⟩ := List.append_of_mem member
  rw [List.flatMap_append, List.flatMap_cons, ← List.append_assoc]
  exact List.infix_append _ _ _

def textsOf (kind : String → Bool) (pieces : List Piece) : List String :=
  (pieces.map Prod.snd).filter kind

section Texts

variable (kind : String → Bool)

theorem texts_of_append (first second : List Piece) :
    textsOf kind (first ++ second) = textsOf kind first ++ textsOf kind second := by
  rw [textsOf, List.map_append, List.filter_append, textsOf, textsOf]

theorem texts_of_code {α : Type} (depth : Nat) (parts : List α) (code : α → List Code) :
    textsOf kind (Code.piecesAll depth (parts.flatMap code)) =
      parts.flatMap fun part => textsOf kind (Code.piecesAll depth (code part)) := by
  rw [Code.pieces_all_flat_map, textsOf, List.map_flatMap, List.filter_flatMap]
  rfl

theorem texts_of_block (depth : Nat) (header : String) (body : List Code)
    (opener : kind (header ++ " \x7b") = false) (closer : kind "\x7d" = false) :
    textsOf kind (Code.piecesAll depth (Code.block header body)) =
      textsOf kind (Code.piecesAll (depth + 1) body) := by
  rw [Code.block, Code.pieces_between, texts_of_append]
  simp [textsOf, opener, closer]

end Texts

section Written

variable (indent : String)

theorem rows_part (part whole : List Piece) (within : part <:+: whole) :
    rowsOf indent part <:+: rowsOf indent whole := by
  obtain ⟨before, after, rfl⟩ := within
  rw [rows_of_append, rows_of_append]
  exact List.infix_append _ _ _

theorem rows_flat_map {α : Type} (parts : List α) (pieces : α → List Piece) :
    rowsOf indent (parts.flatMap pieces) = parts.flatMap fun part => rowsOf indent (pieces part) :=
  List.flatMap_assoc

theorem piece_row (depth : Nat) (s : String) (row : Row s) :
    Piece.rows indent (depth, s) = [Pen.indentation indent depth ++ s] := by
  rw [Piece.rows, inked_row s row, List.map_singleton]

def rowsAt (pieces : List Piece) : List String :=
  pieces.map fun piece => Pen.indentation indent piece.1 ++ piece.2

theorem rows_each (pieces : List Piece) (each : ∀ piece ∈ pieces, Row piece.2) :
    rowsOf indent pieces = rowsAt indent pieces := by
  induction pieces with
  | nil => rfl
  | cons piece rest ih =>
    obtain ⟨here, later⟩ := List.forall_mem_cons.mp each
    have first := piece_row indent piece.1 piece.2 here
    rw [rowsOf, List.flatMap_cons, first]
    exact congrArg (_ :: ·) (ih later)

theorem row_written (pieces : List Piece) (depth : Nat) (s : String) (row : Row s)
    (member : (depth, s) ∈ pieces) : Pen.indentation indent depth ++ s ∈ rowsOf indent pieces := by
  refine List.mem_flatMap.mpr ⟨(depth, s), member, ?_⟩
  rw [piece_row indent depth s row]
  exact List.mem_singleton.mpr rfl

theorem front_written (pieces : List Piece) (depth : Nat) (s t : String) (row : Row s)
    (member : (depth, s ++ t) ∈ pieces) :
    ∃ tail, Pen.indentation indent depth ++ (s ++ tail) ∈ rowsOf indent pieces := by
  obtain ⟨tail, rest, same⟩ := inked_front s t row
  refine ⟨tail, List.mem_flatMap.mpr ⟨(depth, s ++ t), member, ?_⟩⟩
  rw [Piece.rows, same]
  exact List.mem_cons_self

theorem back_written (pieces : List Piece) (depth : Nat) (s t : String) (row : Row t)
    (member : (depth, s ++ t) ∈ pieces) : ∃ lead, lead ++ t ∈ rowsOf indent pieces := by
  obtain ⟨lead, stands⟩ := inked_back s t row
  refine ⟨Pen.indentation indent depth ++ lead, List.mem_flatMap.mpr ⟨(depth, s ++ t), member, ?_⟩⟩
  rw [String.append_assoc]
  exact List.mem_map_of_mem stands

-- A block among rows: its header stands at the depth given, and everything inside it deeper.
def Encloses (depth : Nat) (header : String) (inside rows : List String) : Prop :=
  ((Pen.indentation indent depth ++ (header ++ " \x7b")) :: inside ++
      [Pen.indentation indent depth ++ "\x7d"]) <:+: rows ∧
    ∀ row ∈ inside, ∃ rest, row = Pen.indentation indent (depth + 1) ++ rest

theorem encloses_within (depth : Nat) (header : String) (inside rows whole : List String)
    (encloses : Encloses indent depth header inside rows) (within : rows <:+: whole) :
    Encloses indent depth header inside whole :=
  ⟨encloses.1.trans within, encloses.2⟩

theorem rows_deep (depth : Nat) (pieces : List Piece) (deep : ∀ piece ∈ pieces, depth ≤ piece.1) :
    ∀ row ∈ rowsOf indent pieces, ∃ rest, row = Pen.indentation indent depth ++ rest := by
  intro row member
  obtain ⟨piece, among, stands⟩ := List.mem_flatMap.mp member
  obtain ⟨line, _, rfl⟩ := List.mem_map.mp stands
  obtain ⟨further, same⟩ := Nat.exists_eq_add_of_le (deep piece among)
  refine ⟨Pen.indentation indent further ++ line, ?_⟩
  rw [same, indentation_split, String.append_assoc]

theorem block_encloses (depth : Nat) (header : String) (body : List Code) (line : OneLine header) :
    Encloses indent depth header (rowsOf indent (Code.piecesAll (depth + 1) body))
      (rowsOf indent (Code.piecesAll depth (Code.block header body))) := by
  refine ⟨?_, rows_deep indent (depth + 1) _ (Code.pieces_all_deep (depth + 1) body)⟩
  rw [Code.block, Code.pieces_between, rows_of_append]
  have opener := piece_row indent depth _ (row_append header " \x7b" line (by decide))
  have closer := piece_row indent depth "\x7d" (by decide)
  simp only [rowsOf, List.flatMap_cons, List.flatMap_nil, List.append_nil, opener, closer]
  exact List.infix_rfl

end Written

end Layout

end ProtocolStubs
