import ProtocolStubs.Layout.Rows
import ProtocolStubs.Layout.Tidy
import ProtocolStubs.Proofs.Text.Ink

set_option autoImplicit false

namespace ProtocolStubs.Layout

open Text (inked lines OneLine Ended trimEnd)

abbrev Piece := Nat × String

namespace Code

mutual

def pieces (depth : Nat) : Code → List Piece
  | .line text => [(depth, text)]
  | .blank => []
  | .nest body => piecesAll (depth + 1) body

def piecesAll (depth : Nat) : List Code → List Piece
  | [] => []
  | code :: rest => pieces depth code ++ piecesAll depth rest

end

end Code

def Piece.rows (indent : String) (piece : Piece) : List String :=
  (inked piece.2).map fun row => Pen.indentation indent piece.1 ++ row

def rowsOf (indent : String) (pieces : List Piece) : List String := pieces.flatMap (Piece.rows indent)

theorem rows_of_append (indent : String) (first second : List Piece) :
    rowsOf indent (first ++ second) = rowsOf indent first ++ rowsOf indent second :=
  List.flatMap_append

theorem rows_of_cons (indent : String) (piece : Piece) (rest : List Piece) :
    rowsOf indent (piece :: rest) = piece.rows indent ++ rowsOf indent rest :=
  List.flatMap_cons

structure Margin (indent : String) : Prop where
  blank : Text.isAllBlank indent = true
  line : OneLine indent

theorem margin_append (first second : String) (left : Margin first) (right : Margin second) :
    Margin (first ++ second) := by
  refine ⟨?_, ?_⟩
  · rw [Text.isAllBlank, String.toList_append, List.all_append]
    exact Bool.and_eq_true_iff.mpr ⟨left.blank, right.blank⟩
  · rw [OneLine, String.toList_append, List.mem_append]
    exact not_or.mpr ⟨left.line, right.line⟩

theorem margin_none : Margin "" := ⟨rfl, by simp [OneLine]⟩

theorem margin_indentation (indent : String) (margin : Margin indent) (level : Nat) :
    Margin (Pen.indentation indent level) := by
  induction level with
  | zero => exact margin_none
  | succ level ih => exact margin_append indent _ margin ih

namespace Pen

-- A pen at the start of a line, after so many rows more were written.
structure Grows (p q : Pen) (rows : List String) : Prop where
  indent : q.indent = p.indent
  level : q.level = p.level
  fresh : q.atLineStart = true
  out : ∃ s, q.out = p.out ++ s ∧ Ended s ∧ inked s = rows

theorem grows_none (p : Pen) (fresh : p.atLineStart = true) : Grows p p [] :=
  ⟨rfl, rfl, fresh, "", String.append_empty.symm, .inl rfl, rfl⟩

theorem grows_trans (p q r : Pen) (first second : List String) (left : Grows p q first)
    (right : Grows q r second) : Grows p r (first ++ second) := by
  obtain ⟨s, written, ended, rows⟩ := left.out
  obtain ⟨t, writtenThen, endedThen, rowsThen⟩ := right.out
  refine ⟨right.indent.trans left.indent, right.level.trans left.level, right.fresh, s ++ t, ?_,
    Text.ended_append s t ended endedThen, ?_⟩
  · rw [writtenThen, written, String.append_assoc]
  · rw [Text.inked_ended s t ended, rows, rowsThen]

theorem end_line_grows (p : Pen) : Grows p p.endLine [] :=
  ⟨rfl, rfl, rfl, "\n", rfl, .inr ⟨"", rfl⟩, rfl⟩

theorem bare_line_grows (p : Pen) (text : String) (fresh : p.atLineStart = true) (margin : Margin p.indent)
    (line : OneLine text) :
    Grows p (p.bareLine text) (Piece.rows p.indent (p.level, text)) := by
  have indentation := margin_indentation p.indent margin p.level
  have ended : ∀ s : String, Ended (s ++ "\n") := fun s => .inr ⟨s, rfl⟩
  rw [bareLine, write]
  split
  · rename_i empty
    subst empty
    exact end_line_grows p
  · split
    · refine ⟨rfl, rfl, rfl, Pen.indentation p.indent p.level ++ text ++ "\n", ?_, ended _, ?_⟩
      · simp [endLine, String.append_assoc]
      · rw [Text.inked_closed, Text.inked_behind _ text indentation.blank indentation.line line]
        rfl
    · rename_i blank
      have nothing : trimEnd text = "" := by
        rw [Text.trim_end_blank]
        simpa [fresh] using blank
      refine ⟨rfl, rfl, rfl, text ++ "\n", String.append_assoc, ended _, ?_⟩
      rw [Text.inked_closed, Piece.rows, Text.inked_line text line, if_pos nothing]
      rfl

theorem bare_lines_grow (texts : List String) (p : Pen) (fresh : p.atLineStart = true)
    (margin : Margin p.indent) (each : ∀ text ∈ texts, OneLine text) :
    Grows p (texts.foldl bareLine p) (texts.flatMap fun text => Piece.rows p.indent (p.level, text)) := by
  induction texts generalizing p with
  | nil => exact grows_none p fresh
  | cons text rest ih =>
    obtain ⟨here, later⟩ := List.forall_mem_cons.mp each
    have first := bare_line_grows p text fresh margin here
    have second := ih (p.bareLine text) first.fresh (first.indent ▸ margin) later
    rw [first.indent, first.level] at second
    exact grows_trans p _ _ _ _ first second

theorem line_grows (p : Pen) (text : String) (fresh : p.atLineStart = true) (margin : Margin p.indent) :
    Grows p (p.line text) (Piece.rows p.indent (p.level, text)) := by
  rw [line]
  cases feeds : Text.hasLineFeed text with
  | false => exact bare_line_grows p text fresh margin (by simpa [Text.hasLineFeed] using feeds)
  | true =>
    have written := bare_lines_grow (lines text) p fresh margin (Text.lines_line text)
    have rows : ((lines text).flatMap fun row => Piece.rows p.indent (p.level, row)) =
        Piece.rows p.indent (p.level, text) := by
      simp only [Piece.rows]
      rw [← List.map_flatMap, Text.inked_lines]
    rwa [rows] at written

end Pen

namespace Code

open Pen (Grows)

mutual

theorem write_grows (p : Pen) (fresh : p.atLineStart = true) (margin : Margin p.indent) :
    (code : Code) → Grows p (write p code) (rowsOf p.indent (pieces p.level code))
  | .line text => by
    rw [write, pieces, rowsOf, List.flatMap_singleton]
    exact Pen.line_grows p text fresh margin
  | .blank => Pen.end_line_grows p
  | .nest body => by
    obtain ⟨indent, level, fresh, out⟩ := write_all_grows p.deepen fresh margin body
    rw [write]
    refine ⟨indent, ?_, fresh, out⟩
    rw [Pen.lighten, level]
    rfl

theorem write_all_grows (p : Pen) (fresh : p.atLineStart = true) (margin : Margin p.indent) :
    (code : List Code) → Grows p (writeAll p code) (rowsOf p.indent (piecesAll p.level code))
  | [] => Pen.grows_none p fresh
  | code :: rest => by
    have first := write_grows p fresh margin code
    have second := write_all_grows (write p code) first.fresh (first.indent ▸ margin) rest
    rw [first.indent, first.level] at second
    rw [writeAll, piecesAll, rows_of_append]
    exact Pen.grows_trans p _ _ _ _ first second

end

theorem inked_text (indent : String) (margin : Margin indent) (code : List Code) :
    inked (text indent code) = rowsOf indent (piecesAll 0 code) := by
  obtain ⟨s, written, _, rows⟩ := (write_all_grows (.start indent) rfl margin code).out
  rw [text, written]
  change inked ("" ++ s) = _
  rw [String.empty_append, rows]
  rfl

end Code

theorem joined_cons (first second : String) (rest : List String) :
    Text.joinWith "\n" (first :: second :: rest) = first ++ "\n" ++ Text.joinWith "\n" (second :: rest) := by
  apply String.toList_injective
  simp [Text.joinWith, List.intercalate_cons_cons]

theorem inked_joined (rows : List String) : inked (Text.joinWith "\n" rows) = rows.flatMap inked := by
  induction rows with
  | nil => rfl
  | cons first rest ih =>
    cases rest with
    | nil => simp [Text.joinWith]
    | cons second rest => rw [joined_cons, Text.inked_append, ih, ← List.flatMap_cons]

theorem inked_open_lines (text : String) : (Text.openLines text).flatMap inked = inked text := by
  rw [Text.openLines]
  split
  · rw [List.flatMap_append, Text.inked_lines]
    exact List.append_nil _
  · exact Text.inked_lines text

theorem open_lines_line (text row : String) (member : row ∈ Text.openLines text) : OneLine row := by
  rw [Text.openLines] at member
  split at member
  · rcases List.mem_append.mp member with line | last
    · exact Text.lines_line text row line
    · rw [List.mem_singleton.mp last]
      exact margin_none.line
  · exact Text.lines_line text row member

theorem inked_indented (lead row : String) (margin : Margin lead) (line : OneLine row) :
    inked (Code.indented lead row) = (inked row).map (lead ++ ·) := by
  rw [Code.indented]
  split
  · rename_i empty
    subst empty
    rfl
  · exact Text.inked_behind lead row margin.blank margin.line line

namespace Code

theorem indentation_deeper (indent : String) (level : Nat) :
    Pen.indentation indent level ++ indent = Pen.indentation indent (level + 1) := by
  induction level with
  | zero => simp [Pen.indentation]
  | succ level ih =>
    rw [Pen.indentation, String.append_assoc, ih]
    rfl

mutual

theorem inked_rows (indent : String) (margin : Margin indent) (depth : Nat) :
    (code : Code) → (rows indent (Pen.indentation indent depth) code).flatMap inked =
      rowsOf indent (pieces depth code)
  | .line text => by
    have lead := margin_indentation indent margin depth
    rw [rows, List.flatMap_map, pieces, rowsOf, List.flatMap_singleton, Piece.rows,
      ← inked_open_lines, List.map_flatMap]
    apply List.flatMap_congr
    intro row member
    exact inked_indented _ row lead (open_lines_line text row member)
  | .blank => rfl
  | .nest body => by
    rw [rows, indentation_deeper, inked_rows_all indent margin (depth + 1) body]
    rfl

theorem inked_rows_all (indent : String) (margin : Margin indent) (depth : Nat) :
    (code : List Code) → (rowsAll indent (Pen.indentation indent depth) code).flatMap inked =
      rowsOf indent (piecesAll depth code)
  | [] => rfl
  | code :: rest => by
    rw [rowsAll, List.flatMap_append, inked_rows indent margin depth code,
      inked_rows_all indent margin depth rest, piecesAll, rows_of_append]

end

theorem inked_row_text (indent : String) (margin : Margin indent) (code : List Code) :
    inked (rowText indent code) = rowsOf indent (piecesAll 0 code) := by
  rw [rowText, inked_joined]
  exact inked_rows_all indent margin 0 code

end Code

theorem kept_below_inked (above : Option String) (rows : List String) :
    (keptBelow above rows).filter (fun row => row ≠ "") = rows.filter fun row => row ≠ "" := by
  induction rows generalizing above with
  | nil => rfl
  | cons row rest ih =>
    rw [keptBelow]
    split
    · rename_i dropped
      rw [ih, dropped.1]
      rfl
    · rw [List.filter_cons, List.filter_cons, ih]

theorem kept_below_subset (above : Option String) (rows : List String) :
    ∀ row ∈ keptBelow above rows, row ∈ rows := by
  induction rows generalizing above with
  | nil => exact nofun
  | cons first rest ih =>
    rw [keptBelow]
    intro row member
    split at member
    · exact List.mem_cons_of_mem first (ih above row member)
    · rcases List.mem_cons.mp member with rfl | later
      · exact List.mem_cons_self
      · exact List.mem_cons_of_mem first (ih (some first) row later)

theorem inked_tidy (source : String) : inked (tidy source) = inked source := by
  have trimmed : ∀ row ∈ keptBelow none ((lines source).map trimEnd), ∃ line ∈ lines source,
      trimEnd line = row := fun row member => List.mem_map.mp (kept_below_subset none _ row member)
  have each : ∀ row ∈ keptBelow none ((lines source).map trimEnd), OneLine row := by
    intro row member
    obtain ⟨line, among, rfl⟩ := trimmed row member
    exact Text.trim_end_line line (Text.lines_line source line among)
  have same : (keptBelow none ((lines source).map trimEnd)).map trimEnd =
      keptBelow none ((lines source).map trimEnd) := by
    refine (List.map_congr_left fun row member => ?_).trans (List.map_id _)
    obtain ⟨line, _, rfl⟩ := trimmed row member
    exact Text.trim_end_twice line
  rw [tidy, Text.inked_closed, inked_joined, Text.inked_each _ each, same, kept_below_inked]
  rfl

end ProtocolStubs.Layout
