import ProtocolStubs.Layout.Comment
import ProtocolStubs.Proofs.Layout.Blocks
import ProtocolStubs.Proofs.Layout.Strokes
import ProtocolStubs.Proofs.Schema.Notes

set_option autoImplicit false

namespace ProtocolStubs

open Text (lines Mark OneLine split trim Trimmed trimEnd)

namespace Text

theorem trim_trimmed (s : String) : trimEnd (trim s) = trim s := by
  rw [← trimmed_iff]
  intro c last
  rw [trim, String.toList_ofList, dropBlanks] at last
  obtain ⟨front, whole⟩ := List.dropWhile_suffix (l := dropBlanksEnd s.toList) isBlank
  have ends : c ∈ (dropBlanksEnd s.toList).getLast? := by
    rw [← whole, List.getLast?_append, Option.mem_def.mp last]
    rfl
  have trimmed := trimmed_trim_end s
  rw [Trimmed, trimEnd, String.toList_ofList] at trimmed
  exact trimmed c ends

theorem trim_line (s : String) (line : OneLine s) : OneLine (trim s) := by
  intro feed
  rw [trim, String.toList_ofList, dropBlanks] at feed
  have inside : '\n' ∈ (trimEnd s).toList := by
    rw [trimEnd, String.toList_ofList]
    exact (List.dropWhile_suffix isBlank).subset feed
  exact trim_end_line s line inside

theorem split_line (s : String) (line : OneLine s) : split '\n' s = [s] := by
  rw [split, split_from_free '\n' [] s.toList line, List.reverse_nil, List.nil_append, String.ofList_toList]

end Text

namespace Layout

theorem rows_joined (rows : List String) (given : rows ≠ []) (each : ∀ row ∈ rows, Row row) :
    lines (Text.joinWith "\n" rows) = rows ∧ split '\n' (Text.joinWith "\n" rows) = rows := by
  induction rows with
  | nil => exact absurd rfl given
  | cons row rest ih =>
    obtain ⟨⟨line, shown, trimmed⟩, later⟩ := List.forall_mem_cons.mp each
    cases rest with
    | nil =>
      have single : Text.joinWith "\n" [row] = row := by simp [Text.joinWith]
      rw [single]
      exact ⟨Text.lines_single row line (trimmed ▸ shown), Text.split_line row line⟩
    | cons next rest =>
      obtain ⟨lines_, split_⟩ := ih (List.cons_ne_nil _ _) later
      have cut : (row ++ "\n" ++ Text.joinWith "\n" (next :: rest)).toList =
          row.toList ++ '\n' :: (Text.joinWith "\n" (next :: rest)).toList := by simp
      rw [joined_cons]
      constructor
      · rw [lines, cut, Text.lines_from_row row _ line ((Text.trimmed_iff row).mpr trimmed), List.map_cons,
          String.ofList_toList]
        exact congrArg (row :: ·) lines_
      · have first : Text.splitFrom '\n' [] row.toList = [row] := Text.split_line row line
        rw [split, cut, Text.split_from_append, first, List.singleton_append]
        exact congrArg (row :: ·) split_

def eachBehind (lead text : String) : String :=
  String.join ((split '\n' text).map fun line => lead ++ line ++ "\n")

theorem page_rows (indent : String) (level : Nat) (rows : List String) (each : ∀ row ∈ rows, Row row) :
    page indent (rows.map fun row => (level, row)) =
      String.join (rows.map fun row => Pen.indentation indent level ++ row ++ "\n") := by
  rw [page, List.map_map]
  refine congrArg String.join (List.map_congr_left fun row member => ?_)
  have shown : ¬Text.isAllBlank row = true := fun blank =>
    (each row member).2.1 ((Text.trim_end_blank row).mpr blank)
  rw [Function.comp_apply, lineText, if_neg shown, Pen.indentation_copies]

theorem rows_written (indent : String) (level : Nat) (out : String) (rows : List String)
    (given : rows ≠ []) (each : ∀ row ∈ rows, Row row) :
    (Pen.mk indent level true out).line (Text.joinWith "\n" rows) =
      ⟨indent, level, true,
        out ++ eachBehind (Pen.indentation indent level) (Text.joinWith "\n" rows)⟩ := by
  obtain ⟨lines_, split_⟩ := rows_joined rows given each
  have text : Text.joinWith "\n" rows ≠ "" := by
    intro empty
    rw [empty] at lines_
    exact given lines_.symm
  rw [Pen.line_written, linesAt, if_neg text, lines_, page_rows indent level rows each, eachBehind, split_]

namespace Comment

def opener : List Char := ['/', '*', '*']

def closer : List Char := ['*', '/']

-- A comment from its first to its last character: the mark that closes it stands at its end only.
structure BlockComment (text : List Char) : Prop where
  opens : opener <+: text
  closes : closer <:+ text
  once : ∀ before after, text = before ++ closer ++ after → after = []

theorem closer_mark : Mark closer := ⟨by decide, by simp [closer, Text.isBlank]⟩

theorem framed_closes (x y : Char) (body back : List Char) (first : x ∉ closer) (last : y ∉ closer)
    (clear : ¬closer <:+: back ++ ['*']) :
    BlockComment (opener ++ x :: (body ++ y :: (back ++ closer))) ↔ ¬closer <:+: body := by
  constructor
  · rintro comment ⟨before, after, rfl⟩
    have rest := comment.once (opener ++ x :: before) (after ++ y :: (back ++ closer)) (by simp)
    simp at rest
  · intro absent
    refine ⟨List.prefix_append _ _, ⟨opener ++ x :: (body ++ y :: back), by simp⟩, fun before after same => ?_⟩
    by_contra more
    have short : opener ++ x :: (body ++ y :: (back ++ ['*'])) = before ++ closer ++ after.dropLast := by
      have ends : opener ++ x :: (body ++ y :: (back ++ closer)) =
          opener ++ x :: (body ++ y :: (back ++ ['*'])) ++ ['/'] := by simp [closer]
      rw [ends] at same
      have cut := congrArg List.dropLast same
      rwa [List.dropLast_concat, List.dropLast_append_of_ne_nil more] at cut
    have inside : closer <:+: opener ++ x :: (body ++ y :: (back ++ ['*'])) := ⟨before, after.dropLast, short.symm⟩
    rw [Text.infix_cut closer _ _ x first, Text.infix_cut closer _ _ y last] at inside
    rcases inside with front | within | end_
    · exact absurd front (by decide)
    · exact absent within
    · exact clear end_

def starRows : List String → List String
  | [] => []
  | [line] => ["/** " ++ trim line ++ " */"]
  | lines => "/**" :: lines.map starLine ++ [" */"]

theorem joined_last (rows : List String) (given : rows ≠ []) (last : String) :
    Text.joinWith "\n" (rows ++ [last]) = Text.joinWith "\n" rows ++ "\n" ++ last := by
  induction rows with
  | nil => exact absurd rfl given
  | cons row rest ih =>
    cases rest with
    | nil => exact String.toList_injective (by simp [Text.joinWith, List.intercalate_cons_cons])
    | cons next rest =>
      rw [List.cons_append, List.cons_append, joined_cons, ← List.cons_append, ih (List.cons_ne_nil _ _),
        joined_cons]
      simp only [String.append_assoc]

theorem star_text_rows (line : String) (others : List String) :
    starText (line :: others) = Text.joinWith "\n" (starRows (line :: others)) := by
  cases others with
  | nil => exact String.toList_injective (by simp [starText, starRows, Text.joinWith])
  | cons next others =>
    have given : "/**" :: (line :: next :: others).map starLine ≠ [] := List.cons_ne_nil _ _
    have rows : starRows (line :: next :: others) =
        "/**" :: (line :: next :: others).map starLine ++ [" */"] := rfl
    rw [rows, joined_last _ given, List.map_cons, joined_cons]
    exact String.toList_injective (by simp [starText])

theorem star_line_row (line : String) (single : OneLine line) : Row (starLine line) := by
  rw [starLine]
  split
  · decide
  · rename_i shown
    have own : Row (trim line) :=
      ⟨Text.trim_line line single, (Text.trim_trimmed line).symm ▸ shown, Text.trim_trimmed line⟩
    exact row_append " * " (trim line) (by decide) own

theorem star_rows_each (doc : List String) (single : ∀ line ∈ doc, OneLine line) :
    ∀ row ∈ starRows doc, Row row := by
  match doc with
  | [] => exact nofun
  | [line] =>
    have front : OneLine ("/** " ++ trim line) :=
      (one_line_append _ _).mpr ⟨by decide, Text.trim_line line (single line List.mem_cons_self)⟩
    exact List.forall_mem_singleton.mpr (row_append _ " */" front (by decide))
  | line :: next :: others =>
    have inner : ∀ row ∈ (line :: next :: others).map starLine, Row row :=
      List.forall_mem_map.mpr fun line member => star_line_row line (single line member)
    exact List.forall_mem_append.mpr
      ⟨List.forall_mem_cons.mpr ⟨by decide, inner⟩, List.forall_mem_singleton.mpr (by decide)⟩

theorem star_line_mark (line : String) :
    closer <:+: (starLine line).toList ↔ closer <:+: line.toList := by
  rw [← Text.mark_trim closer_mark line, starLine]
  split
  · rename_i empty
    rw [empty]
    decide
  · have cut : (" * " ++ trim line).toList = [' ', '*'] ++ ' ' :: (trim line).toList := by simp
    rw [cut, Text.infix_cut closer _ _ ' ' (by decide)]
    exact or_iff_right (by decide)

theorem star_text_closes (line : String) (others : List String) :
    BlockComment (starText (line :: others)).toList ↔ ¬∃ l ∈ line :: others, closer <:+: l.toList := by
  cases others with
  | nil =>
    have cut : (starText [line]).toList =
        opener ++ ' ' :: ((trim line).toList ++ ' ' :: ([] ++ closer)) := by
      simp [starText, opener, closer]
    rw [cut, framed_closes ' ' ' ' _ [] (by decide) (by decide) (by decide), Text.mark_trim closer_mark]
    simp
  | cons next others =>
    have cut : (starText (line :: next :: others)).toList =
        opener ++ '\n' ::
          ((Text.joinWith "\n" ((line :: next :: others).map starLine)).toList ++ '\n' :: ([' '] ++ closer)) := by
      simp [starText, opener, closer]
    rw [cut, framed_closes '\n' '\n' _ [' '] (by decide) (by decide) (by decide), Text.mark_joined closer_mark]
    simp only [List.mem_map, exists_exists_and_eq_and, star_line_mark]

theorem star_text_empty (doc : List String) : starText doc = "" ↔ doc = [] := by
  match doc with
  | [] => simp [starText]
  | [line] => simp [starText]
  | line :: next :: others => simp [starText]

theorem star_written (indent : String) (level : Nat) (out : String) (doc : List String)
    (single : ∀ line ∈ doc, OneLine line) :
    Code.writeAll ⟨indent, level, true, out⟩ (star doc) =
      ⟨indent, level, true, out ++
        if starText doc = "" then "" else eachBehind (Pen.indentation indent level) (starText doc)⟩ := by
  cases doc with
  | nil =>
    rw [starText, if_pos rfl, String.append_empty]
    rfl
  | cons line others =>
    have given : starRows (line :: others) ≠ [] := by cases others <;> exact List.cons_ne_nil _ _
    have each := star_rows_each (line :: others) single
    have written := rows_written indent level out _ given each
    rw [← star_text_rows] at written
    rw [if_neg fun empty => List.cons_ne_nil _ _ ((star_text_empty _).mp empty)]
    exact written

-- What is noted of a member is one comment, empty only if nothing is noted, and closed at its end only, exactly
-- if the description has no mark that closes a comment. It is written as it is, each line behind the indentation.
theorem doc_comment_closed (n : Notes) (indent : String) (level : Nat) (out : String) :
    (starText (n.lines starTag) = "" ↔ n.lines starTag = []) ∧
    (starText (n.lines starTag) = "" ∨ BlockComment (starText (n.lines starTag)).toList ↔
      ∀ d ∈ n.description, ¬closer <:+: d.toList) ∧
    Code.writeAll ⟨indent, level, true, out⟩ (star (n.lines starTag)) =
      ⟨indent, level, true, out ++
        if starText (n.lines starTag) = "" then ""
        else eachBehind (Pen.indentation indent level) (starText (n.lines starTag))⟩ := by
  have single := n.lines_single starTag Notes.star_tags_single
  have marks := n.lines_mark starTag closer closer_mark (by decide)
  refine ⟨star_text_empty _, ?_, star_written indent level out _ single⟩
  have clear : (∀ d ∈ n.description, ¬closer <:+: d.toList) ↔
      ¬∃ line ∈ n.lines starTag, closer <:+: line.toList := by
    rw [marks, not_exists]
    exact forall_congr' fun d => not_and.symm
  rw [clear, star_text_empty]
  cases n.lines starTag with
  | nil => simp
  | cons line others =>
    rw [or_iff_right (List.cons_ne_nil _ _)]
    exact star_text_closes line others

theorem closing_description_escapes :
    ¬∀ n : Notes, starText (n.lines starTag) = "" ∨ BlockComment (starText (n.lines starTag)).toList := by
  intro closed
  rcases closed ⟨some "a */ b", none, none, none⟩ with empty | comment
  · exact absurd empty (by decide)
  · exact absurd (comment.once "/** a ".toList " b */".toList (by decide)) (by decide)

end Comment

end Layout

end ProtocolStubs
