import Mathlib.Data.Finset.Card
import Mathlib.Data.Fintype.EquivFin
import ProtocolStubs.Layout.Stroke
import ProtocolStubs.Proofs.Layout.Pieces
import ProtocolStubs.Proofs.Text.Lines

set_option autoImplicit false

namespace ProtocolStubs

open Text (lines OneLine)

namespace Layout

mutual

def Stroke.isWhole : Stroke → Bool
  | .write _ => false
  | .block _ _ body => Stroke.areWhole body
  | _ => true

def Stroke.areWhole : List Stroke → Bool
  | [] => true
  | stroke :: rest => stroke.isWhole && Stroke.areWhole rest

end

-- The guards alive are those of the blocks in progress and those held besides.
def alive (depth : Nat) (held : Finset Nat) : Nat := depth + held.card

def linesAt (level : Nat) (text : String) : List Piece :=
  (if text = "" then [""] else lines text).map fun line => (level, line)

-- From the guards held at its start, a program comes to those held at its end. On the way it writes lines,
-- each with the number of guards alive, and after each stroke a number of guards is alive. Which guard is
-- held or released is left open.
inductive Runs : Nat → Finset Nat → List Stroke → Finset Nat → List Piece → List Nat → Prop where
  | done (depth : Nat) (held : Finset Nat) : Runs depth held [] held [] []
  | line {depth : Nat} {held ends : Finset Nat} {rest : List Stroke} {written : List Piece}
    {levels : List Nat} (text : String) (later : Runs depth held rest ends written levels) :
    Runs depth held (.line text :: rest) ends (linesAt (alive depth held) text ++ written)
      (alive depth held :: levels)
  | blank {depth : Nat} {held ends : Finset Nat} {rest : List Stroke} {written : List Piece}
    {levels : List Nat} (later : Runs depth held rest ends written levels) :
    Runs depth held (.blank :: rest) ends ((alive depth held, "") :: written) (alive depth held :: levels)
  | comment {depth : Nat} {held ends : Finset Nat} {rest : List Stroke} {written : List Piece}
    {levels : List Nat} (lead text : String) (later : Runs depth held rest ends written levels) :
    Runs depth held (.comment lead text :: rest) ends
      (((lines text).map (Pen.commentLine lead)).flatMap (linesAt (alive depth held)) ++ written)
      (alive depth held :: levels)
  | hold {depth : Nat} {held ends : Finset Nat} {rest : List Stroke} {written : List Piece}
    {levels : List Nat} (guard : Nat) (fresh : guard ∉ held)
    (later : Runs depth (insert guard held) rest ends written levels) :
    Runs depth held (.hold :: rest) ends written (alive depth (insert guard held) :: levels)
  | release {depth : Nat} {held ends : Finset Nat} {rest : List Stroke} {written : List Piece}
    {levels : List Nat} (guard : Nat) (member : guard ∈ held)
    (later : Runs depth (held.erase guard) rest ends written levels) :
    Runs depth held (.release :: rest) ends written (alive depth (held.erase guard) :: levels)
  | idle {depth : Nat} {ends : Finset Nat} {rest : List Stroke} {written : List Piece}
    {levels : List Nat} (later : Runs depth ∅ rest ends written levels) :
    Runs depth ∅ (.release :: rest) ends written (alive depth ∅ :: levels)
  | block {depth : Nat} {held inner ends : Finset Nat} {body rest : List Stroke}
    {inside written : List Piece} {insideLevels levels : List Nat} (opener closer : String)
    (within : Runs (depth + 1) held body inner inside insideLevels)
    (later : Runs depth inner rest ends written levels) :
    Runs depth held (.block opener closer body :: rest) ends
      (linesAt (alive depth held) opener ++ inside ++ linesAt (alive depth inner) closer ++ written)
      (insideLevels ++ alive depth inner :: levels)

theorem runs_exist : (program : List Stroke) → Stroke.areWhole program = true →
    ∀ depth held, ∃ ends written levels, Runs depth held program ends written levels
  | [], _, depth, held => ⟨held, [], [], .done depth held⟩
  | stroke :: rest, whole, depth, held => by
    rw [Stroke.areWhole, Bool.and_eq_true] at whole
    have after := runs_exist rest whole.2 depth
    cases stroke with
    | write text => cases whole.1
    | line text =>
      obtain ⟨ends, written, levels, later⟩ := after held
      exact ⟨ends, _, _, .line text later⟩
    | blank =>
      obtain ⟨ends, written, levels, later⟩ := after held
      exact ⟨ends, _, _, .blank later⟩
    | comment lead text =>
      obtain ⟨ends, written, levels, later⟩ := after held
      exact ⟨ends, _, _, .comment lead text later⟩
    | hold =>
      obtain ⟨guard, fresh⟩ := Infinite.exists_notMem_finset held
      obtain ⟨ends, written, levels, later⟩ := after (insert guard held)
      exact ⟨ends, _, _, .hold guard fresh later⟩
    | release =>
      by_cases some_ : held.Nonempty
      · obtain ⟨guard, member⟩ := some_
        obtain ⟨ends, written, levels, later⟩ := after (held.erase guard)
        exact ⟨ends, _, _, .release guard member later⟩
      · rw [Finset.not_nonempty_iff_eq_empty] at some_
        subst some_
        obtain ⟨ends, written, levels, later⟩ := after ∅
        exact ⟨ends, _, _, .idle later⟩
    | block opener closer body =>
      obtain ⟨inner, inside, insideLevels, within⟩ := runs_exist body whole.1 (depth + 1) held
      obtain ⟨ends, written, levels, later⟩ := after inner
      exact ⟨ends, _, _, .block opener closer within later⟩

def lineText (indent : String) (piece : Piece) : String :=
  (if Text.isAllBlank piece.2 then piece.2 else String.join (List.replicate piece.1 indent) ++ piece.2) ++ "\n"

def page (indent : String) (written : List Piece) : String := String.join (written.map (lineText indent))

theorem page_append (indent : String) (first second : List Piece) :
    page indent (first ++ second) = page indent first ++ page indent second := by
  rw [page, List.map_append, String.join_append, page, page]

theorem page_cons (indent : String) (piece : Piece) (rest : List Piece) :
    page indent (piece :: rest) = lineText indent piece ++ page indent rest := by
  rw [page, List.map_cons, String.join_cons, page]

namespace Pen

theorem indentation_copies (indent : String) (level : Nat) :
    indentation indent level = String.join (List.replicate level indent) := by
  induction level with
  | zero => rfl
  | succ level ih => rw [indentation, ih, List.replicate_succ, String.join_cons]

variable (indent : String) (level : Nat) (out : String)

theorem bare_line_written (text : String) : (Pen.mk indent level true out).bareLine text =
    ⟨indent, level, true, out ++ lineText indent (level, text)⟩ := by
  by_cases empty : text = ""
  · subst empty
    rfl
  · by_cases blank : Text.isAllBlank text = true
    · simp [bareLine, write, endLine, lineText, empty, blank, String.append_assoc]
    · simp [bareLine, write, endLine, lineText, empty, blank, indentation_copies, String.append_assoc]

theorem bare_lines_written (texts : List String) : texts.foldl bareLine ⟨indent, level, true, out⟩ =
    ⟨indent, level, true, out ++ page indent (texts.map fun text => (level, text))⟩ := by
  induction texts generalizing out with
  | nil => simp [page]
  | cons text rest ih =>
    rw [List.foldl_cons, bare_line_written, ih, List.map_cons, page_cons, String.append_assoc]

theorem line_written (text : String) : (Pen.mk indent level true out).line text =
    ⟨indent, level, true, out ++ page indent (linesAt level text)⟩ := by
  rw [line]
  cases feeds : Text.hasLineFeed text with
  | true =>
    have given : text ≠ "" := by
      intro empty
      subst empty
      cases feeds
    rw [linesAt, if_neg given]
    exact bare_lines_written indent level out (lines text)
  | false =>
    have free : OneLine text := by simpa [Text.hasLineFeed] using feeds
    have single : linesAt level text = [(level, text)] := by
      by_cases empty : text = ""
      · simp [linesAt, empty]
      · simp [linesAt, empty, Text.lines_single text free empty]
    rw [single, page_cons]
    simpa [page] using bare_line_written indent level out text

theorem lines_written (texts : List String) : texts.foldl line ⟨indent, level, true, out⟩ =
    ⟨indent, level, true, out ++ page indent (texts.flatMap (linesAt level))⟩ := by
  induction texts generalizing out with
  | nil => simp [page]
  | cons text rest ih =>
    rw [List.foldl_cons, line_written, ih, List.flatMap_cons, page_append, String.append_assoc]

theorem end_line_written : (Pen.mk indent level true out).endLine =
    ⟨indent, level, true, out ++ page indent [(level, "")]⟩ := rfl

end Pen

namespace Desk

-- Between two strokes, with so many blocks in progress and these guards held besides.
def between (indent : String) (depth : Nat) (held : Finset Nat) (out : String) (levels : List Nat) : Desk :=
  ⟨⟨indent, alive depth held, true, out⟩, held.card, levels⟩

theorem start_between (indent : String) : start indent = between indent 0 ∅ "" [] := rfl

variable (indent : String) (depth : Nat) (held : Finset Nat) (out : String) (levels : List Nat)

theorem line_between (text : String) : (between indent depth held out levels).run (.line text) =
    between indent depth held (out ++ page indent (linesAt (alive depth held) text))
      (levels ++ [alive depth held]) := by
  rw [run, between, Pen.line_written]
  rfl

theorem blank_between : (between indent depth held out levels).run .blank =
    between indent depth held (out ++ page indent [(alive depth held, "")])
      (levels ++ [alive depth held]) := by
  rw [run, between, Pen.end_line_written]
  rfl

theorem comment_between (lead text : String) :
    (between indent depth held out levels).run (.comment lead text) =
      between indent depth held
        (out ++ page indent (((lines text).map (Pen.commentLine lead)).flatMap (linesAt (alive depth held))))
        (levels ++ [alive depth held]) := by
  rw [run, between, Pen.comment, Pen.lines_written]
  rfl

theorem hold_between (guard : Nat) (fresh : guard ∉ held) :
    (between indent depth held out levels).run .hold =
      between indent depth (insert guard held) out (levels ++ [alive depth (insert guard held)]) := by
  have more : alive depth (insert guard held) = alive depth held + 1 := by
    rw [alive, Finset.card_insert_of_notMem fresh, alive, Nat.add_assoc]
  rw [between, between, more, Finset.card_insert_of_notMem fresh]
  rfl

theorem release_between (guard : Nat) (member : guard ∈ held) :
    (between indent depth held out levels).run .release =
      between indent depth (held.erase guard) out (levels ++ [alive depth (held.erase guard)]) := by
  have some_ := Finset.card_pos.mpr ⟨guard, member⟩
  have fewer : alive depth (held.erase guard) = alive depth held - 1 := by
    rw [alive, Finset.card_erase_of_mem member, alive]
    omega
  rw [between, between, fewer, Finset.card_erase_of_mem member, run, if_neg (by simp only; omega)]
  rfl

theorem idle_between : (between indent depth ∅ out levels).run .release =
    between indent depth ∅ out (levels ++ [alive depth ∅]) := rfl

theorem block_between (opener closer : String) (body : List Stroke) (inner : Finset Nat) (inside : String)
    (insideLevels : List Nat)
    (within : runAll (between indent (depth + 1) held
        (out ++ page indent (linesAt (alive depth held) opener)) levels) body =
      between indent (depth + 1) inner inside insideLevels) :
    (between indent depth held out levels).run (.block opener closer body) =
      between indent depth inner (inside ++ page indent (linesAt (alive depth inner) closer))
        (insideLevels ++ [alive depth inner]) := by
  have deeper : alive (depth + 1) held = alive depth held + 1 := by rw [alive, alive]; omega
  have lighter : alive (depth + 1) inner - 1 = alive depth inner := by rw [alive, alive]; omega
  rw [between, deeper] at within
  rw [run, between]
  simp only [Pen.line_written, Pen.deepen, within]
  simp only [between, Pen.lighten, lighter, Pen.line_written, note]

theorem run_all_between (ends : Finset Nat) (program : List Stroke) (written : List Piece)
    (later : List Nat) (runs : Runs depth held program ends written later) :
    runAll (between indent depth held out levels) program =
      between indent depth ends (out ++ page indent written) (levels ++ later) := by
  induction runs generalizing out levels with
  | done => simp [runAll, page]
  | line text _ ih =>
    rw [runAll, line_between, ih, page_append]
    simp [String.append_assoc]
  | blank _ ih =>
    rw [runAll, blank_between, ih, page_cons]
    simp [page, String.append_assoc]
  | comment lead text _ ih =>
    rw [runAll, comment_between, ih, page_append]
    simp [String.append_assoc]
  | hold guard fresh _ ih =>
    rw [runAll, hold_between indent _ _ out levels guard fresh, ih]
    simp
  | release guard member _ ih =>
    rw [runAll, release_between indent _ _ out levels guard member, ih]
    simp
  | idle _ ih =>
    rw [runAll, idle_between, ih]
    simp
  | block opener closer _ _ ihWithin ih =>
    rw [runAll, block_between indent _ _ out levels opener closer _ _ _ _ (ihWithin _ _), ih]
    simp only [page_append, String.append_assoc, List.append_assoc, List.singleton_append]

end Desk

-- Every program of whole lines runs, and however its guards are held and released, its output is the page of
-- the lines written, and its level is the number of guards alive. So a block ends at the level at which it
-- began if its body leaves the guards held as they were.
theorem layout_exact (indent : String) (program : List Stroke) (whole : Stroke.areWhole program = true) :
    (∃ ends written levels, Runs 0 ∅ program ends written levels) ∧
      (∀ ends written levels, Runs 0 ∅ program ends written levels →
        (Desk.runAll (.start indent) program).pen.out = page indent written ∧
        (Desk.runAll (.start indent) program).levels = levels ∧
        (Desk.runAll (.start indent) program).pen.level = ends.card) ∧
      (∀ depth held out levels opener closer body inside insideLevels,
        Runs (depth + 1) held body held inside insideLevels →
          ((Desk.between indent depth held out levels).run (.block opener closer body)).pen.level =
            (Desk.between indent depth held out levels).pen.level) := by
  refine ⟨runs_exist program whole 0 ∅, ?_, ?_⟩
  · intro ends written levels runs
    rw [Desk.start_between, Desk.run_all_between indent 0 ∅ "" [] ends program written levels runs]
    exact ⟨String.empty_append, List.nil_append levels, Nat.zero_add _⟩
  · intro depth held out levels opener closer body inside insideLevels runs
    have within := Desk.run_all_between indent (depth + 1) held
      (out ++ page indent (linesAt (alive depth held) opener)) levels held body inside insideLevels runs
    rw [Desk.block_between indent depth held out levels opener closer body held _ _ within]
    rfl

-- The guard held first is released first, while the one held in the block outlives it.
def outliving : List Stroke :=
  [.hold, .block "a \x7b" "\x7d" [.hold, .line "b\n\n"], .release, .line "c", .release]

theorem outliving_laid_out : Stroke.areWhole outliving = true ∧
    ∃ ends, Runs 0 ∅ outliving ends [(1, "a \x7b"), (3, "b"), (3, ""), (2, "\x7d"), (1, "c")] [1, 3, 3, 2, 1, 1, 0] ∧
      (Desk.runAll (.start "  ") outliving).pen.out =
        page "  " [(1, "a \x7b"), (3, "b"), (3, ""), (2, "\x7d"), (1, "c")] ∧
      (Desk.runAll (.start "  ") outliving).levels = [1, 3, 3, 2, 1, 1, 0] := by
  have body : Runs 1 {0} [.hold, .line "b\n\n"] {1, 0} [(3, "b"), (3, "")] [3, 3] :=
    .hold 1 (by decide) (.line _ (.done _ _))
  have runs : Runs 0 ∅ outliving ∅ [(1, "a \x7b"), (3, "b"), (3, ""), (2, "\x7d"), (1, "c")]
      [1, 3, 3, 2, 1, 1, 0] :=
    .hold 0 (by decide) (.block _ _ body (.release 0 (by decide) (.line _ (.release 1 (by decide) (.done _ _)))))
  obtain ⟨written, levels, _⟩ := (layout_exact "  " outliving rfl).2.1 _ _ _ runs
  exact ⟨rfl, ∅, runs, written, levels⟩

end Layout

end ProtocolStubs
