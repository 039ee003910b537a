import Mathlib.Data.List.DropRight
import ProtocolStubs.Text.Lines
import ProtocolStubs.Text.Split

set_option autoImplicit false

namespace ProtocolStubs.Text

def inked (s : String) : List String := ((lines s).map trimEnd).filter fun line => line ≠ ""

abbrev OneLine (s : String) : Prop := '\n' ∉ s.toList

-- A text that is given as its characters, as any literal can be, is looked through without being decoded.
theorem fixed_line {text : List Char} (line : '\n' ∉ text) : OneLine (String.ofList text) := by
  rwa [OneLine, String.toList_ofList]

-- Where the next text starts a line of its own.
def Ended (s : String) : Prop := s = "" ∨ ∃ t, s = t ++ "\n"

theorem drop_carriage_blank (held : List Char) :
    dropBlanksEnd (dropCarriage held).reverse = dropBlanksEnd held.reverse := by
  unfold dropCarriage
  split
  · simp [dropBlanksEnd, isBlank]
  · rfl

theorem lines_from_inked (held rest : List Char) :
    (((linesFrom held rest).map String.ofList).map trimEnd).filter (fun line => line ≠ "") =
      ((splitFrom '\n' held rest).map trimEnd).filter fun line => line ≠ "" := by
  induction rest generalizing held with
  | nil =>
    rw [linesFrom, splitFrom]
    cases held with
    | nil => rfl
    | cons c held => rfl
  | cons c rest ih =>
    rw [linesFrom, splitFrom]
    split
    · have same : trimEnd (String.ofList (dropCarriage held).reverse) =
          trimEnd (String.ofList held.reverse) := by
        rw [trimEnd, trimEnd, String.toList_ofList, String.toList_ofList, drop_carriage_blank]
      simp only [List.map_cons, List.filter_cons, same, ih]
    · exact ih (c :: held)

-- A carriage return at the end of a line is blank, so it makes no difference here.
theorem inked_split (s : String) :
    inked s = ((split '\n' s).map trimEnd).filter fun line => line ≠ "" :=
  lines_from_inked [] s.toList

theorem split_from_append (separator : Char) (held before after : List Char) :
    splitFrom separator held (before ++ separator :: after) =
      splitFrom separator held before ++ splitFrom separator [] after := by
  induction before generalizing held with
  | nil => simp [splitFrom]
  | cons c before ih =>
    simp only [List.cons_append, splitFrom, ih]
    split <;> rfl

theorem inked_append (before after : String) :
    inked (before ++ "\n" ++ after) = inked before ++ inked after := by
  have cut : split '\n' (before ++ "\n" ++ after) = split '\n' before ++ split '\n' after := by
    rw [split, String.toList_append, String.toList_append, List.append_assoc]
    exact split_from_append '\n' [] before.toList after.toList
  rw [inked_split, cut, List.map_append, List.filter_append, ← inked_split, ← inked_split]

theorem inked_empty : inked "" = [] := rfl

theorem inked_closed (s : String) : inked (s ++ "\n") = inked s := by
  rw [← String.append_empty (s := s ++ "\n"), inked_append, inked_empty, List.append_nil]

theorem inked_ended (s after : String) (ended : Ended s) : inked (s ++ after) = inked s ++ inked after := by
  rcases ended with rfl | ⟨t, rfl⟩
  · rw [String.empty_append]
    rfl
  · rw [inked_append, inked_closed]

theorem ended_append (s t : String) (first : Ended s) (second : Ended t) : Ended (s ++ t) := by
  rcases second with rfl | ⟨t, rfl⟩
  · rwa [String.append_empty]
  · exact .inr ⟨s ++ t, String.append_assoc.symm⟩

theorem split_from_free (separator : Char) (held rest : List Char) (free : separator ∉ rest) :
    splitFrom separator held rest = [String.ofList (held.reverse ++ rest)] := by
  induction rest generalizing held with
  | nil => simp [splitFrom]
  | cons c rest ih =>
    have other : c ≠ separator := fun same => free (same ▸ List.mem_cons_self)
    rw [splitFrom, if_neg other, ih (c :: held) fun inside => free (List.mem_cons_of_mem c inside)]
    simp

theorem inked_line (s : String) (line : OneLine s) :
    inked s = if trimEnd s = "" then [] else [trimEnd s] := by
  have whole : split '\n' s = [s] := by
    rw [split, split_from_free '\n' [] s.toList line]
    simp
  rw [inked_split, whole]
  by_cases blank : trimEnd s = "" <;> simp [blank]

theorem inked_each (rows : List String) (each : ∀ row ∈ rows, OneLine row) :
    rows.flatMap inked = (rows.map trimEnd).filter fun row => row ≠ "" := by
  induction rows with
  | nil => rfl
  | cons row rest ih =>
    obtain ⟨here, later⟩ := List.forall_mem_cons.mp each
    rw [List.flatMap_cons, inked_line row here, ih later, List.map_cons, List.filter_cons]
    by_cases blank : trimEnd row = "" <;> simp [blank]

theorem lines_line (s row : String) (member : row ∈ lines s) : OneLine row := by
  simpa [hasLineFeed] using hasLineFeed_of_mem_lines s row member

theorem inked_lines (s : String) : (lines s).flatMap inked = inked s :=
  inked_each (lines s) (lines_line s)

theorem trim_end_append (before after : String) (inkedEnd : trimEnd after ≠ "") :
    trimEnd (before ++ after) = before ++ trimEnd after := by
  have some_ : (after.toList.reverse.dropWhile isBlank).isEmpty = false := by
    rw [List.isEmpty_eq_false_iff]
    intro none_
    apply inkedEnd
    rw [trimEnd, dropBlanksEnd, none_]
    rfl
  apply String.toList_injective
  simp [trimEnd, dropBlanksEnd, List.dropWhile_append, some_]

theorem trim_end_append_blank (before after : String) (blank : trimEnd after = "") :
    trimEnd (before ++ after) = trimEnd before := by
  rw [← String.toList_eq_nil_iff, trimEnd, String.toList_ofList, dropBlanksEnd,
    List.reverse_eq_nil_iff] at blank
  simp [trimEnd, dropBlanksEnd, List.dropWhile_append, blank]

theorem trim_end_blank (s : String) : trimEnd s = "" ↔ isAllBlank s = true := by
  rw [← String.toList_eq_nil_iff, trimEnd, String.toList_ofList, dropBlanksEnd, List.reverse_eq_nil_iff,
    List.dropWhile_eq_nil_iff, isAllBlank, List.all_eq_true]
  simp

theorem inked_behind (lead s : String) (blank : isAllBlank lead = true) (leadLine : OneLine lead)
    (line : OneLine s) : inked (lead ++ s) = (inked s).map (lead ++ ·) := by
  have whole : OneLine (lead ++ s) := by simpa [OneLine] using ⟨leadLine, line⟩
  rw [inked_line _ whole, inked_line s line]
  by_cases nothing : trimEnd s = ""
  · have blanks : isAllBlank (lead ++ s) = true := by
      rw [isAllBlank, String.toList_append, List.all_append]
      exact Bool.and_eq_true_iff.mpr ⟨blank, (trim_end_blank s).mp nothing⟩
    rw [if_pos ((trim_end_blank _).mpr blanks), if_pos nothing, List.map_nil]
  · have something : trimEnd (lead ++ s) ≠ "" := by
      rw [trim_end_append lead s nothing]
      intro empty
      exact nothing (String.append_eq_empty_iff.mp empty).2
    rw [if_neg something, if_neg nothing, trim_end_append lead s nothing, List.map_singleton]

theorem trim_end_twice (s : String) : trimEnd (trimEnd s) = trimEnd s := by
  apply String.toList_injective
  simp [trimEnd, dropBlanksEnd, List.dropWhile_idempotent]

theorem trim_end_line (s : String) (line : OneLine s) : OneLine (trimEnd s) := by
  intro inside
  rw [trimEnd, String.toList_ofList, dropBlanksEnd, List.mem_reverse] at inside
  exact line (List.mem_reverse.mp ((List.dropWhile_suffix isBlank).subset inside))

end ProtocolStubs.Text
