import ProtocolStubs.Proofs.Text.Ink

set_option autoImplicit false

namespace ProtocolStubs.Text

theorem lines_from_read (held read rest : List Char) (free : '\n' ∉ read) :
    linesFrom held (read ++ rest) = linesFrom (read.reverse ++ held) rest := by
  induction read generalizing held with
  | nil => rfl
  | cons c read ih =>
    have other : c ≠ '\n' := fun same => free (same ▸ List.mem_cons_self)
    rw [List.cons_append, linesFrom, if_neg other, ih _ fun inside => free (List.mem_cons_of_mem c inside)]
    simp

theorem lines_single (s : String) (line : OneLine s) (given : s ≠ "") : lines s = [s] := by
  have read := lines_from_read [] s.toList [] line
  rw [List.append_nil, List.append_nil] at read
  rw [lines, read]
  simp [linesFrom, given]

def firstInk (row : String) : Option Char := row.toList.find? fun c => !isBlank c

def Trimmed (row : String) : Prop := ∀ c ∈ row.toList.getLast?, isBlank c = false

theorem trim_start_ink (row : String) : (trimStart row).toList.head? = firstInk row := by
  simp [trimStart, dropBlanks, firstInk, List.find?_eq_head?_dropWhile_not]

theorem trimmed_iff (row : String) : Trimmed row ↔ trimEnd row = row := by
  rw [Trimmed, trimEnd, ← String.toList_inj, String.toList_ofList, dropBlanksEnd, List.reverse_eq_iff,
    ← List.head?_reverse]
  cases row.toList.reverse with
  | nil => simp
  | cons c rest =>
    by_cases blank : isBlank c = true
    · have shorter := (List.dropWhile_suffix (l := rest) isBlank).length_le
      have differs : rest.dropWhile isBlank ≠ c :: rest := by
        intro same
        rw [same, List.length_cons] at shorter
        omega
      simp [blank, differs]
    · simp [blank]

theorem trimmed_trim_end (row : String) : Trimmed (trimEnd row) :=
  (trimmed_iff _).mpr (trim_end_twice row)

theorem map_trimmed (rows : List String) (trimmed : ∀ row ∈ rows, Trimmed row) : rows.map trimEnd = rows :=
  (List.map_congr_left fun row member => (trimmed_iff row).mp (trimmed row member)).trans (List.map_id rows)

theorem all_blank_trim_end (row : String) : isAllBlank (trimEnd row) = isAllBlank row := by
  rw [Bool.eq_iff_iff, ← trim_end_blank, ← trim_end_blank, trim_end_twice]

theorem first_ink_trim_end (row : String) : firstInk (trimEnd row) = firstInk row := by
  have cut : row.toList = dropBlanksEnd row.toList ++ (row.toList.reverse.takeWhile isBlank).reverse := by
    rw [dropBlanksEnd, ← List.reverse_append, List.takeWhile_append_dropWhile, List.reverse_reverse]
  have blanks : (row.toList.reverse.takeWhile isBlank).reverse.find? (fun c => !isBlank c) = none := by
    rw [List.find?_eq_none]
    intro c member
    simp [List.mem_takeWhile_imp (List.mem_reverse.mp member)]
  rw [firstInk, firstInk, trimEnd, String.toList_ofList]
  conv_rhs => rw [cut]
  rw [List.find?_append, blanks, Option.or_none]

theorem trimmed_carriage (row : String) (trimmed : Trimmed row) :
    dropCarriage row.toList.reverse = row.toList.reverse := by
  unfold dropCarriage
  split
  · rename_i held ends
    have last : '\r' ∈ row.toList.getLast? := by rw [← List.head?_reverse, ends]; rfl
    have blank := trimmed '\r' last
    simp [isBlank] at blank
  · rfl

theorem lines_from_row (row : String) (rest : List Char) (line : OneLine row) (trimmed : Trimmed row) :
    linesFrom [] (row.toList ++ '\n' :: rest) = row.toList :: linesFrom [] rest := by
  rw [lines_from_read [] row.toList _ line, List.append_nil, linesFrom, if_pos rfl,
    trimmed_carriage row trimmed, List.reverse_reverse]

theorem all_blank_split (held rest : List Char) :
    (∀ part ∈ splitFrom '\n' held rest, isAllBlank part = true) ↔
      held.all isBlank = true ∧ rest.all isBlank = true := by
  induction rest generalizing held with
  | nil => simp [splitFrom, isAllBlank]
  | cons c rest ih =>
    rw [splitFrom]
    by_cases feed : c = '\n'
    · subst feed
      have blank : isBlank '\n' = true := rfl
      rw [if_pos rfl, List.forall_mem_cons, ih []]
      simp [isAllBlank, blank]
    · rw [if_neg feed, ih (c :: held), List.all_cons, List.all_cons, Bool.and_eq_true, Bool.and_eq_true]
      exact and_assoc.trans and_left_comm

theorem inked_nothing (s : String) : inked s = [] ↔ isAllBlank s = true := by
  have parts := all_blank_split [] s.toList
  rw [List.all_nil] at parts
  rw [inked_split, List.filter_eq_nil_iff, List.forall_mem_map]
  simpa [trim_end_blank, split, isAllBlank] using parts

end ProtocolStubs.Text
