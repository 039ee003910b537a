import ProtocolStubs.Proofs.Layout.Pieces

set_option autoImplicit false

namespace ProtocolStubs.Text

section Cuts

variable {α : Type}

theorem prefix_cut (part before after : List α) (x : α) (free : x ∉ part) :
    part <+: before ++ x :: after ↔ part <+: before := by
  refine ⟨fun starts => ?_, fun starts => starts.trans (List.prefix_append _ _)⟩
  rcases List.prefix_or_prefix_of_prefix starts (List.prefix_append before (x :: after)) with
    done | ⟨more, rfl⟩
  · exact done
  · rw [List.prefix_append_right_inj] at starts
    cases more with
    | nil => simp
    | cons y more =>
      obtain ⟨rfl, _⟩ := List.cons_prefix_cons.mp starts
      exact absurd (List.mem_append_right _ List.mem_cons_self) free

theorem infix_cut (part before after : List α) (x : α) (free : x ∉ part) :
    part <:+: before ++ x :: after ↔ part <:+: before ∨ part <:+: after := by
  induction before with
  | nil =>
    have here := prefix_cut part [] after x free
    rw [List.nil_append] at here
    rw [List.nil_append, List.infix_cons_iff, here, List.infix_nil, List.prefix_nil]
  | cons b before ih =>
    have here := prefix_cut part (b :: before) after x free
    rw [List.cons_append] at here
    rw [List.cons_append, List.infix_cons_iff, here, ih, List.infix_cons_iff, or_assoc]

theorem infix_drop_while (part rest : List α) (p : α → Bool) (given : part ≠ [])
    (none_ : ∀ c ∈ part, p c = false) : part <:+: rest.dropWhile p ↔ part <:+: rest := by
  induction rest with
  | nil => rfl
  | cons c rest ih =>
    rw [List.dropWhile_cons]
    split
    · rename_i dropped
      have free : c ∉ part := fun member => by
        rw [none_ c member] at dropped
        cases dropped
      have cut := infix_cut part [] rest c free
      rw [List.nil_append, List.infix_nil, or_iff_right given] at cut
      rw [cut, ih]
    · rfl

end Cuts

-- Cutting a text into lines, trimming these and joining them again neither makes a mark nor breaks one,
-- since whatever is taken out or put in between is blank.
structure Mark (part : List Char) : Prop where
  given : part ≠ []
  shows : ∀ c ∈ part, isBlank c = false

section Mark

variable {part : List Char} (mark : Mark part)

include mark

theorem mark_feed : '\n' ∉ part := fun feed => by
  have blank := mark.shows '\n' feed
  cases blank

theorem mark_blanks (text : List Char) :
    (part <:+: dropBlanks text ↔ part <:+: text) ∧ (part <:+: dropBlanksEnd text ↔ part <:+: text) := by
  refine ⟨infix_drop_while part text isBlank mark.given mark.shows, ?_⟩
  have turned : part.reverse ≠ [] := List.reverse_ne_nil_iff.mpr mark.given
  have shows : ∀ c ∈ part.reverse, isBlank c = false := fun c member =>
    mark.shows c (List.mem_reverse.mp member)
  rw [dropBlanksEnd, ← List.reverse_infix, List.reverse_reverse,
    infix_drop_while part.reverse text.reverse isBlank turned shows, List.reverse_infix]

theorem mark_trim_end (s : String) : part <:+: (trimEnd s).toList ↔ part <:+: s.toList := by
  rw [trimEnd, String.toList_ofList]
  exact (mark_blanks mark s.toList).2

theorem mark_trim (s : String) : part <:+: (trim s).toList ↔ part <:+: s.toList := by
  rw [trim, String.toList_ofList, (mark_blanks mark _).1]
  exact (mark_blanks mark s.toList).2

theorem mark_split_from (held rest : List Char) :
    (∃ piece ∈ splitFrom '\n' held rest, part <:+: piece.toList) ↔ part <:+: held.reverse ++ rest := by
  induction rest generalizing held with
  | nil => simp [splitFrom]
  | cons c rest ih =>
    rw [splitFrom]
    by_cases feed : c = '\n'
    · subst feed
      rw [if_pos rfl, infix_cut part held.reverse rest '\n' (mark_feed mark), List.exists_mem_cons_iff, ih [],
        String.toList_ofList]
      rfl
    · rw [if_neg feed, ih (c :: held), List.reverse_cons, List.append_assoc]
      rfl

theorem mark_lines (s : String) :
    (∃ line ∈ (lines s).map trimEnd, part <:+: line.toList) ↔ part <:+: s.toList := by
  have inked_ : ∀ rows : List String, (∃ row ∈ rows, part <:+: row.toList) ↔
      ∃ row ∈ rows.filter (fun row => row ≠ ""), part <:+: row.toList := by
    intro rows
    refine ⟨fun ⟨row, member, shown⟩ => ⟨row, ?_, shown⟩,
      fun ⟨row, member, shown⟩ => ⟨row, (List.mem_filter.mp member).1, shown⟩⟩
    refine List.mem_filter.mpr ⟨member, decide_eq_true ?_⟩
    rintro rfl
    exact mark.given (List.infix_nil.mp shown)
  rw [inked_, ← inked, inked_split, ← inked_]
  simp only [List.mem_map, exists_exists_and_eq_and, mark_trim_end mark]
  exact mark_split_from mark [] s.toList

theorem mark_joined (rows : List String) :
    part <:+: (joinWith "\n" rows).toList ↔ ∃ row ∈ rows, part <:+: row.toList := by
  induction rows with
  | nil => simpa [joinWith] using mark.given
  | cons row rest ih =>
    cases rest with
    | nil => simp [joinWith]
    | cons next rest =>
      have cut : (row ++ "\n" ++ joinWith "\n" (next :: rest)).toList =
          row.toList ++ '\n' :: (joinWith "\n" (next :: rest)).toList := by simp
      rw [Layout.joined_cons, cut, infix_cut part _ _ '\n' (mark_feed mark), ih,
        List.exists_mem_cons_iff _ row]

end Mark

end ProtocolStubs.Text
