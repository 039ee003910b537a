import ProtocolStubs.Proofs.Crate.Identifier

set_option autoImplicit false

namespace ProtocolStubs

namespace Text

def Unmarked (c : Char) : Prop := c ≠ '_' ∧ c ≠ '#'

instance (c : Char) : Decidable (Unmarked c) := inferInstanceAs (Decidable (c ≠ '_' ∧ c ≠ '#'))

theorem alphanumeric_unmarked (c : Char) (letter : isAlphanumeric c = true) : Unmarked c := by
  constructor <;> (rintro rfl; revert letter; decide)

theorem of_nat_above (mark : Char) (code : Nat) (some_ : 0 < mark.toNat) (above : mark.toNat < code) :
    Char.ofNat code ≠ mark := by
  rintro rfl
  rcases of_nat_code code with same | zero
  · omega
  · rw [zero] at some_
    exact absurd some_ (by decide)

-- The tables only lead above the signs of ASCII that stand before its small letters.
set_option maxRecDepth 2000 in
theorem to_lower_avoids (mark : Char) (sign : 0 < mark.toNat ∧ mark.toNat ≤ 95)
    (fixed : ∀ code < 128, (Char.ofNat code).toLower = mark → Char.ofNat code = mark) (c : Char)
    (other : c ≠ mark) : ∀ image ∈ toLower c, image ≠ mark := by
  intro image member
  rw [toLower] at member
  split at member
  · rename_i ascii
    rintro rfl
    have same := fixed c.toNat ascii
    rw [Char.ofNat_toNat] at same
    exact other (same (List.mem_singleton.mp member).symm)
  · rcases case_image_from lowerExpansions lowerShifts c image member with
      ⟨row, listed, code, among, rfl⟩ | ⟨row, listed, ahead, rfl⟩ | rfl
    · have all : ∀ row ∈ lowerExpansions, ∀ code ∈ row.2, 95 < code := by decide
      have above := all row listed code among
      exact of_nat_above mark code sign.1 (by omega)
    · have all : ∀ row ∈ lowerShifts, 95 < row.2.2.2 := by decide
      have above := all row listed
      exact of_nat_above mark _ sign.1 (by omega)
    · exact other

theorem to_lower_unmarked (c : Char) (unmarked : Unmarked c) : ∀ image ∈ toLower c, Unmarked image :=
  fun image member =>
    ⟨to_lower_avoids '_' (by decide) (by decide) c unmarked.1 image member,
      to_lower_avoids '#' (by decide) (by decide) c unmarked.2 image member⟩

theorem to_lower_nonempty (c : Char) : toLower c ≠ [] := by
  rw [toLower]
  split
  · exact List.cons_ne_nil _ _
  · rw [caseImage]
    split
    · rename_i row found
      have all : ∀ row ∈ lowerExpansions, row.2 ≠ [] := by decide
      exact List.map_eq_nil_iff.not.mpr (all row (List.mem_of_find?_eq_some found))
    · split <;> exact List.cons_ne_nil _ _

theorem lowered_nonempty (word : List Char) (nonempty : word ≠ []) : lowered word ≠ [] := by
  induction word using lowered.induct with
  | case1 => exact absurd rfl nonempty
  | case2 => simp [lowered]
  | case3 c other => simp [lowered, other, to_lower_nonempty]
  | case4 c rest more ih =>
    rw [lowered]
    · simp [to_lower_nonempty]
    · exact more

-- A run of capitals stands before the character at hand, so a word that is cut off there has some.
theorem words_from_nonempty (held : List Char) (run : CaseRun) (rest : List Char)
    (begun : run = .upper → held ≠ []) : ∀ word ∈ wordsFrom held run rest, word ≠ [] := by
  induction held, run, rest using wordsFrom.induct with
  | case1 held run => exact List.forall_mem_nil _
  | case2 held run c => simp [wordsFrom]
  | case3 held run c next rest ends ih =>
    rw [wordsFrom, if_pos ends]
    exact List.forall_mem_cons.mpr ⟨by simp, ih fun upper => absurd upper (by decide)⟩
  | case4 held run c next rest goesOn last ih =>
    rw [wordsFrom, if_neg goesOn, if_pos last]
    exact List.forall_mem_cons.mpr ⟨by simp [begun last.1], ih fun upper => absurd upper (by decide)⟩
  | case5 held run c next rest goesOn inside ih =>
    rw [wordsFrom, if_neg goesOn, if_neg inside]
    exact ih fun _ => List.cons_ne_nil c held

theorem words_nonempty (name : List Char) : ∀ word ∈ words name, word ≠ [] := by
  intro word member
  obtain ⟨piece, _, within⟩ := List.mem_flatMap.mp member
  exact words_from_nonempty [] .none piece (fun upper => absurd upper (by decide)) word within

theorem intercalate_last (separator c : Char) (words : List (List Char))
    (nonempty : ∀ word ∈ words, word ≠ [])
    (last : (List.intercalate [separator] words).getLast? = some c) : ∃ word ∈ words, c ∈ word := by
  induction words with
  | nil => cases last
  | cons word rest ih =>
    cases rest with
    | nil => exact ⟨word, List.mem_singleton.mpr rfl, List.mem_of_getLast? (by simpa using last)⟩
    | cons next rest =>
      have later := List.forall_mem_cons.mp nonempty |>.2
      have goesOn : List.intercalate [separator] (next :: rest) ≠ [] := by
        cases rest <;> simp [later]
      rw [List.intercalate_cons_cons, List.getLast?_append_of_ne_nil _ goesOn] at last
      obtain ⟨other, member, among⟩ := ih later last
      exact ⟨other, List.mem_cons_of_mem word member, among⟩

theorem lowered_unmarked (name : List Char) :
    ∀ word ∈ (words name).map lowered, word ≠ [] ∧ ∀ c ∈ word, Unmarked c := by
  intro word member
  obtain ⟨plain, given, rfl⟩ := List.mem_map.mp member
  refine ⟨lowered_nonempty plain (words_nonempty name plain given), ?_⟩
  exact lowered_within Unmarked ⟨by decide, by decide⟩ to_lower_unmarked plain fun c among =>
    alphanumeric_unmarked c (words_alphanumeric name plain given c among)

theorem snake_case_end (name : String) : (snakeCase name).toList.getLast? ≠ some '_' := by
  intro last
  rw [snakeCase, String.toList_ofList] at last
  have words := lowered_unmarked name.toList
  obtain ⟨word, member, among⟩ := intercalate_last '_' '_' _ (fun word member => (words word member).1) last
  exact ((words word member).2 '_' among).1 rfl

theorem snake_case_free (mark : Char) (sign : 0 < mark.toNat ∧ mark.toNat ≤ 95)
    (fixed : ∀ code < 128, (Char.ofNat code).toLower = mark → Char.ofNat code = mark)
    (other : mark ≠ '_') (unlettered : isAlphanumeric mark = false) (name : String) :
    mark ∉ (snakeCase name).toList := by
  intro stands
  rw [snakeCase, String.toList_ofList] at stands
  rcases intercalate_subset _ _ _ stands with separator | ⟨word, member, among⟩
  · exact other (List.mem_singleton.mp separator)
  · obtain ⟨plain, given, rfl⟩ := List.mem_map.mp member
    have sigma : 'ς' ≠ mark := by
      rintro rfl
      exact absurd sign.2 (by decide)
    refine lowered_within (· ≠ mark) sigma (to_lower_avoids mark sign fixed) plain ?_ mark among rfl
    rintro c inside rfl
    rw [words_alphanumeric name.toList plain given c inside] at unlettered
    cases unlettered

theorem snake_case_unraw (name : String) : '#' ∉ (snakeCase name).toList :=
  snake_case_free '#' (by decide) (by decide) (by decide) (by decide) name

end Text

namespace Crate

def unescaped (text : List Char) : List Char :=
  if text.getLast? = some '_' then text.dropLast
  else if '#' ∈ text then text.drop 2
  else text

-- A name in snake case neither ends in an underscore nor holds a number sign, so it can be read off its
-- escaped form.
theorem unescaped_escaped (name : String) (open_ : name.toList.getLast? ≠ some '_')
    (unraw : '#' ∉ name.toList) : unescaped (escaped name).toList = name.toList := by
  rw [escaped]
  split
  · simp [unescaped, String.toList_append]
  · split
    · have goesOn : ("r#" ++ name).toList.getLast? ≠ some '_' := by
        rw [String.toList_append, List.getLast?_append]
        cases last : name.toList.getLast? with
        | none => decide
        | some c => rwa [Option.some_or, ← last]
      rw [unescaped, if_neg goesOn]
      simp [String.toList_append]
    · rw [unescaped, if_neg open_, if_neg unraw]

theorem unescaped_identifier (name : String) :
    unescaped (identifier name).toList = (Text.snakeCase name).toList :=
  unescaped_escaped _ (Text.snake_case_end name) (Text.snake_case_unraw name)

theorem identifier_shared (name other : String) :
    identifier name = identifier other ↔ Text.snakeCase name = Text.snakeCase other := by
  constructor
  · intro same
    rw [← String.toList_inj, ← unescaped_identifier, ← unescaped_identifier, same]
  · intro same
    rw [identifier, identifier, same]

theorem identifier_error (name : String) : identifier name = "error" ↔ Text.snakeCase name = "error" := by
  constructor
  · intro same
    rw [← String.toList_inj, ← unescaped_identifier, same]
    decide
  · intro same
    rw [identifier, same]
    decide

theorem identifier_slashless (name : String) : '/' ∉ (identifier name).toList := by
  have snake := Text.snake_case_free '/' (by decide) (by decide) (by decide) (by decide) name
  rw [identifier, escaped]
  split
  · simp [String.toList_append, snake]
  · split
    · simp [String.toList_append, snake]
    · exact snake

theorem identifier_root (name : String) : identifier name ≠ "mod" := by
  intro same
  have snake : Text.snakeCase name = "mod" := by
    rw [← String.toList_inj, ← unescaped_identifier, same]
    decide
  rw [identifier, snake] at same
  exact absurd same (by decide)

end Crate

end ProtocolStubs
