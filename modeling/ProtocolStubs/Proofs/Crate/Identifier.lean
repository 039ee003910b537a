import ProtocolStubs.Crate.Identifier
import ProtocolStubs.Proofs.Text.Ink

set_option autoImplicit false

namespace ProtocolStubs

namespace Text

def InWord (c : Char) : Prop := c ≠ '\n' ∧ c ≠ ':' ∧ c ≠ '<'

instance (c : Char) : Decidable (InWord c) := inferInstanceAs (Decidable (c ≠ '\n' ∧ c ≠ ':' ∧ c ≠ '<'))

theorem alphanumeric_in_word (c : Char) (letter : isAlphanumeric c = true) : InWord c := by
  refine ⟨?_, ?_, ?_⟩ <;> (rintro rfl; revert letter; decide)

theorem of_nat_code (code : Nat) : (Char.ofNat code).toNat = code ∨ Char.ofNat code = Char.ofNat 0 := by
  by_cases valid : code.isValidChar
  · rw [Char.ofNat, dif_pos valid]
    exact .inl rfl
  · rw [Char.ofNat, dif_neg valid]
    exact .inr rfl

theorem of_nat_in_word (code : Nat) (above : 60 < code) : InWord (Char.ofNat code) := by
  rcases of_nat_code code with same | zero
  · refine ⟨?_, ?_, ?_⟩ <;>
    · intro is
      rw [is] at same
      have low : code ≤ 60 := by rw [← same]; decide
      omega
  · rw [zero]
    decide

-- Tables that lead to none of these: they only lead above them.
structure Leads (expansions : Expansions) (shifts : Shifts) : Prop where
  expanded : ∀ row ∈ expansions, ∀ code ∈ row.2, 60 < code
  shifted : ∀ row ∈ shifts, 60 < row.2.2.2

theorem case_image_from (expansions : Expansions) (shifts : Shifts) (c : Char) :
    ∀ image ∈ caseImage expansions shifts c,
      (∃ row ∈ expansions, ∃ code ∈ row.2, image = Char.ofNat code) ∨
        (∃ row ∈ shifts, ∃ ahead, image = Char.ofNat (row.2.2.2 + ahead)) ∨ image = c := by
  intro image member
  rw [caseImage] at member
  split at member
  · rename_i row found
    obtain ⟨code, among, rfl⟩ := List.mem_map.mp member
    exact .inl ⟨row, List.mem_of_find?_eq_some found, code, among, rfl⟩
  · split at member
    · rename_i code found
      obtain ⟨row, within, rfl⟩ := Option.map_eq_some_iff.mp found
      exact .inr (.inl ⟨row, List.mem_of_find?_eq_some within, _, List.mem_singleton.mp member⟩)
    · exact .inr (.inr (List.mem_singleton.mp member))

theorem case_image_in_word (expansions : Expansions) (shifts : Shifts) (leads : Leads expansions shifts)
    (c : Char) (inWord : InWord c) : ∀ image ∈ caseImage expansions shifts c, InWord image := by
  intro image member
  rcases case_image_from expansions shifts c image member with
    ⟨row, listed, code, among, rfl⟩ | ⟨row, listed, ahead, rfl⟩ | rfl
  · exact of_nat_in_word code (leads.expanded row listed code among)
  · have above := leads.shifted row listed
    exact of_nat_in_word _ (by omega)
  · exact inWord

set_option maxRecDepth 2000 in
theorem lower_leads : Leads lowerExpansions lowerShifts :=
  ⟨by decide, by decide⟩

set_option maxRecDepth 2000 in
theorem upper_leads : Leads upperExpansions upperShifts :=
  ⟨by decide, by decide⟩

theorem ascii_case_in_word (c : Char) (ascii : c.toNat < 128) (inWord : InWord c) :
    InWord c.toLower ∧ InWord c.toUpper := by
  have all : ∀ code < 128, InWord (Char.ofNat code) →
      InWord (Char.ofNat code).toLower ∧ InWord (Char.ofNat code).toUpper := by
    decide
  rw [← Char.ofNat_toNat c]
  exact all c.toNat ascii (by rwa [Char.ofNat_toNat])

theorem to_lower_in_word (c : Char) (inWord : InWord c) : ∀ image ∈ toLower c, InWord image := by
  rw [toLower]
  split
  · rename_i ascii
    intro image member
    rw [List.mem_singleton.mp member]
    exact (ascii_case_in_word c ascii inWord).1
  · exact case_image_in_word _ _ lower_leads c inWord

theorem to_upper_in_word (c : Char) (inWord : InWord c) : ∀ image ∈ toUpper c, InWord image := by
  rw [toUpper]
  split
  · rename_i ascii
    intro image member
    rw [List.mem_singleton.mp member]
    exact (ascii_case_in_word c ascii inWord).2
  · exact case_image_in_word _ _ upper_leads c inWord

theorem lowered_within (allowed : Char → Prop) (sigma : allowed 'ς')
    (closed : ∀ c, allowed c → ∀ image ∈ toLower c, allowed image) (word : List Char)
    (within : ∀ c ∈ word, allowed c) : ∀ c ∈ lowered word, allowed c := by
  induction word with
  | nil => exact nofun
  | cons c rest ih =>
    obtain ⟨here, later⟩ := List.forall_mem_cons.mp within
    cases rest with
    | nil =>
      rw [lowered]
      split
      · exact fun image member => List.mem_singleton.mp member ▸ sigma
      · exact closed c here
    | cons next rest =>
      rw [lowered]
      · intro image member
        rcases List.mem_append.mp member with first | after
        · exact closed c here image first
        · exact ih later image after
      · exact nofun

theorem lowered_in_word (word : List Char) (inWord : ∀ c ∈ word, InWord c) :
    ∀ c ∈ lowered word, InWord c :=
  lowered_within InWord (by decide) to_lower_in_word word inWord

theorem capitalized_in_word (word : List Char) (inWord : ∀ c ∈ word, InWord c) :
    ∀ c ∈ capitalized word, InWord c := by
  cases word with
  | nil => exact nofun
  | cons c rest =>
    obtain ⟨here, later⟩ := List.forall_mem_cons.mp inWord
    intro image member
    rcases List.mem_append.mp member with first | after
    · exact to_upper_in_word c here image first
    · exact lowered_in_word rest later image after

theorem words_from_subset (held : List Char) (run : CaseRun) (rest : List Char) :
    ∀ word ∈ wordsFrom held run rest, ∀ c ∈ word, c ∈ held ∨ c ∈ rest := by
  induction held, run, rest using wordsFrom.induct with
  | case1 held run => exact nofun
  | case2 held run c => simp [wordsFrom, or_comm]
  | case3 held run c next rest ends ih =>
    rw [wordsFrom, if_pos ends]
    grind
  | case4 held run c next rest goesOn last ih =>
    rw [wordsFrom, if_neg goesOn, if_pos last]
    grind
  | case5 held run c next rest goesOn inside ih =>
    rw [wordsFrom, if_neg goesOn, if_neg inside]
    grind

theorem pieces_from_alphanumeric (held rest : List Char) (letters : ∀ c ∈ held, isAlphanumeric c = true) :
    ∀ piece ∈ piecesFrom held rest, ∀ c ∈ piece, isAlphanumeric c = true := by
  induction rest generalizing held with
  | nil =>
    rw [piecesFrom]
    grind
  | cons c rest ih =>
    have fresh : ∀ piece ∈ piecesFrom [] rest, ∀ c ∈ piece, isAlphanumeric c = true := ih [] nofun
    have more := ih (c :: held)
    rw [piecesFrom]
    grind

theorem words_alphanumeric (name : List Char) :
    ∀ word ∈ words name, ∀ c ∈ word, isAlphanumeric c = true := by
  intro word member c among
  obtain ⟨piece, stands, within⟩ := List.mem_flatMap.mp member
  rcases words_from_subset [] .none piece word within c among with inNone | own
  · cases inNone
  · exact pieces_from_alphanumeric [] name nofun piece stands c own

theorem words_in_word (name : List Char) : ∀ word ∈ words name, ∀ c ∈ word, InWord c :=
  fun word member c among => alphanumeric_in_word c (words_alphanumeric name word member c among)

theorem intercalate_subset (separator : List Char) (words : List (List Char)) (c : Char)
    (member : c ∈ List.intercalate separator words) : c ∈ separator ∨ ∃ word ∈ words, c ∈ word := by
  induction words with
  | nil => cases member
  | cons word rest ih =>
    cases rest with
    | nil => exact .inr ⟨word, List.mem_singleton.mpr rfl, by simpa using member⟩
    | cons next rest =>
      rw [List.intercalate_cons_cons, List.mem_append, List.mem_append] at member
      rcases member with (here | between) | later
      · exact .inr ⟨word, List.mem_cons_self, here⟩
      · exact .inl between
      · rcases ih later with between | ⟨other, among, stands⟩
        · exact .inl between
        · exact .inr ⟨other, List.mem_cons_of_mem word among, stands⟩

theorem snake_case_in_word (name : String) : ∀ c ∈ (snakeCase name).toList, InWord c := by
  intro c member
  rw [snakeCase, String.toList_ofList] at member
  rcases intercalate_subset _ _ c member with separator | ⟨word, among, stands⟩
  · rw [List.mem_singleton.mp separator]
    decide
  · obtain ⟨plain, given, rfl⟩ := List.mem_map.mp among
    exact lowered_in_word plain (words_in_word _ plain given) c stands

theorem upper_camel_case_in_word (name : String) : ∀ c ∈ (upperCamelCase name).toList, InWord c := by
  intro c member
  rw [upperCamelCase, String.toList_ofList] at member
  obtain ⟨word, among, stands⟩ := List.mem_flatMap.mp member
  exact capitalized_in_word word (words_in_word _ word among) c stands

end Text

namespace Crate

open Text (InWord OneLine)

theorem escaped_subset (name : String) :
    ∀ c ∈ (escaped name).toList, c ∈ name.toList ∨ InWord c := by
  intro c member
  rw [escaped] at member
  split at member
  · rcases List.mem_append.mp (String.toList_append ▸ member) with own | added
    · exact .inl own
    · rw [List.mem_singleton.mp added]
      exact .inr (by decide)
  · split at member
    · rcases List.mem_append.mp (String.toList_append ▸ member) with added | own
      · have both : c = 'r' ∨ c = '#' := by simpa using added
        rcases both with rfl | rfl <;> exact .inr (by decide)
      · exact .inl own
    · exact .inl member

theorem identifier_in_word (name : String) : ∀ c ∈ (identifier name).toList, InWord c := fun c member =>
  (escaped_subset _ c member).elim (Text.snake_case_in_word name c) id

theorem type_name_subset (name : String) :
    ∀ c ∈ (typeName name).toList, c ∈ name.toList ∨ InWord c := by
  intro c member
  rcases escaped_subset _ c member with own | added
  · split at own
    · exact .inl own
    · exact .inr (Text.upper_camel_case_in_word name c own)
  · exact .inr added

theorem identifier_line (name : String) : OneLine (identifier name) := fun feed =>
  (identifier_in_word name _ feed).1 rfl

theorem identifier_colon (name : String) : ':' ∉ (identifier name).toList := fun colon =>
  (identifier_in_word name _ colon).2.1 rfl

theorem type_name_line (name : String) (line : OneLine name) : OneLine (typeName name) := fun feed =>
  (type_name_subset name _ feed).elim line fun word => word.1 rfl

theorem type_name_plain (name : String) (plain : '<' ∉ name.toList) : '<' ∉ (typeName name).toList :=
  fun angle => (type_name_subset name _ angle).elim plain fun word => word.2.2 rfl

theorem type_name_front (name : String) : ¬"types::".toList <+: (typeName name).toList := by
  intro starts
  have colon : ':' ∈ (typeName name).toList := starts.subset (by decide)
  rw [typeName] at starts colon
  split at starts
  · rename_i capital
    rw [escaped] at starts
    split at starts
    · rename_i path
      have other : ∀ word ∈ pathKeywords, ¬"types::".toList <+: (word ++ "_").toList := by decide
      exact other name path starts
    · split at starts
      · rename_i keyword
        have other : ∀ word ∈ keywords, ¬"types::".toList <+: ("r#" ++ word).toList := by decide
        exact other name keyword starts
      · obtain ⟨rest, same⟩ := starts
        have small : startsUpper name = false := by
          rw [startsUpper, ← same]
          rfl
        rw [small] at capital
        cases capital
  · rename_i converted
    rw [if_neg converted] at colon
    rcases escaped_subset _ _ colon with own | added
    · exact (Text.upper_camel_case_in_word name _ own).2.1 rfl
    · exact added.2.1 rfl

end Crate

end ProtocolStubs
