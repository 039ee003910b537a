import Mathlib.Data.List.Infix
import ProtocolStubs.Proofs.Layout.Blocks
import ProtocolStubs.Proofs.Schema.Payloads

set_option autoImplicit false

namespace ProtocolStubs

-- Wherever in the text the mark begins, whatever stands behind the text, one of the names stands there.
def MentionsOnly (mark : String) (names : List String) (text : String) : Prop :=
  ∀ before after behind : List Char, text.toList ++ behind = before ++ mark.toList ++ after →
    before.length < text.toList.length → ∃ name ∈ names, ∃ lead rest,
      text.toList = lead ++ name.toList ++ rest ∧
        lead.length ≤ before.length ∧ before.length < lead.length + name.toList.length

-- None of the marks begins in the text, not even to go on behind it.
def Unmarked (marks : List String) (text : List Char) : Prop :=
  ∀ tail ∈ text.tails, tail = [] ∨ ∀ mark ∈ marks, ¬(tail <+: mark.toList ∨ mark.toList <+: tail)

instance (marks : List String) (text : List Char) : Decidable (Unmarked marks text) :=
  inferInstanceAs (Decidable (∀ tail ∈ text.tails, _))

namespace MentionsOnly

variable {mark : String} {names : List String} {first second : String}

theorem append (left : MentionsOnly mark names first) (right : MentionsOnly mark names second) :
    MentionsOnly mark names (first ++ second) := by
  intro before after behind same inside
  rw [String.toList_append] at same inside ⊢
  rw [List.append_assoc] at same
  rcases Nat.lt_or_ge before.length first.toList.length with early | late
  · obtain ⟨name, member, lead, rest, cut, starts, ends⟩ := left before after _ same early
    exact ⟨name, member, lead, rest ++ second.toList, by simp [cut], starts, ends⟩
  · have begins : first.toList <+: before := by
      rw [List.append_assoc] at same
      exact List.prefix_of_prefix_length_le ⟨_, same⟩ (List.prefix_append _ _) late
    obtain ⟨later, rfl⟩ := begins
    simp only [List.append_assoc, List.append_cancel_left_eq] at same
    rw [List.length_append, List.length_append] at inside
    obtain ⟨name, member, lead, rest, cut, starts, ends⟩ :=
      right later after behind (by simpa using same) (by omega)
    refine ⟨name, member, first.toList ++ lead, rest, by simp [cut], ?_, ?_⟩ <;>
      simp only [List.length_append] <;> omega

theorem named (member : first ∈ names) : MentionsOnly mark names first :=
  fun _ _ _ _ inside => ⟨first, member, [], [], by simp, Nat.zero_le _, by simpa using inside⟩

theorem unmarked (marks : List String) (text : List Char) (clear : Unmarked marks text)
    (among : mark ∈ marks) : MentionsOnly mark names (String.ofList text) := by
  intro before after behind same inside
  rw [String.toList_ofList] at same inside
  have begins : before <+: text := by
    rw [List.append_assoc] at same
    exact List.prefix_of_prefix_length_le ⟨_, same.symm⟩ (List.prefix_append _ _) (Nat.le_of_lt inside)
  obtain ⟨tail, rfl⟩ := begins
  simp only [List.append_assoc, List.append_cancel_left_eq] at same
  rcases clear tail ((List.mem_tails tail _).mpr (List.suffix_append _ _)) with rfl | other
  · simp at inside
  · exact absurd (List.prefix_or_prefix_of_prefix ⟨_, rfl⟩ ⟨_, same.symm⟩) (other mark among)

section Fixed

variable {marks : PayloadKind → String} {kind : PayloadKind}

theorem fixed {text : List Char} (clear : Unmarked (PayloadKind.all.map marks) text) :
    MentionsOnly (marks kind) names (String.ofList text) :=
  unmarked _ text clear (List.mem_map_of_mem kind.all_kinds)

theorem joined {front back : List Char} (clear : Unmarked (PayloadKind.all.map marks) (front ++ back)) :
    MentionsOnly (marks kind) names (String.ofList front ++ String.ofList back) :=
  String.ofList_append ▸ fixed clear

theorem framed {front back : List Char} {text : String} (inner : MentionsOnly (marks kind) names text)
    (clear : Unmarked (PayloadKind.all.map marks) front ∧ Unmarked (PayloadKind.all.map marks) back) :
    MentionsOnly (marks kind) names (String.ofList front ++ text ++ String.ofList back) :=
  ((fixed clear.1).append inner).append (fixed clear.2)

end Fixed

end MentionsOnly

namespace Layout.Code

def Each (P : String → Prop) (depth : Nat) (code : List Code) : Prop :=
  ∀ piece ∈ piecesAll depth code, P piece.2

namespace Each

variable {P : String → Prop} {depth : Nat} {first second body : List Code}

theorem none : Each P depth [] := fun _ member => absurd member List.not_mem_nil

theorem line {text : String} (here : P text) (rest : Each P depth second) :
    Each P depth (.line text :: second) := List.forall_mem_cons.mpr ⟨here, rest⟩

theorem blank (rest : Each P depth second) : Each P depth (.blank :: second) := rest

theorem append (left : Each P depth first) (right : Each P depth second) :
    Each P depth (first ++ second) := by
  rw [Each, pieces_all_append]
  exact List.forall_mem_append.mpr ⟨left, right⟩

theorem between {opener closer : String} (front : P opener) (back : P closer)
    (inside : Each P (depth + 1) body) : Each P depth (Code.between opener closer body) := by
  rw [Each, pieces_between]
  exact List.forall_mem_append.mpr
    ⟨List.forall_mem_cons.mpr ⟨front, inside⟩, List.forall_mem_singleton.mpr back⟩

section Parts

variable {α : Type} {parts : List α}

theorem flatMap {code : α → List Code} (each : ∀ part ∈ parts, Each P depth (code part)) :
    Each P depth (parts.flatMap code) := by
  rw [Each, pieces_all_flat_map]
  exact List.forall_mem_flatMap.mpr each

theorem map {code : α → Code} (each : ∀ part ∈ parts, Each P depth [code part]) :
    Each P depth (parts.map code) := by
  rw [List.map_eq_flatMap]
  exact flatMap each

end Parts

end Each

end Layout.Code

end ProtocolStubs
