import ProtocolStubs.Layout.Comment
import ProtocolStubs.Proofs.Text.Marks
import ProtocolStubs.Schema.Notes

set_option autoImplicit false

namespace ProtocolStubs.Notes

open Layout.Comment (slashTag starTag)
open Text (Mark OneLine)

def flagNames : List String := ["experimental", "deprecated", "optional"]

theorem set_flags_named (n : Notes) : ∀ flag ∈ n.setFlags, flag ∈ flagNames := by
  intro flag member
  obtain ⟨entry, among, rfl⟩ := List.mem_map.mp member
  have named : n.flags.map Prod.snd = flagNames := rfl
  exact named ▸ List.mem_map_of_mem (List.mem_filter.mp among).1

theorem lines_single (n : Notes) (tag : String → String) (tags : ∀ flag ∈ flagNames, OneLine (tag flag)) :
    ∀ line ∈ n.lines tag, OneLine line := by
  refine List.forall_mem_append.mpr ⟨List.forall_mem_map.mpr fun line member => ?_, ?_⟩
  · cases described : n.description with
    | none => rw [described] at member; cases member
    | some text =>
      rw [described] at member
      exact Text.trim_end_line line (Text.lines_line text line member)
  · exact List.forall_mem_map.mpr fun flag member => tags flag (set_flags_named n flag member)

theorem lines_mark (n : Notes) (tag : String → String) (part : List Char) (mark : Mark part)
    (tags : ∀ flag ∈ flagNames, ¬part <:+: (tag flag).toList) :
    (∃ line ∈ n.lines tag, part <:+: line.toList) ↔ ∃ d ∈ n.description, part <:+: d.toList := by
  have plain : ¬∃ line ∈ n.setFlags.map tag, part <:+: line.toList := by
    rintro ⟨line, member, shown⟩
    obtain ⟨flag, among, rfl⟩ := List.mem_map.mp member
    exact tags flag (set_flags_named n flag among) shown
  simp only [lines, List.mem_append, or_and_right, exists_or, or_iff_left plain]
  rw [descriptionLines]
  cases n.description with
  | none => simp
  | some text => simpa using Text.mark_lines mark text

theorem star_tags_single : ∀ flag ∈ flagNames, OneLine (starTag flag) := by decide

theorem slash_tags_single : ∀ flag ∈ flagNames, OneLine (slashTag flag) := by decide

end ProtocolStubs.Notes
