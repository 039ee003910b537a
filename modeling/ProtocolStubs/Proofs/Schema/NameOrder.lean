import ProtocolStubs.Schema.Dependency

set_option autoImplicit false

namespace ProtocolStubs

def Ascending (names : List String) : Prop := names.Pairwise (· < ·)

theorem name_above (name head : String) (notLess : ¬ name < head) (different : name ≠ head) :
    head < name := by
  apply String.not_le.mp
  intro below
  exact different (String.le_antisymm below (String.not_lt.mp notLess))

theorem insert_name_ascending (name : String) (names : List String) (ascending : Ascending names) :
    Ascending (insertName name names) := by
  induction names with
  | nil => exact List.pairwise_singleton _ name
  | cons head rest ih =>
    obtain ⟨below, rest_ascending⟩ := List.pairwise_cons.mp ascending
    by_cases less : name < head
    · rw [insertName, if_pos less]
      refine List.pairwise_cons.mpr ⟨fun other member => ?_, ascending⟩
      rcases List.mem_cons.mp member with here | later
      · exact here ▸ less
      · exact String.lt_trans less (below other later)
    · by_cases same : name = head
      · rw [insertName, if_neg less, if_pos same]
        exact ascending
      · rw [insertName, if_neg less, if_neg same]
        refine List.pairwise_cons.mpr ⟨fun other member => ?_, ih rest_ascending⟩
        rcases (mem_insertName name other rest).mp member with here | later
        · exact here ▸ name_above name head less same
        · exact below other later

theorem sorted_names_ascending (names : List String) : Ascending (sortedNames names) := by
  induction names with
  | nil => exact List.Pairwise.nil
  | cons head rest ih => exact insert_name_ascending head (sortedNames rest) ih

theorem ascending_nodup (names : List String) (ascending : Ascending names) : names.Nodup := by
  refine List.Pairwise.imp ?_ ascending
  intro a b less same
  exact String.lt_irrefl b (same ▸ less)

theorem ascending_unique (a b : List String) (left : Ascending a) (right : Ascending b)
    (same : ∀ name, name ∈ a ↔ name ∈ b) : a = b := by
  have perm : a.Perm b :=
    (List.perm_ext_iff_of_nodup (ascending_nodup a left) (ascending_nodup b right)).mpr same
  refine perm.eq_of_pairwise (fun x y _ _ less greater => ?_) left right
  exact absurd (String.lt_trans less greater) (String.lt_irrefl x)

end ProtocolStubs
