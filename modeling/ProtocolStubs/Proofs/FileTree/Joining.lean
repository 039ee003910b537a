import ProtocolStubs.Proofs.FileTree.Reduction
import ProtocolStubs.Proofs.Text.Ink

set_option autoImplicit false

namespace ProtocolStubs

namespace Path

theorem cut_parts (before after : List Char) :
    parts (String.ofList (before ++ '/' :: after)) =
      parts (String.ofList before) ++ parts (String.ofList after) := by
  simp only [parts, Text.split, String.toList_ofList]
  exact Text.split_from_append '/' [] before after

-- What a base says at its end: a slash there is an empty part, but not in a joined path.
def IsSilent (ending : List String) : Prop := ending = [] ∨ ending = [""]

theorem silent_parts (ending : List String) (silent : IsSilent ending) :
    ∀ part ∈ ending, part = "" ∨ part = "." := by
  rcases silent with rfl | rfl
  · exact List.forall_mem_nil _
  · exact List.forall_mem_singleton.mpr (.inl rfl)

theorem join_parts (base path : String) (relative : isAbsolute path = false) (based : base ≠ "") :
    ∃ above ending, IsSilent ending ∧ parts base = above ++ ending ∧
      parts (join base path) = above ++ parts path := by
  have cut := fun before => cut_parts before path.toList
  simp only [String.ofList_toList] at cut
  by_cases slash : Text.endsWith base '/' = true
  · obtain ⟨before, ends⟩ := List.getLast?_eq_some_iff.mp (beq_iff_eq.mp slash)
    have ended : parts base = parts (String.ofList before) ++ [""] := by
      rw [← String.ofList_toList (s := base), ends]
      exact cut_parts before []
    have joined : join base path = String.ofList (before ++ '/' :: path.toList) := by
      apply String.toList_inj.mp
      simp [join, relative, slash, ends]
    exact ⟨_, [""], .inr rfl, ended, joined ▸ cut before⟩
  · have joined : join base path = String.ofList (base.toList ++ '/' :: path.toList) := by
      apply String.toList_inj.mp
      simp [join, relative, slash, based]
    refine ⟨parts base, [], .inl rfl, (List.append_nil _).symm, ?_⟩
    rw [joined, cut, String.ofList_toList]

theorem join_absolute (base path : String) (relative : isAbsolute path = false) :
    isAbsolute (join base path) = isAbsolute base := by
  by_cases based : base = ""
  · subst based
    have same : join "" path = path := by simp [join, relative]
    rw [same, relative]
    rfl
  · obtain ⟨rest, joined⟩ : ∃ rest, (join base path).toList = base.toList ++ rest := by
      rw [join, relative]
      simp only [Bool.false_eq_true, if_false]
      split
      · exact ⟨path.toList, String.toList_append⟩
      · exact ⟨'/' :: path.toList, by simp⟩
    have nonempty : base.toList ≠ [] := fun nothing => based (String.toList_eq_nil_iff.mp nothing)
    rw [isAbsolute, isAbsolute, Text.startsWith, Text.startsWith, joined,
      List.head?_append_of_ne_nil _ nonempty]

theorem join_name (base path : String) : hasName (join base path) =
    (hasName path || (!isAbsolute path && hasName base)) := by
  cases absolute : isAbsolute path with
  | true => simp [join, absolute]
  | false =>
    by_cases based : base = ""
    · subst based
      have same : join "" path = path := by simp [join, absolute]
      have unnamed : hasName "" = false := by decide
      simp [same, unnamed]
    · obtain ⟨above, ending, silent, whole, joined⟩ := join_parts base path absolute based
      have says_nothing : ending.any isName = false := by
        cases silent with
        | inl none_left => rw [none_left]; rfl
        | inr empty_part => rw [empty_part]; rfl
      rw [hasName, hasName, hasName, joined, whole, List.any_append, List.any_append, says_nothing]
      simp [Bool.or_comm]

end Path

namespace FileTree

variable (t : FileTree)

theorem walk_onward (above ending parts : List String) (s middle : Standpoint)
    (silent : Path.IsSilent ending) (walked : t.walk s (above ++ ending) = .ok middle) :
    t.walk s (above ++ parts) = t.walk middle parts := by
  induction above generalizing s with
  | nil => rw [walk_silent t ending s middle (Path.silent_parts ending silent) walked, List.nil_append]
  | cons part rest ih =>
    obtain ⟨next, passed, walked⟩ := (walk_cons t _ _ _ _).mp walked
    rw [List.cons_append, walk_part, passed]
    exact ih next walked

theorem origin_join (base path : String) (relative : Path.isAbsolute path = false) :
    t.origin (Path.join base path) = t.origin base := by
  rw [origin, origin, Path.join_absolute base path relative]

theorem join_spent (base path : String) (middle last : Standpoint)
    (relative : Path.isAbsolute path = false) (spent : Path.isSpent path = true)
    (found : t.find base = .ok middle) (onward : t.find (Path.join base path) = .ok last) :
    last.location <+: middle.location := by
  have based : base ≠ "" := by
    intro empty_path
    rw [empty_path] at found
    cases found
  obtain ⟨above, ending, silent, whole, joined⟩ := Path.join_parts base path relative based
  have there := find_walk t base middle found
  have further := find_walk t (Path.join base path) last onward
  rw [whole] at there
  rw [origin_join t base path relative, joined, walk_onward t above ending _ _ middle silent there]
    at further
  exact spent_walk t path middle last spent further

end FileTree

end ProtocolStubs
