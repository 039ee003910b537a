import Mathlib.Data.List.Nodup

set_option autoImplicit false

namespace ProtocolStubs

variable {α β : Type} [BEq α] [LawfulBEq α]

theorem lookup_filter (entries : List (α × β)) (passes : α → Bool) (key : α)
    (passed : passes key = true) :
    (entries.filter fun entry => passes entry.1).lookup key = entries.lookup key := by
  induction entries with
  | nil => rfl
  | cons entry rest ih =>
    obtain ⟨name, value⟩ := entry
    by_cases same : key = name
    · subst same
      rw [List.filter_cons, if_pos passed, List.lookup_cons_self, List.lookup_cons_self]
    · have missed : (key == name) = false := beq_false_of_ne same
      rw [List.lookup_cons, missed, ← ih, List.filter_cons]
      cases passes name with
      | true => exact List.lookup_cons.trans (by rw [missed])
      | false => rfl

theorem lookup_filtered_out (entries : List (α × β)) (passes : α → Bool) (key : α)
    (stopped : passes key = false) : (entries.filter fun entry => passes entry.1).lookup key = none := by
  rw [List.lookup_eq_none_iff]
  intro entry member
  have passed := (List.mem_filter.mp member).2
  rw [bne_iff_ne]
  rintro rfl
  exact Bool.false_ne_true (stopped.symm.trans passed)

theorem lookup_append_new (entries : List (α × β)) (key : α) (value : β)
    (missing : entries.lookup key = none) : (entries ++ [(key, value)]).lookup key = some value := by
  rw [List.lookup_append, missing]
  simp

theorem lookup_append_other (entries : List (α × β)) (key other : α) (value : β)
    (different : key ≠ other) : (entries ++ [(other, value)]).lookup key = entries.lookup key := by
  rw [List.lookup_append, List.lookup_cons, beq_false_of_ne different]
  exact Option.or_none

theorem lookup_mem (entries : List (α × β)) (key : α) (value : β)
    (found : entries.lookup key = some value) : (key, value) ∈ entries := by
  obtain ⟨before, after, same, _⟩ := List.lookup_eq_some_iff.mp found
  rw [same]
  simp

theorem lookup_distinct (entries : List (α × β)) (key : α) (value : β)
    (distinct : (entries.map Prod.fst).Nodup) :
    entries.lookup key = some value ↔ (key, value) ∈ entries := by
  induction entries with
  | nil => simp
  | cons entry rest ih =>
    obtain ⟨name, first⟩ := entry
    obtain ⟨fresh, restDistinct⟩ := List.nodup_cons.mp distinct
    rw [List.lookup_cons, List.mem_cons, ← ih restDistinct]
    by_cases same : key = name
    · subst key
      have absent : rest.lookup name ≠ some value := fun found =>
        fresh (List.mem_map.mpr ⟨(name, value), (ih restDistinct).mp found, rfl⟩)
      simp [absent, eq_comm]
    · have different : (key == name) = false := beq_eq_false_iff_ne.mpr same
      simp [different, same]

theorem lookup_reverse (entries : List (α × β)) (key : α) (distinct : (entries.map Prod.fst).Nodup) :
    entries.reverse.lookup key = entries.lookup key := by
  have reversed : (entries.reverse.map Prod.fst).Nodup := by
    rw [List.map_reverse]
    exact List.nodup_reverse.mpr distinct
  ext value
  rw [lookup_distinct _ key value reversed, lookup_distinct _ key value distinct, List.mem_reverse]

theorem lookup_isSome (entries : List (α × β)) (key : α) :
    (entries.lookup key).isSome = true ↔ key ∈ entries.map Prod.fst := by
  induction entries with
  | nil => simp
  | cons entry rest ih =>
    rw [List.lookup_cons, List.map_cons, List.mem_cons, ← ih]
    by_cases same : key = entry.1
    · simp [same]
    · simp [same, beq_false_of_ne same]

theorem lookup_missing (entries : List (α × β)) (key : α) (missing : key ∉ entries.map Prod.fst) :
    entries.lookup key = none := by
  rw [← Option.not_isSome_iff_eq_none, lookup_isSome]
  exact missing

omit [LawfulBEq α] in
theorem lookup_mapped {γ : Type} (entries : List (α × β)) (change : β → γ) (key : α) :
    (entries.map fun entry => (entry.1, change entry.2)).lookup key = (entries.lookup key).map change := by
  induction entries with
  | nil => rfl
  | cons entry rest ih =>
    rw [List.map_cons, List.lookup_cons, List.lookup_cons]
    cases key == entry.1 with
    | true => rfl
    | false => exact ih

end ProtocolStubs
