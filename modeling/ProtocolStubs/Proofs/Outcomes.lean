import Mathlib.Data.List.Forall2

set_option autoImplicit false

namespace ProtocolStubs

variable {α β ε : Type}

theorem bind_ok (first : Except ε α) (next : α → Except ε β) (b : β) :
    first >>= next = .ok b ↔ ∃ a, first = .ok a ∧ next a = .ok b := by
  cases first <;> simp [bind, Except.bind]

theorem map_ok (f : α → β) (x : Except ε α) (b : β) : x.map f = .ok b ↔ ∃ a, x = .ok a ∧ f a = b := by
  cases x <;> simp [Except.map]

theorem map_each (make : α → Except ε β) (values : List α) (made : List β)
    (all : values.mapM make = .ok made) : List.Forall₂ (fun a b => make a = .ok b) values made := by
  induction values generalizing made with
  | nil =>
    cases all
    exact .nil
  | cons a rest ih =>
    rw [List.mapM_cons] at all
    obtain ⟨b, first, all⟩ := (bind_ok _ _ _).mp all
    obtain ⟨others, later, same⟩ := (bind_ok _ _ _).mp all
    cases same
    exact .cons first (ih others later)

theorem made_each [Inhabited β] (make : α → Except ε β) (values : List α) (made : List β)
    (all : values.mapM make = .ok made) :
    ∃ result : α → β, made = values.map result ∧ ∀ a ∈ values, make a = .ok (result a) := by
  refine ⟨fun a => (make a).toOption.getD default, ?_⟩
  have each := map_each make values made all
  clear all
  induction each with
  | nil => exact ⟨rfl, nofun⟩
  | @cons a b rest others first _ ih =>
    refine ⟨?_, List.forall_mem_cons.mpr ⟨?_, ih.2⟩⟩
    · rw [List.map_cons, first, ← ih.1]
      rfl
    · simp [first, Except.toOption]

theorem each_made (make : α → Except ε β) (result : α → β) (values : List α)
    (each : ∀ a ∈ values, make a = .ok (result a)) : values.mapM make = .ok (values.map result) := by
  induction values with
  | nil => rfl
  | cons a rest ih =>
    obtain ⟨first, later⟩ := List.forall_mem_cons.mp each
    rw [List.mapM_cons, first, ih later]
    rfl

end ProtocolStubs
