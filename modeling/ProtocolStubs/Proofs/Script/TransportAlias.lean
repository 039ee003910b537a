import Mathlib.Data.List.Nodup
import Mathlib.Data.Nat.Find
import ProtocolStubs.Script.File

set_option autoImplicit false

namespace ProtocolStubs.Script

def underscored (name : String) (count : Nat) : String :=
  name ++ String.ofList (List.replicate count '_')

theorem underscored_none (name : String) : underscored name 0 = name := String.append_empty

theorem underscored_further (name : String) (count : Nat) :
    underscored (name ++ "_") count = underscored name (count + 1) := by
  apply String.toList_injective
  simp [underscored, List.replicate_succ]

theorem underscored_injective (name : String) : Function.Injective (underscored name) := by
  intro first second same
  have lengths := congrArg String.length same
  simpa [underscored] using lengths

-- Padding without a bound: one underscore more for as long as the name is known.
inductive Pads (known : List String) : String → String → Prop where
  | free (name : String) (unknown : name ∉ known) : Pads known name name
  | taken (name result : String) (member : name ∈ known) (further : Pads known (name ++ "_") result) :
    Pads known name result

section Padding

variable (known : List String) (name : String)

structure LeastFree (count : Nat) : Prop where
  free : underscored name count ∉ known
  taken : ∀ fewer < count, underscored name fewer ∈ known

-- Not all of the first names can be known, since there are more of them than known ones.
theorem some_free : ∃ count ≤ known.length, underscored name count ∉ known := by
  by_contra none
  have each : ∀ count ≤ known.length, underscored name count ∈ known := by
    intro count within
    by_contra unknown
    exact none ⟨count, within, unknown⟩
  have distinct : ((List.range (known.length + 1)).map (underscored name)).Nodup :=
    List.nodup_range.map (underscored_injective name)
  have among : (List.range (known.length + 1)).map (underscored name) ⊆ known := by
    intro padded member
    obtain ⟨count, within, rfl⟩ := List.mem_map.mp member
    exact each count (Nat.lt_succ_iff.mp (List.mem_range.mp within))
  have bound := distinct.length_le_of_subset among
  rw [List.length_map, List.length_range] at bound
  exact Nat.not_succ_le_self _ bound

theorem least_free : ∃ count ≤ known.length, LeastFree known name count := by
  obtain ⟨count, within, free⟩ := some_free known name
  have found : ∃ count, underscored name count ∉ known := ⟨count, free⟩
  exact ⟨Nat.find found, Nat.le_trans (Nat.find_min' found free) within, Nat.find_spec found,
    fun fewer below => not_not.mp (Nat.find_min found below)⟩

theorem least_unique (first second : Nat) (least : LeastFree known name first)
    (other : LeastFree known name second) : first = second := by
  rcases Nat.lt_trichotomy first second with fewer | same | more
  · exact absurd (other.taken first fewer) least.free
  · exact same
  · exact absurd (least.taken second more) other.free

theorem least_none : LeastFree known name 0 ↔ name ∉ known :=
  ⟨fun least => underscored_none name ▸ least.free,
    fun unknown => ⟨(underscored_none name).symm ▸ unknown, nofun⟩⟩

theorem least_further (count : Nat) :
    LeastFree known name (count + 1) ↔ name ∈ known ∧ LeastFree known (name ++ "_") count := by
  constructor
  · rintro ⟨free, taken⟩
    refine ⟨underscored_none name ▸ taken 0 (Nat.zero_lt_succ count), ?_, fun fewer below => ?_⟩
    · rwa [underscored_further]
    · rw [underscored_further]
      exact taken (fewer + 1) (Nat.succ_lt_succ below)
  · rintro ⟨member, free, taken⟩
    refine ⟨underscored_further name count ▸ free, fun fewer below => ?_⟩
    cases fewer with
    | zero => rwa [underscored_none]
    | succ fewer =>
      rw [← underscored_further]
      exact taken fewer (Nat.lt_of_succ_lt_succ below)

theorem pads_iff (result : String) :
    Pads known name result ↔ ∃ count, LeastFree known name count ∧ result = underscored name count := by
  constructor
  · intro pads
    induction pads with
    | free name unknown => exact ⟨0, (least_none known name).mpr unknown, (underscored_none name).symm⟩
    | taken name result member _ ih =>
      obtain ⟨count, least, rfl⟩ := ih
      exact ⟨count + 1, (least_further known name count).mpr ⟨member, least⟩,
        underscored_further name count⟩
  · rintro ⟨count, least, rfl⟩
    induction count generalizing name with
    | zero =>
      rw [underscored_none]
      exact .free name ((least_none known name).mp least)
    | succ count ih =>
      obtain ⟨member, further⟩ := (least_further known name count).mp least
      rw [← underscored_further]
      exact .taken name _ member (ih (name ++ "_") further)

theorem padded_least (steps count : Nat) (least : LeastFree known name count) (enough : count ≤ steps) :
    padded known steps name = underscored name count := by
  induction steps generalizing name count with
  | zero =>
    cases Nat.le_zero.mp enough
    exact (underscored_none name).symm
  | succ steps ih =>
    cases count with
    | zero => rw [padded, if_neg ((least_none known name).mp least), underscored_none]
    | succ count =>
      obtain ⟨member, further⟩ := (least_further known name count).mp least
      rw [padded, if_pos member, ← underscored_further]
      exact ih (name ++ "_") count further (Nat.le_of_succ_le_succ enough)

end Padding

theorem alias_least (transportType : String) (known : List String) :
    ∃ count, LeastFree known (transportType ++ "Handle") count ∧
      transportAlias transportType known = underscored (transportType ++ "Handle") count := by
  obtain ⟨count, within, least⟩ := least_free known (transportType ++ "Handle")
  exact ⟨count, least, padded_least known _ known.length count least within⟩

example : transportAlias "Debugger" ["DebuggerHandle_", "Page", "DebuggerHandle"] = "DebuggerHandle__" := by
  decide

theorem pads_alias (transportType : String) (known : List String) (result : String) :
    Pads known (transportType ++ "Handle") result ↔ result = transportAlias transportType known := by
  obtain ⟨count, least, same⟩ := alias_least transportType known
  rw [pads_iff, same]
  constructor
  · rintro ⟨other, otherLeast, rfl⟩
    rw [least_unique known _ other count otherLeast least]
  · rintro rfl
    exact ⟨count, least, rfl⟩

theorem alias_unknown (transportType : String) (known : List String) :
    transportAlias transportType known ∉ known := by
  obtain ⟨count, least, same⟩ := alias_least transportType known
  exact same ▸ least.free

theorem alias_alike (transportType : String) (known names : List String)
    (same : ∀ name, name ∈ known ↔ name ∈ names) :
    transportAlias transportType known = transportAlias transportType names := by
  obtain ⟨count, least, padded⟩ := alias_least transportType known
  obtain ⟨other, otherLeast, otherPadded⟩ := alias_least transportType names
  have shared : LeastFree names (transportType ++ "Handle") count :=
    ⟨fun member => least.free ((same _).mpr member), fun fewer below => (same _).mp (least.taken fewer below)⟩
  rw [padded, otherPadded, least_unique names _ count other shared otherLeast]

end ProtocolStubs.Script
