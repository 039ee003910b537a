import ProtocolStubs.Proofs.Schema.References

set_option autoImplicit false

namespace ProtocolStubs

-- A member that bears a flag which is skipped. A flag that is absent, or written false, is not borne.
def Filter.Rejects (f : Filter) (experimental deprecated : Option Bool) : Prop :=
  f.skipExperimental = true ∧ experimental = some true ∨ f.skipDeprecated = true ∧ deprecated = some true

def Filter.RejectsCommand (f : Filter) (c : Command) : Prop := f.Rejects c.experimental c.deprecated

def Filter.RejectsEvent (f : Filter) (e : Event) : Prop := f.Rejects e.experimental e.deprecated

-- The rest of a list, in its order, without the rejected elements.
inductive LeavesOut {α : Type} (rejected : α → Prop) : List α → List α → Prop where
  | nil : LeavesOut rejected [] []
  | drop (a : α) (whole kept : List α) (out : rejected a) (rest : LeavesOut rejected whole kept) :
      LeavesOut rejected (a :: whole) kept
  | keep (a : α) (whole kept : List α) (stays : ¬ rejected a) (rest : LeavesOut rejected whole kept) :
      LeavesOut rejected (a :: whole) (a :: kept)

theorem leaves_out_iff {α : Type} (rejected : α → Prop) (keeps : α → Bool)
    (decides : ∀ a, keeps a = true ↔ ¬ rejected a) (whole kept : List α) :
    LeavesOut rejected whole kept ↔ kept = whole.filter keeps := by
  constructor
  · intro leaves
    induction leaves with
    | nil => rfl
    | drop a whole kept out _ ih =>
      rw [List.filter_cons_of_neg (fun stays => (decides a).mp stays out)]
      exact ih
    | keep a whole kept stays _ ih => rw [List.filter_cons_of_pos ((decides a).mpr stays), ih]
  · rintro rfl
    induction whole with
    | nil => exact .nil
    | cons a rest ih =>
      by_cases stays : keeps a = true
      · rw [List.filter_cons_of_pos stays]
        exact .keep a rest _ ((decides a).mp stays) ih
      · rw [List.filter_cons_of_neg stays]
        exact .drop a rest _ (not_not.mp fun kept => stays ((decides a).mpr kept)) ih

theorem leaves_out_optional {α : Type} (rejected : α → Prop) (keeps : α → Bool)
    (decides : ∀ a, keeps a = true ↔ ¬ rejected a) (whole kept : Option (List α)) :
    Option.Rel (LeavesOut rejected) whole kept ↔ kept = whole.map fun list => list.filter keeps := by
  have each := leaves_out_iff rejected keeps decides
  constructor
  · intro related
    cases related with
    | none => rfl
    | some leaves => exact congrArg some ((each _ _).mp leaves)
  · rintro rfl
    cases whole with
    | none => exact .none
    | some list => exact .some ((each list _).mpr rfl)

namespace Filter

theorem keeps_iff (f : Filter) (experimental deprecated : Option Bool) :
    f.keeps experimental deprecated = true ↔ ¬ f.Rejects experimental deprecated := by
  rw [keeps, Rejects, Bool.not_eq_true', ← Bool.not_eq_true, Bool.or_eq_true, Bool.and_eq_true,
    Bool.and_eq_true, isSet, isSet, beq_iff_eq, beq_iff_eq]

theorem keeps_or (f g : Filter) (experimental deprecated : Option Bool) :
    (f.or g).keeps experimental deprecated =
      (g.keeps experimental deprecated && f.keeps experimental deprecated) := by
  have skips : ∀ first second : Bool, (first || second) = true ↔ first = true ∨ second = true :=
    fun first second => Bool.or_eq_true first second ▸ Iff.rfl
  rw [Bool.eq_iff_iff, Bool.and_eq_true, keeps_iff, keeps_iff, keeps_iff]
  simp only [Rejects, or, skips]
  tauto

theorem or_comm (f g : Filter) : f.or g = g.or f := by
  rw [or, or, Bool.or_comm, Bool.or_comm f.skipDeprecated]

theorem or_self (f : Filter) : f.or f = f := by
  rw [or, Bool.or_self, Bool.or_self]

theorem keeps_none (experimental deprecated : Option Bool) : none.keeps experimental deprecated = true := rfl

end Filter

namespace Domain

structure Restricted (f : Filter) (d kept : Domain) : Prop where
  commands : LeavesOut f.RejectsCommand d.commands kept.commands
  events : Option.Rel (LeavesOut f.RejectsEvent) d.events kept.events
  others : { kept with commands := d.commands, events := d.events } = d

theorem restricted_iff (f : Filter) (d kept : Domain) : d.Restricted f kept ↔ kept = d.filtered f := by
  have commands := leaves_out_iff f.RejectsCommand f.keepsCommand fun c => f.keeps_iff _ _
  have events := leaves_out_optional f.RejectsEvent f.keepsEvent fun e => f.keeps_iff _ _
  constructor
  · rintro ⟨leftCommands, leftEvents, others⟩
    rw [filtered, ← (commands _ _).mp leftCommands, ← (events _ _).mp leftEvents, ← others]
  · rintro rfl
    exact ⟨(commands _ _).mpr rfl, (events _ _).mpr rfl, rfl⟩

theorem filtered_twice (d : Domain) (f g : Filter) : (d.filtered f).filtered g = d.filtered (f.or g) := by
  have commands : d.commands.filter (f.or g).keepsCommand =
      (d.commands.filter f.keepsCommand).filter g.keepsCommand := by
    rw [List.filter_filter]
    exact List.filter_congr fun c _ => f.keeps_or g c.experimental c.deprecated
  have events : ∀ list : List Event, list.filter (f.or g).keepsEvent =
      (list.filter f.keepsEvent).filter g.keepsEvent := by
    intro list
    rw [List.filter_filter]
    exact List.filter_congr fun e _ => f.keeps_or g e.experimental e.deprecated
  rw [filtered, filtered, filtered, commands, Option.map_map, funext events]
  rfl

theorem filtered_none (d : Domain) : d.filtered .none = d := by
  have commands : d.commands.filter Filter.none.keepsCommand = d.commands :=
    List.filter_eq_self.mpr fun c _ => Filter.keeps_none c.experimental c.deprecated
  have events : ∀ list : List Event, list.filter Filter.none.keepsEvent = list := fun list =>
    List.filter_eq_self.mpr fun e _ => Filter.keeps_none e.experimental e.deprecated
  rw [filtered, commands, funext events, Option.map_id']

theorem filtered_dependencies (d : Domain) (f : Filter) :
    (d.filtered f).dependencyNames ⊆ d.dependencyNames := by
  intro name member
  rw [dependencyNames, mem_sortedNames, List.mem_filter] at member ⊢
  refine ⟨?_, member.2⟩
  rcases List.mem_append.mp member.1 with declared | referred
  · exact List.mem_append_left _ declared
  · obtain ⟨definition, stands, among⟩ := List.mem_flatMap.mp referred
    exact List.mem_append_right _
      (List.mem_flatMap.mpr ⟨definition, d.filtered_definitions f definition stands, among⟩)

end Domain

end ProtocolStubs
