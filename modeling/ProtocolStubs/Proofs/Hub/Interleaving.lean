import Mathlib.Data.List.Induction
import Mathlib.Data.List.Perm.Basic
import ProtocolStubs.Proofs.Hub.Callers
import ProtocolStubs.Proofs.Hub.Filing

set_option autoImplicit false

namespace ProtocolStubs.Hub

variable {κ σ : Type}

namespace Chronicle

theorem filings_next (past : Chronicle κ) (mark : Mark κ) :
    filings (past ++ [mark]) = past.filings ++ mark.filing?.toList := by
  rw [filings, List.filterMap_append]
  cases files : mark.filing? <;> simp [filings, files]

theorem filed_filings (past : Chronicle κ) (event : String) (s : Entry κ) :
    .filed event s ∈ past ↔ (event, s) ∈ past.filings := by
  rw [filings, List.mem_filterMap]
  constructor
  · exact fun member => ⟨_, member, rfl⟩
  · intro found
    obtain ⟨mark, member, files⟩ := found
    cases mark with
    | filed name t =>
      cases files
      exact member
    | off id was => cases files
    | taken name entries => cases files
    | called n t => cases files

variable (past : Chronicle κ)

theorem removed_filed (id : Nat) (lawful : past.Lawful) (removed : .off id true ∈ past) :
    ∃ event s, .filed event s ∈ past ∧ s.id = id := by
  obtain ⟨n, stands⟩ := List.mem_iff_getElem?.mp removed
  obtain ⟨event, s, standing, same⟩ := (lawful n _ stands).mp rfl
  exact ⟨event, s, List.mem_of_mem_take standing.filed, same⟩

theorem snapshot_filed (event : String) (entries : List (Entry κ)) (s : Entry κ) (lawful : past.Lawful)
    (taken : .taken event entries ∈ past) (member : s ∈ entries) : .filed event s ∈ past := by
  obtain ⟨n, stands⟩ := List.mem_iff_getElem?.mp taken
  exact List.mem_of_mem_take (((lawful n _ stands).2.2 s).mp member).filed

theorem standing_fewer (mark : Mark κ) (name : String) (t : Entry κ) (filed : .filed name t ∈ past)
    (standing : Standing (past ++ [mark]) name t) : Standing past name t :=
  ⟨filed, fun removed => standing.kept (List.mem_append_left _ removed),
    fun once entries taken => standing.unused once entries (List.mem_append_left _ taken)⟩

theorem standing_filed (event name : String) (s t : Entry κ) (lawful : past.Lawful)
    (fresh : past.Follows (.filed event s)) :
    Standing (past ++ [.filed event s]) name t ↔ Standing past name t ∨ (name = event ∧ t = s) := by
  constructor
  · intro standing
    rcases List.mem_append.mp standing.filed with old | new
    · exact .inl (standing_fewer past _ name t old standing)
    · cases List.mem_singleton.mp new
      exact .inr ⟨rfl, rfl⟩
  · intro either
    cases either with
    | inl old =>
      refine ⟨List.mem_append_left _ old.filed, ?_, ?_⟩
      · simpa using old.kept
      · simpa using old.unused
    | inr new =>
      obtain ⟨rfl, rfl⟩ := new
      refine ⟨by simp, ?_, ?_⟩
      · intro removed
        obtain ⟨other, u, filed, same⟩ := removed_filed past t.id lawful (by simpa using removed)
        exact fresh other u filed same
      · intro _ entries taken member
        exact fresh name t (snapshot_filed past name entries t lawful (by simpa using taken) member) rfl

theorem standing_off (id : Nat) (was : Bool) (name : String) (t : Entry κ) :
    Standing (past ++ [.off id was]) name t ↔ Standing past name t ∧ ¬(was = true ∧ t.id = id) := by
  constructor
  · intro standing
    refine ⟨standing_fewer past _ name t (by simpa using standing.filed) standing, ?_⟩
    intro both
    obtain ⟨rfl, rfl⟩ := both
    exact standing.kept (by simp)
  · intro both
    obtain ⟨standing, other⟩ := both
    refine ⟨List.mem_append_left _ standing.filed, ?_, ?_⟩
    · intro removed
      rcases List.mem_append.mp removed with old | new
      · exact standing.kept old
      · cases List.mem_singleton.mp new
        exact other ⟨rfl, rfl⟩
    · simpa using standing.unused

theorem standing_taken (event name : String) (entries : List (Entry κ)) (t : Entry κ) :
    Standing (past ++ [.taken event entries]) name t ↔
      Standing past name t ∧ (t.once = true → name = event → t ∉ entries) := by
  constructor
  · intro standing
    refine ⟨standing_fewer past _ name t (by simpa using standing.filed) standing, ?_⟩
    intro once same
    exact standing.unused once entries (by simp [same])
  · intro both
    obtain ⟨standing, unused⟩ := both
    refine ⟨List.mem_append_left _ standing.filed, by simpa using standing.kept, ?_⟩
    intro once others taken
    rcases List.mem_append.mp taken with old | new
    · exact standing.unused once others old
    · cases List.mem_singleton.mp new
      exact unused once rfl

theorem standing_called (n : Nat) (s : Entry κ) (name : String) (t : Entry κ) :
    Standing (past ++ [.called n s]) name t ↔ Standing past name t := by
  constructor
  · intro standing
    exact standing_fewer past _ name t (by simpa using standing.filed) standing
  · intro standing
    exact ⟨List.mem_append_left _ standing.filed, by simpa using standing.kept,
      by simpa using standing.unused⟩

theorem uncalled_yet (lawful : past.Lawful) : past.callsOf past.length = [] := by
  apply List.filterMap_eq_nil_iff.mpr
  intro mark member
  cases calls : mark.call? past.length with
  | none => rfl
  | some s =>
    rw [call_mark past.length mark s calls] at member
    obtain ⟨i, stands⟩ := List.mem_iff_getElem?.mp member
    have within : i < past.length := (List.getElem?_eq_some_iff.mp stands).1
    exact absurd (called_taken past lawful i past.length s stands).1 (by omega)

end Chronicle

open Chronicle

theorem off_found (h : Hub κ) (id : Nat) (filed : Filed h.topics) :
    (h.off id).2 = true ↔ ∃ event s, s ∈ h.entries event ∧ s.id = id := by
  simp only [off, List.any_eq_true, beq_iff_eq]
  constructor
  · intro found
    obtain ⟨topic, member, s, inside, same⟩ := found
    refine ⟨topic.1, s, ?_, same⟩
    rw [entries_under, under_member h.topics topic filed member]
    exact inside
  · intro found
    obtain ⟨event, s, stands, same⟩ := found
    exact ⟨_, member_under h.topics event s stands, s, stands, same⟩

-- What stands at the hub is what stands by the chronicle, and no number is given twice.
structure Stands (h : Hub κ) (drawn : List Nat) (past : Chronicle κ) : Prop where
  filed : Filed h.topics
  order : ∀ event, (h.entries event).Sublist (past.filedUnder event)
  standing : ∀ event s, s ∈ h.entries event ↔ past.Standing event s
  distinct : (past.filings.map (fun filing => filing.2.id) ++ drawn).Nodup
  below : ∀ id ∈ past.filings.map (fun filing => filing.2.id) ++ drawn, id < h.nextId

-- An emission has called its whole snapshot but for those that it still owes a call.
structure Owing (owed : List (Nat × List (Entry κ))) (past : Chronicle κ) : Prop where
  emissions : (owed.map Prod.fst).Nodup
  owes : ∀ n left, (n, left) ∈ owed →
    ∃ event entries, past[n]? = some (.taken event entries) ∧ past.callsOf n ++ left = entries
  settled : ∀ n event entries, past[n]? = some (.taken event entries) →
    past.callsOf n = entries ∨ ∃ left, (n, left) ∈ owed

structure Kept (h : Hub κ) (drawn : List Nat) (owed : List (Nat × List (Entry κ)))
    (past : Chronicle κ) : Prop where
  lawful : past.Lawful
  stands : Stands h drawn past
  owing : Owing owed past

theorem empty_kept : Kept (empty : Hub κ) [] [] [] where
  lawful := lawful_nil
  stands := by
    refine ⟨filed_nil, fun _ => List.Sublist.refl _, ?_, List.nodup_nil, by simp [filings]⟩
    intro event s
    constructor
    · intro member
      cases member
    · intro standing
      cases standing.filed
  owing := ⟨List.nodup_nil, by simp, by simp⟩

theorem kept_perm (h : Hub κ) (drawn drawn' : List Nat) (owed owed' : List (Nat × List (Entry κ)))
    (past : Chronicle κ) (sameDrawn : drawn.Perm drawn') (sameOwed : owed.Perm owed')
    (kept : Kept h drawn owed past) : Kept h drawn' owed' past where
  lawful := kept.lawful
  stands := by
    obtain ⟨filed, order, standing, distinct, below⟩ := kept.stands
    have same := sameDrawn.append_left (past.filings.map fun filing => filing.2.id)
    refine ⟨filed, order, standing, same.nodup_iff.mp distinct, ?_⟩
    exact fun id member => below id (same.mem_iff.mpr member)
  owing := by
    obtain ⟨emissions, owes, settled⟩ := kept.owing
    refine ⟨(sameOwed.map Prod.fst).nodup_iff.mp emissions, ?_, ?_⟩
    · exact fun n left member => owes n left (sameOwed.mem_iff.mpr member)
    · intro n event entries taken
      rcases settled n event entries taken with already | ⟨left, member⟩
      · exact .inl already
      · exact .inr ⟨left, sameOwed.mem_iff.mp member⟩

theorem place_next (past : Chronicle κ) (mark other : Mark κ) (n : Nat)
    (stands : (past ++ [mark])[n]? = some other) :
    past[n]? = some other ∨ (n = past.length ∧ other = mark) := by
  rcases Nat.lt_or_ge n past.length with early | late
  · rw [List.getElem?_append_left early] at stands
    exact .inl stands
  · have within : n < (past ++ [mark]).length := (List.getElem?_eq_some_iff.mp stands).1
    have same : n = past.length := by
      simp only [List.length_append, List.length_singleton] at within
      omega
    subst same
    rw [List.getElem?_concat_length] at stands
    cases stands
    exact .inr ⟨rfl, rfl⟩

theorem place_stays (past : Chronicle κ) (mark other : Mark κ) (n : Nat)
    (stands : past[n]? = some other) : (past ++ [mark])[n]? = some other := by
  have early : n < past.length := (List.getElem?_eq_some_iff.mp stands).1
  rwa [List.getElem?_append_left early]

theorem owing_silent (owed : List (Nat × List (Entry κ))) (past : Chronicle κ) (mark : Mark κ)
    (untaken : ∀ event entries, mark ≠ .taken event entries) (uncalled : ∀ n, mark.call? n = none)
    (owing : Owing owed past) : Owing owed (past ++ [mark]) where
  emissions := owing.emissions
  owes := by
    intro n left member
    obtain ⟨event, entries, taken, calls⟩ := owing.owes n left member
    refine ⟨event, entries, place_stays past mark _ n taken, ?_⟩
    rw [calls_next, uncalled n]
    simpa using calls
  settled := by
    intro n event entries taken
    rcases place_next past mark _ n taken with old | ⟨_, new⟩
    · rw [calls_next, uncalled n]
      simpa using owing.settled n event entries old
    · exact absurd new.symm (untaken event entries)

theorem owing_taken (owed : List (Nat × List (Entry κ))) (past : Chronicle κ) (event : String)
    (entries : List (Entry κ)) (lawful : past.Lawful) (owing : Owing owed past) :
    Owing ((past.length, entries) :: owed) (past ++ [.taken event entries]) where
  emissions := by
    refine List.nodup_cons.mpr ⟨?_, owing.emissions⟩
    intro member
    obtain ⟨⟨n, left⟩, inside, same⟩ := List.mem_map.mp member
    obtain ⟨_, _, taken, _⟩ := owing.owes n left inside
    have within : n < past.length := (List.getElem?_eq_some_iff.mp taken).1
    exact Nat.ne_of_lt within same
  owes := by
    intro n left member
    rcases List.mem_cons.mp member with new | old
    · cases new
      refine ⟨event, entries, List.getElem?_concat_length, ?_⟩
      rw [calls_next, uncalled_yet past lawful]
      rfl
    · obtain ⟨name, others, taken, calls⟩ := owing.owes n left old
      refine ⟨name, others, place_stays past _ _ n taken, ?_⟩
      rw [calls_next]
      simpa [Mark.call?] using calls
  settled := by
    intro n name others taken
    rcases place_next past _ _ n taken with old | ⟨here, new⟩
    · rw [calls_next]
      rcases owing.settled n name others old with already | ⟨left, member⟩
      · exact .inl (by simpa [Mark.call?] using already)
      · exact .inr ⟨left, List.mem_cons_of_mem _ member⟩
    · exact .inr ⟨entries, here ▸ List.mem_cons_self⟩

theorem owing_called (owed : List (Nat × List (Entry κ))) (past : Chronicle κ) (n : Nat) (s : Entry κ)
    (left : List (Entry κ)) (owing : Owing ((n, s :: left) :: owed) past) :
    Owing ((n, left) :: owed) (past ++ [.called n s]) := by
  obtain ⟨emissions, owes, settled⟩ := owing
  have own : callsOf n (past ++ [.called n s]) = past.callsOf n ++ [s] := by
    rw [calls_next]
    simp [Mark.call?]
  have others : ∀ m, m ≠ n → callsOf m (past ++ [.called n s]) = past.callsOf m := by
    intro m different
    rw [calls_next]
    simp [Mark.call?, Ne.symm different]
  refine ⟨emissions, ?_, ?_⟩
  · intro m rest member
    rcases List.mem_cons.mp member with new | old
    · cases new
      obtain ⟨event, entries, taken, calls⟩ := owes n (s :: left) List.mem_cons_self
      exact ⟨event, entries, place_stays past _ _ n taken, by rw [own, ← calls]; simp⟩
    · have different : m ≠ n := by
        intro same
        exact (List.nodup_cons.mp emissions).1 (List.mem_map.mpr ⟨(m, rest), old, same⟩)
      obtain ⟨name, snapshot, place, made⟩ := owes m rest (List.mem_cons_of_mem _ old)
      exact ⟨name, snapshot, place_stays past _ _ m place, by rw [others m different, made]⟩
  · intro m name snapshot place
    by_cases same : m = n
    · exact .inr ⟨left, same ▸ List.mem_cons_self⟩
    · rw [others m same]
      rcases place_next past _ _ m place with old | ⟨_, impossible⟩
      · rcases settled m name snapshot old with already | ⟨rest, member⟩
        · exact .inl already
        · rcases List.mem_cons.mp member with new | still
          · cases new
            exact absurd rfl same
          · exact .inr ⟨rest, List.mem_cons_of_mem _ still⟩
      · cases impossible

theorem snapshot_distinct (h : Hub κ) (drawn : List Nat) (past : Chronicle κ) (event : String)
    (stands : Stands h drawn past) : ((h.entries event).map Entry.id).Nodup := by
  have all : (past.filings.map fun filing => filing.2.id).Nodup :=
    (List.nodup_append.mp stands.distinct).1
  have among : ((past.filedUnder event).map Entry.id).Sublist
      (past.filings.map fun filing => filing.2.id) := by
    rw [filedUnder, List.map_map]
    exact List.filter_sublist.map _
  exact all.sublist (((stands.order event).map Entry.id).trans among)

theorem filed_follows (h : Hub κ) (drawn : List Nat) (past : Chronicle κ) (event : String) (s : Entry κ)
    (stands : Stands h (s.id :: drawn) past) : past.Follows (.filed event s) := by
  intro name t member same
  have given : t.id ∈ past.filings.map fun filing => filing.2.id :=
    List.mem_map.mpr ⟨(name, t), (filed_filings past name t).mp member, rfl⟩
  exact (List.nodup_append.mp stands.distinct).2.2 t.id given s.id List.mem_cons_self same

theorem off_follows (h : Hub κ) (drawn : List Nat) (past : Chronicle κ) (id : Nat)
    (stands : Stands h drawn past) : past.Follows (.off id (h.off id).2) := by
  refine (off_found h id stands.filed).trans ⟨?_, ?_⟩
  · intro there
    obtain ⟨event, s, member, same⟩ := there
    exact ⟨event, s, (stands.standing event s).mp member, same⟩
  · intro there
    obtain ⟨event, s, standing, same⟩ := there
    exact ⟨event, s, (stands.standing event s).mpr standing, same⟩

theorem taken_follows (h : Hub κ) (drawn : List Nat) (past : Chronicle κ) (event : String)
    (stands : Stands h drawn past) : past.Follows (.taken event (h.entries event)) :=
  ⟨snapshot_distinct h drawn past event stands, stands.order event, stands.standing event⟩

theorem called_follows (owed : List (Nat × List (Entry κ))) (past : Chronicle κ) (n : Nat) (s : Entry κ)
    (left : List (Entry κ)) (owing : Owing ((n, s :: left) :: owed) past) :
    past.Follows (.called n s) := by
  obtain ⟨event, entries, taken, calls⟩ := owing.owes n (s :: left) List.mem_cons_self
  exact ⟨event, entries, taken, left, by rw [← calls]; simp⟩

theorem stands_unfiled (h after : Hub κ) (drawn : List Nat) (past : Chronicle κ) (mark : Mark κ)
    (unfiled : mark.filing? = none) (numbered : after.nextId = h.nextId) (filed : Filed after.topics)
    (fewer : ∀ event, (after.entries event).Sublist (h.entries event))
    (standing : ∀ event s, s ∈ after.entries event ↔ Standing (past ++ [mark]) event s)
    (stands : Stands h drawn past) : Stands after drawn (past ++ [mark]) := by
  have filings_stay : filings (past ++ [mark]) = past.filings := by
    rw [filings_next, unfiled, Option.toList_none, List.append_nil]
  refine ⟨filed, ?_, standing, ?_, ?_⟩
  · intro event
    rw [filedUnder, filings_stay]
    exact (fewer event).trans (stands.order event)
  · rw [filings_stay]
    exact stands.distinct
  · rw [filings_stay, numbered]
    exact stands.below

section Sections

variable (h : Hub κ) (drawn : List Nat) (owed : List (Nat × List (Entry κ))) (past : Chronicle κ)

theorem draw_kept (kept : Kept h drawn owed past) : Kept h.draw.1 (h.draw.2 :: drawn) owed past where
  lawful := kept.lawful
  stands := by
    obtain ⟨filed, order, standing, distinct, below⟩ := kept.stands
    have fresh : h.nextId ∉ past.filings.map (fun filing => filing.2.id) ++ drawn :=
      fun member => Nat.lt_irrefl _ (below h.nextId member)
    refine ⟨filed, order, standing, ?_, ?_⟩
    · exact List.perm_middle.nodup_iff.mpr (List.nodup_cons.mpr ⟨fresh, distinct⟩)
    · intro id member
      rcases List.mem_cons.mp (List.perm_middle.mem_iff.mp member) with new | old
      · exact new ▸ Nat.lt_succ_self h.nextId
      · exact Nat.lt_succ_of_lt (below id old)
  owing := kept.owing

theorem insert_kept (event : String) (s : Entry κ) (kept : Kept h (s.id :: drawn) owed past) :
    Kept (h.insert event s) drawn owed (past ++ [.filed event s]) := by
  have fresh := filed_follows h drawn past event s kept.stands
  obtain ⟨lawful, ⟨filed, order, standing, distinct, below⟩, owing⟩ := kept
  have under_after : ∀ name, (h.insert event s).entries name =
      if name = event then h.entries name ++ [s] else h.entries name := fun name =>
    file_under event name s h.topics
  have numbers : (filings (past ++ [.filed event s])).map (fun filing => filing.2.id) ++ drawn =
      past.filings.map (fun filing => filing.2.id) ++ s.id :: drawn := by
    rw [filings_next]
    simp [Mark.filing?]
  refine ⟨lawful_next past _ lawful fresh, ⟨file_filed event s h.topics filed, ?_, ?_, ?_, ?_⟩,
    owing_silent owed past _ (fun _ _ => by simp) (fun _ => rfl) owing⟩
  · intro name
    rw [under_after, filedUnder, filings_next]
    by_cases same : name = event
    · simpa [same, Mark.filing?, filedUnder] using order event
    · simpa [same, Ne.symm same, Mark.filing?, filedUnder] using order name
  · intro name t
    rw [under_after, standing_filed past event name s t lawful fresh, ← standing name t]
    by_cases same : name = event <;> simp [same]
  · rw [numbers]
    exact distinct
  · rw [numbers]
    exact below

theorem off_kept (id : Nat) (kept : Kept h drawn owed past) :
    Kept (h.off id).1 drawn owed (past ++ [.off id (h.off id).2]) := by
  obtain ⟨lawful, stands, owing⟩ := kept
  have found := off_found h id stands.filed
  have under_after : ∀ name, (h.off id).1.entries name =
      (h.entries name).filter fun s => s.id ≠ id := fun name =>
    keeping_under (fun _ s => s.id ≠ id) h.topics name stands.filed
  have follows := off_follows h drawn past id stands
  have standing : ∀ name t, t ∈ (h.off id).1.entries name ↔
      Standing (past ++ [.off id (h.off id).2]) name t := by
    intro name t
    rw [under_after, standing_off, ← stands.standing name t, List.mem_filter]
    constructor
    · intro both
      exact ⟨both.1, fun removed => by simp [removed.2] at both⟩
    · intro both
      refine ⟨both.1, decide_eq_true fun same => both.2 ⟨?_, same⟩⟩
      exact found.mpr ⟨name, t, both.1, same⟩
  refine ⟨lawful_next past _ lawful follows, ?_,
    owing_silent owed past _ (fun _ _ => by simp) (fun _ => rfl) owing⟩
  apply stands_unfiled h (h.off id).1 drawn past _ rfl rfl _ _ standing stands
  · exact keeping_filed (fun _ s => s.id ≠ id) h.topics stands.filed
  · exact fun name => under_after name ▸ List.filter_sublist

theorem take_kept (event : String) (kept : Kept h drawn owed past) :
    Kept (h.take event).1 drawn ((past.length, h.entries event) :: owed)
      (past ++ [.taken event (h.entries event)]) := by
  obtain ⟨lawful, stands, owing⟩ := kept
  have under_after : ∀ name, (h.take event).1.entries name =
      (h.entries name).filter fun s => name ≠ event || !s.once := fun name =>
    keeping_under (fun name s => name ≠ event || !s.once) h.topics name stands.filed
  have follows := taken_follows h drawn past event stands
  have standing : ∀ name t, t ∈ (h.take event).1.entries name ↔
      Standing (past ++ [.taken event (h.entries event)]) name t := by
    intro name t
    rw [under_after, standing_taken, ← stands.standing name t, List.mem_filter]
    by_cases same : name = event
    · by_cases once : t.once = true
      · simp [same, once]
      · simp [same, once]
    · simp [same]
  refine ⟨lawful_next past _ lawful follows, ?_, owing_taken owed past event _ lawful owing⟩
  apply stands_unfiled h (h.take event).1 drawn past _ rfl rfl _ _ standing stands
  · exact keeping_filed (fun name s => name ≠ event || !s.once) h.topics stands.filed
  · exact fun name => under_after name ▸ List.filter_sublist

theorem call_kept (n : Nat) (s : Entry κ) (left : List (Entry κ))
    (kept : Kept h drawn ((n, s :: left) :: owed) past) :
    Kept h drawn ((n, left) :: owed) (past ++ [.called n s]) := by
  obtain ⟨lawful, stands, owing⟩ := kept
  have follows := called_follows owed past n s left owing
  have standing : ∀ name t, t ∈ h.entries name ↔ Standing (past ++ [.called n s]) name t :=
    fun name t => (stands.standing name t).trans (standing_called past n s name t).symm
  exact ⟨lawful_next past _ lawful follows,
    stands_unfiled h h drawn past _ rfl rfl stands.filed (fun _ => List.Sublist.refl _) standing stands,
    owing_called owed past n s left owing⟩

theorem finish_kept (n : Nat) (kept : Kept h drawn ((n, []) :: owed) past) : Kept h drawn owed past where
  lawful := kept.lawful
  stands := kept.stands
  owing := by
    obtain ⟨emissions, owes, settled⟩ := kept.owing
    refine ⟨(List.nodup_cons.mp emissions).2, ?_, ?_⟩
    · exact fun m left member => owes m left (List.mem_cons_of_mem _ member)
    · intro m event entries taken
      rcases settled m event entries taken with already | ⟨left, member⟩
      · exact .inl already
      · rcases List.mem_cons.mp member with last | still
        · cases last
          obtain ⟨_, _, again, calls⟩ := owes n [] List.mem_cons_self
          rw [taken] at again
          cases again
          exact .inl (by simpa using calls)
        · exact .inr ⟨left, still⟩

end Sections

def Task.drawn? : Task κ σ → Option Nat
  | .file _ s _ => some s.id
  | _ => none

def Task.owed? : Task κ σ → Option (Nat × List (Entry κ))
  | .call n left _ => some (n, left)
  | _ => none

abbrev KeptBy (h : Hub κ) (tasks : List (Task κ σ)) (past : Chronicle κ) : Prop :=
  Kept h (tasks.filterMap Task.drawn?) (tasks.filterMap Task.owed?) past

theorem kept_unmarked (h : Hub κ) (drawn : List Nat) (owed : List (Nat × List (Entry κ)))
    (past : Chronicle κ) (kept : Kept h drawn owed past) : Kept h drawn owed (past ++ []) := by
  rwa [List.append_nil]

section Stride

variable (behave : κ → Value → Program (interface κ) σ) (h : Hub κ) (user : σ)
  (rest : List (Task κ σ)) (past : Chronicle κ)

theorem asked_kept (op : Op κ) (next : Answer → Program (interface κ) σ) (kept : KeptBy h rest past) :
    let made := h.asked user past.length next op
    KeptBy made.hub (made.tasks ++ rest) (past ++ made.marks) := by
  cases op with
  | add event once listener => exact kept_unmarked _ _ _ past (draw_kept h _ _ past kept)
  | off id => exact off_kept h _ _ past id kept
  | emit event params => exact take_kept h _ _ past event kept
  | route domain message =>
    cases meant : message.eventFor? domain with
    | some event =>
      simp only [asked, meant]
      exact take_kept h _ _ past event kept
    | none =>
      simp only [asked, meant]
      exact kept_unmarked h _ _ past kept
  | count event => exact kept_unmarked h _ _ past kept
  | describe => exact kept_unmarked h _ _ past kept

theorem stride_kept (task : Task κ σ) (kept : KeptBy h (task :: rest) past) :
    let made := h.stride behave user past.length task
    KeptBy made.hub (made.tasks ++ rest) (past ++ made.marks) := by
  cases task with
  | run program =>
    cases program with
    | done => exact kept_unmarked h _ _ past kept
    | look next => exact kept_unmarked h _ _ past kept
    | store user next => exact kept_unmarked h _ _ past kept
    | ask op next => exact asked_kept h user rest past op next kept
  | file event s next => exact insert_kept h _ _ past event s kept
  | call n left params =>
    cases left with
    | nil => exact kept_unmarked h _ _ past (finish_kept h _ _ past n kept)
    | cons s left => exact call_kept h _ _ past n s left kept

theorem asked_moves (op : Op κ) (next : Answer → Program (interface κ) σ) (drawn : List Nat)
    (stands : Stands h drawn past) :
    let made := h.asked user past.length next op
    Moves behave past user (.run (.ask op next)) made.user made.tasks made.marks := by
  have counted : ∀ event, (h.take event).2.length = (h.entries event).length := fun event =>
    List.length_map Entry.listener
  cases op with
  | add event once listener =>
    refine .add fun name s member => Nat.ne_of_lt (stands.below s.id (List.mem_append_left _ ?_))
    exact List.mem_map.mpr ⟨(name, s), (filed_filings past name s).mp member, rfl⟩
  | off id => exact .off (off_follows h drawn past id stands)
  | emit event params =>
    simp only [asked, snapshot, counted]
    exact .emit (taken_follows h drawn past event stands)
  | route domain message =>
    cases meant : message.eventFor? domain with
    | some event =>
      simp only [asked, meant, snapshot, counted]
      exact .route meant (taken_follows h drawn past event stands)
    | none =>
      simp only [asked, meant]
      exact .ignore meant
  | count event => exact .count (taken_follows h drawn past event stands)
  | describe => exact .describe

theorem stride_moves (task : Task κ σ) (kept : KeptBy h (task :: rest) past) :
    let made := h.stride behave user past.length task
    Moves behave past user task made.user made.tasks made.marks := by
  cases task with
  | run program =>
    cases program with
    | done => exact .done
    | look next => exact .look
    | store stored next => exact .store
    | ask op next => exact asked_moves behave h user past op next _ kept.stands
  | file event s next => exact .file (filed_follows h _ past event s kept.stands)
  | call n left params =>
    cases left with
    | nil => exact .calledAll
    | cons s left => exact .call (called_follows _ past n s left kept.owing)

end Stride

namespace Callers

variable (behave : κ → Value → Program (interface κ) σ)

def Good (c : Callers κ σ) : Prop := KeptBy c.hub c.tasks.flatten c.chronicle

theorem step_cases (c : Callers κ σ) (who : Nat) :
    (∃ task rest, c.tasks[who]? = some (task :: rest) ∧ c.step behave who =
      let made := c.hub.stride behave c.user c.chronicle.length task
      ⟨made.hub, made.user, c.tasks.set who (made.tasks ++ rest), c.chronicle ++ made.marks⟩) ∨
    ((∀ task rest, c.tasks[who]? ≠ some (task :: rest)) ∧ c.step behave who = c) := by
  unfold step
  split
  · exact .inl ⟨_, _, ‹_›, rfl⟩
  · exact .inr ⟨‹_›, rfl⟩

theorem front_kept (c : Callers κ σ) (who : Nat) (task : Task κ σ) (rest : List (Task κ σ))
    (front : c.tasks[who]? = some (task :: rest)) (good : c.Good) :
    KeptBy c.hub (task :: (rest ++ (c.tasks.eraseIdx who).flatten)) c.chronicle := by
  obtain ⟨within, mine⟩ := List.getElem?_eq_some_iff.mp front
  have before := (List.getElem_cons_eraseIdx_perm within).symm.flatten
  rw [mine] at before
  exact kept_perm _ _ _ _ _ _ (before.filterMap _) (before.filterMap _) good

theorem step_good (c : Callers κ σ) (who : Nat) (good : c.Good) : (c.step behave who).Good := by
  rcases step_cases behave c who with ⟨task, rest, front, stepped⟩ | ⟨_, stepped⟩ <;> rw [stepped]
  · have within : who < c.tasks.length := (List.getElem?_eq_some_iff.mp front).1
    have kept := stride_kept behave c.hub c.user _ c.chronicle task (front_kept c who task rest front good)
    have after := (List.set_perm_cons_eraseIdx within
      ((c.hub.stride behave c.user c.chronicle.length task).tasks ++ rest)).symm.flatten
    rw [List.flatten_cons, List.append_assoc] at after
    exact kept_perm _ _ _ _ _ _ (after.filterMap _) (after.filterMap _) kept
  · exact good

theorem start_good (user : σ) (programs : List (Program (interface κ) σ)) :
    (start user programs).Good := by
  have runs : (start user programs).tasks.flatten = programs.map Task.run := by
    rw [start, ← List.flatMap_def, List.map_eq_flatMap]
  have nothing_drawn : (programs.map (Task.run (κ := κ) (σ := σ))).filterMap Task.drawn? = [] := by
    simp [Task.drawn?]
  have nothing_owed : (programs.map (Task.run (κ := κ) (σ := σ))).filterMap Task.owed? = [] := by
    simp [Task.owed?]
  unfold Good
  rw [runs, KeptBy, nothing_drawn, nothing_owed]
  exact empty_kept

theorem step_interleaved (user : σ) (programs : List (Program (interface κ) σ)) (schedule : List Nat)
    (c : Callers κ σ) (who : Nat) (good : c.Good)
    (before : Interleaved behave user programs schedule c.user c.tasks c.chronicle) :
    Interleaved behave user programs (schedule ++ [who]) (c.step behave who).user
      (c.step behave who).tasks (c.step behave who).chronicle := by
  rcases step_cases behave c who with ⟨task, rest, front, stepped⟩ | ⟨nothing, stepped⟩ <;> rw [stepped]
  · exact before.step front
      (stride_moves behave c.hub c.user _ c.chronicle task (front_kept c who task rest front good))
  · exact before.idle nothing

theorem run_interleaved (user : σ) (programs : List (Program (interface κ) σ)) (schedule : List Nat) :
    let last := (start user programs).run behave schedule
    last.Good ∧ Interleaved behave user programs schedule last.user last.tasks last.chronicle := by
  induction schedule using List.reverseRecOn with
  | nil => exact ⟨start_good user programs, .start⟩
  | append_singleton schedule who ih =>
    obtain ⟨good, before⟩ := ih
    rw [run, List.foldl_concat]
    exact ⟨step_good behave _ who good, step_interleaved behave user programs schedule _ who good before⟩

theorem idle_settled (c : Callers κ σ) (good : c.Good) (idle : c.isIdle = true) (n : Nat)
    (event : String) (entries : List (Entry κ))
    (taken : c.chronicle[n]? = some (.taken event entries)) : callsOf n c.chronicle = entries := by
  have nothing : c.tasks.flatten = [] := by
    apply List.flatten_eq_nil_iff.mpr
    intro tasks member
    exact List.isEmpty_iff.mp (List.all_eq_true.mp idle tasks member)
  rcases good.owing.settled n event entries taken with already | ⟨left, owed⟩
  · exact already
  · rw [nothing] at owed
    cases owed

theorem interleavings_orderly (user : σ) (programs : List (Program (interface κ) σ))
    (schedule : List Nat) :
    let last := (start user programs).run behave schedule
    Interleaved behave user programs schedule last.user last.tasks last.chronicle ∧
      (∀ event s, s ∈ last.hub.entries event ↔ last.chronicle.Standing event s) ∧
      last.chronicle.Orderly ∧
      (last.isIdle = true → ∀ (n : Nat) (event : String) (entries : List (Entry κ)),
        last.chronicle[n]? = some (.taken event entries) → callsOf n last.chronicle = entries) := by
  intro last
  obtain ⟨good, interleaved⟩ := run_interleaved behave user programs schedule
  exact ⟨interleaved, good.stands.standing, lawful_orderly last.chronicle good.lawful,
    idle_settled last good⟩

-- Two overlapping emissions: the second one finds the listener gone, though it is not called yet.
example :
    let emission : Program (interface Unit) Unit := .ask (.emit "e" .null) fun _ => .done
    let programs := [.ask (.add "e" true ()) fun _ => .done, emission, emission]
    ((start () programs).run (fun _ _ => .done) [0, 0, 1, 2, 2, 1]).chronicle =
      [.filed "e" ⟨0, true, ()⟩, .taken "e" [⟨0, true, ()⟩], .taken "e" [],
        .called 1 ⟨0, true, ()⟩] := by
  decide

end Callers

end ProtocolStubs.Hub
