import Mathlib.Data.List.Nodup
import ProtocolStubs.Session.Hub

set_option autoImplicit false

namespace ProtocolStubs.Hub

variable {κ : Type}

-- An emission is known by the place of its snapshot in the chronicle.
inductive Mark (κ : Type) where
  | filed (event : String) (entry : Entry κ)
  | off (id : Nat) (was : Bool)
  | taken (event : String) (entries : List (Entry κ))
  | called (emission : Nat) (entry : Entry κ)
deriving DecidableEq, Repr

abbrev Chronicle (κ : Type) := List (Mark κ)

def Mark.filing? : Mark κ → Option (String × Entry κ)
  | .filed event s => some (event, s)
  | _ => none

def Mark.call? (emission : Nat) : Mark κ → Option (Entry κ)
  | .called n s => if n = emission then some s else none
  | _ => none

theorem call_mark (n : Nat) (mark : Mark κ) (s : Entry κ) (calls : mark.call? n = some s) :
    mark = .called n s := by
  cases mark with
  | filed event t => cases calls
  | off id was => cases calls
  | taken event entries => cases calls
  | called m t =>
    by_cases same : m = n
    · rw [Mark.call?, if_pos same] at calls
      cases calls
      rw [same]
    · rw [Mark.call?, if_neg same] at calls
      cases calls

namespace Chronicle

def filings (past : Chronicle κ) : List (String × Entry κ) := past.filterMap Mark.filing?

def filedUnder (event : String) (past : Chronicle κ) : List (Entry κ) :=
  (past.filings.filter fun filing => filing.1 = event).map Prod.snd

def callsOf (emission : Nat) (past : Chronicle κ) : List (Entry κ) :=
  past.filterMap (Mark.call? emission)

theorem calls_next (n : Nat) (past : Chronicle κ) (mark : Mark κ) :
    callsOf n (past ++ [mark]) = callsOf n past ++ (mark.call? n).toList := by
  rw [callsOf, List.filterMap_append]
  cases calls : mark.call? n <;> simp [callsOf, calls]

-- A subscription that was filed for the event, and neither removed nor used up since.
structure Standing (past : Chronicle κ) (event : String) (s : Entry κ) : Prop where
  filed : .filed event s ∈ past
  kept : .off s.id true ∉ past
  unused : s.once = true → ∀ entries, .taken event entries ∈ past → s ∉ entries

def Follows (past : Chronicle κ) : Mark κ → Prop
  | .filed _ s => ∀ event t, .filed event t ∈ past → t.id ≠ s.id
  | .off id was => was = true ↔ ∃ event s, past.Standing event s ∧ s.id = id
  | .taken event entries =>
    (entries.map Entry.id).Nodup ∧ entries.Sublist (past.filedUnder event) ∧
      ∀ s, s ∈ entries ↔ past.Standing event s
  | .called n s => ∃ event entries, past[n]? = some (.taken event entries) ∧
      callsOf n past ++ [s] <+: entries

def Lawful (past : Chronicle κ) : Prop := ∀ n mark, past[n]? = some mark → Follows (past.take n) mark

theorem lawful_nil : Lawful ([] : Chronicle κ) := fun _ _ impossible => by cases impossible

theorem lawful_next (past : Chronicle κ) (mark : Mark κ) (lawful : Lawful past)
    (follows : Follows past mark) : Lawful (past ++ [mark]) := by
  intro n other stands
  rcases Nat.lt_trichotomy n past.length with early | same | late
  · rw [List.getElem?_append_left early] at stands
    rw [List.take_append_of_le_length (Nat.le_of_lt early)]
    exact lawful n other stands
  · subst same
    rw [List.getElem?_concat_length] at stands
    cases stands
    rw [List.take_left' rfl]
    exact follows
  · have none_there : (past ++ [mark])[n]? = none := List.getElem?_eq_none (by simp; omega)
    rw [none_there] at stands
    cases stands

theorem place_earlier (past : Chronicle κ) (i n : Nat) (mark : Mark κ)
    (stands : (past.take n)[i]? = some mark) : i < n ∧ past[i]? = some mark := by
  rw [List.getElem?_take] at stands
  split at stands
  · exact ⟨‹_›, stands⟩
  · cases stands

theorem mem_take_iff (past : Chronicle κ) (n : Nat) (mark : Mark κ) :
    mark ∈ past.take n ↔ ∃ i, i < n ∧ past[i]? = some mark := by
  rw [List.mem_iff_getElem?]
  constructor
  · intro given
    obtain ⟨i, stands⟩ := given
    exact ⟨i, place_earlier past i n mark stands⟩
  · intro given
    obtain ⟨i, before, stands⟩ := given
    exact ⟨i, by rw [List.getElem?_take, if_pos before, stands]⟩

-- Of two places of marks that exclude each other one would be earlier.
theorem only_place (past : Chronicle κ) (here : Mark κ → Prop)
    (excluded : ∀ n mark before, past[n]? = some mark → here mark → before ∈ past.take n →
      ¬here before)
    (i j : Nat) (one two : Mark κ) (first : past[i]? = some one) (second : past[j]? = some two)
    (hereOne : here one) (hereTwo : here two) : i = j := by
  rcases Nat.lt_trichotomy i j with early | same | late
  · exact absurd hereOne
      (excluded j two one second hereTwo ((mem_take_iff past j one).mpr ⟨i, early, first⟩))
  · exact same
  · exact absurd hereTwo
      (excluded i one two first hereOne ((mem_take_iff past i two).mpr ⟨j, late, second⟩))

section Lawful

variable (past : Chronicle κ) (lawful : Lawful past)
include lawful

theorem filed_once (i j : Nat) (event name : String) (s t : Entry κ)
    (first : past[i]? = some (.filed event s)) (second : past[j]? = some (.filed name t))
    (same : s.id = t.id) : i = j := by
  refine only_place past (fun mark => ∃ event u, mark = .filed event u ∧ u.id = s.id) ?_ i j _ _ first
    second ⟨event, s, rfl, rfl⟩ ⟨name, t, rfl, same.symm⟩
  intro n mark former stands isHere before wasHere
  obtain ⟨_, u, rfl, sameId⟩ := isHere
  obtain ⟨other, v, rfl, alsoId⟩ := wasHere
  exact lawful n _ stands other v before (alsoId.trans sameId.symm)

theorem filed_same (i j : Nat) (event name : String) (s : Entry κ)
    (first : past[i]? = some (.filed event s)) (second : past[j]? = some (.filed name s)) :
    i = j ∧ event = name := by
  obtain rfl := filed_once past lawful i j event name s s first second rfl
  rw [first] at second
  cases second
  exact ⟨rfl, rfl⟩

theorem removed_once (i j id : Nat) (first : past[i]? = some (.off id true))
    (second : past[j]? = some (.off id true)) : i = j := by
  refine only_place past (fun mark => mark = .off id true) ?_ i j _ _ first second rfl rfl
  intro n mark former stands isHere before wasHere
  subst isHere wasHere
  obtain ⟨_, s, standing, rfl⟩ := (lawful n _ stands).mp rfl
  exact standing.kept before

theorem standing_places (f n : Nat) (event : String) (s : Entry κ)
    (filed : past[f]? = some (.filed event s)) (name : String) :
    Standing (past.take n) name s ↔ name = event ∧ f < n ∧
      (∀ r, r < n → past[r]? ≠ some (.off s.id true)) ∧
      (s.once = true → ∀ m, f < m → m < n → ∀ others, past[m]? ≠ some (.taken event others)) := by
  constructor
  · intro standing
    obtain ⟨g, before, stands⟩ := (mem_take_iff past n _).mp standing.filed
    obtain ⟨rfl, rfl⟩ := filed_same past lawful f g event name s filed stands
    have kept : ∀ r, r < n → past[r]? ≠ some (.off s.id true) :=
      fun r sooner removed => standing.kept ((mem_take_iff past n _).mpr ⟨r, sooner, removed⟩)
    refine ⟨rfl, before, kept, fun once m after sooner others taken => ?_⟩
    have unused : s ∉ others :=
      standing.unused once others ((mem_take_iff past n _).mpr ⟨m, sooner, taken⟩)
    refine unused (((lawful m _ taken).2.2 s).mpr ⟨?_, ?_, ?_⟩)
    · exact (mem_take_iff past m _).mpr ⟨f, after, filed⟩
    · intro removed
      obtain ⟨r, earlierStill, off⟩ := (mem_take_iff past m _).mp removed
      exact kept r (Nat.lt_trans earlierStill sooner) off
    · intro _ entries former
      obtain ⟨k, earlierStill, other⟩ := (mem_take_iff past m _).mp former
      exact standing.unused once entries
        ((mem_take_iff past n _).mpr ⟨k, Nat.lt_trans earlierStill sooner, other⟩)
  · intro given
    obtain ⟨rfl, before, kept, fresh⟩ := given
    refine ⟨(mem_take_iff past n _).mpr ⟨f, before, filed⟩, ?_, ?_⟩
    · intro removed
      obtain ⟨r, sooner, off⟩ := (mem_take_iff past n _).mp removed
      exact kept r sooner off
    · intro once entries former member
      obtain ⟨m, sooner, taken⟩ := (mem_take_iff past n _).mp former
      have stood : Standing (past.take m) name s := ((lawful m _ taken).2.2 s).mp member
      obtain ⟨g, after, stands⟩ := (mem_take_iff past m _).mp stood.filed
      obtain ⟨rfl, _⟩ := filed_same past lawful f g name name s filed stands
      exact fresh once m after sooner entries taken

theorem taken_filed (n : Nat) (event : String) (entries : List (Entry κ)) (s : Entry κ)
    (taken : past[n]? = some (.taken event entries)) (member : s ∈ entries) :
    ∃ f, f < n ∧ past[f]? = some (.filed event s) :=
  (mem_take_iff past n _).mp (((lawful n _ taken).2.2 s).mp member).filed

theorem taken_once (i j : Nat) (event name : String) (entries others : List (Entry κ)) (s : Entry κ)
    (once : s.once = true) (first : past[i]? = some (.taken event entries))
    (second : past[j]? = some (.taken name others)) (inFirst : s ∈ entries) (inSecond : s ∈ others) :
    i = j := by
  refine only_place past (fun mark => ∃ event entries, mark = .taken event entries ∧ s ∈ entries) ?_
    i j _ _ first second ⟨event, entries, rfl, inFirst⟩ ⟨name, others, rfl, inSecond⟩
  intro n mark former stands isHere before wasHere
  obtain ⟨event, entries, rfl, member⟩ := isHere
  obtain ⟨name, others, rfl, already⟩ := wasHere
  obtain ⟨m, sooner, former⟩ := (mem_take_iff past n _).mp before
  obtain ⟨f, _, filed⟩ := taken_filed past lawful n event entries s stands member
  obtain ⟨g, _, stood⟩ := taken_filed past lawful m name others s former already
  obtain ⟨_, rfl⟩ := filed_same past lawful f g event name s filed stood
  exact (((lawful n _ stands).2.2 s).mp member).unused once others before already

theorem called_taken (i n : Nat) (s : Entry κ) (called : past[i]? = some (.called n s)) :
    n < i ∧ ∃ event entries, past[n]? = some (.taken event entries) ∧ s ∈ entries := by
  obtain ⟨event, entries, taken, begun⟩ := lawful i _ called
  obtain ⟨sooner, stands⟩ := place_earlier past n i _ taken
  exact ⟨sooner, event, entries, stands, begun.subset (by simp)⟩

theorem called_once (i j m n : Nat) (s : Entry κ) (once : s.once = true)
    (first : past[i]? = some (.called m s)) (second : past[j]? = some (.called n s)) : i = j := by
  refine only_place past (fun mark => ∃ n, mark = .called n s) ?_ i j _ _ first second ⟨m, rfl⟩
    ⟨n, rfl⟩
  intro k mark former stands isHere before wasHere
  obtain ⟨n, rfl⟩ := isHere
  obtain ⟨m, rfl⟩ := wasHere
  obtain ⟨l, sooner, former⟩ := (mem_take_iff past k _).mp before
  obtain ⟨_, event, entries, taken, member⟩ := called_taken past lawful k n s stands
  obtain ⟨_, name, others, alsoTaken, inOthers⟩ := called_taken past lawful l m s former
  obtain rfl := taken_once past lawful n m event name entries others s once taken alsoTaken member
    inOthers
  -- Both calls belong to one emission, whose snapshot has the subscription a single time.
  obtain ⟨_, snapshot, again, begun⟩ := lawful k _ stands
  have there : s ∈ callsOf n (past.take k) :=
    List.mem_filterMap.mpr ⟨.called n s, before, if_pos rfl⟩
  have entries_once : snapshot.Nodup :=
    List.Nodup.of_map _ (lawful n _ (place_earlier past n k _ again).2).1
  have calls_once : (callsOf n (past.take k) ++ [s]).Nodup := entries_once.sublist begun.sublist
  exact (List.nodup_append.mp calls_once).2.2 s there s (List.mem_singleton_self s) rfl

theorem calls_begun (n : Nat) (event : String) (entries : List (Entry κ))
    (taken : past[n]? = some (.taken event entries)) : callsOf n past <+: entries := by
  -- Only the last call counts: it was made when all the others had been.
  have upTo : ∀ k, k ≤ past.length → callsOf n (past.take k) <+: entries := by
    intro k
    induction k with
    | zero => exact fun _ => List.nil_prefix
    | succ k ih =>
      intro within
      have stands : past[k]? = some past[k] := List.getElem?_eq_getElem within
      rw [List.take_succ_eq_append_getElem within, calls_next]
      cases calls : Mark.call? n past[k] with
      | none =>
        rw [Option.toList_none, List.append_nil]
        exact ih (Nat.le_of_lt within)
      | some s =>
        rw [call_mark n past[k] s calls] at stands
        obtain ⟨_, others, again, begun⟩ := lawful k _ stands
        have same := (place_earlier past n k _ again).2
        rw [taken] at same
        cases same
        exact begun
  have all := upTo past.length (Nat.le_refl _)
  rwa [List.take_length] at all

theorem removed_silent (r id : Nat) (removed : past[r]? = some (.off id true))
    (untaken : ∀ m, m < r → ∀ event entries, past[m]? = some (.taken event entries) →
      ∀ s ∈ entries, s.id ≠ id) (i n : Nat) (s : Entry κ) (called : past[i]? = some (.called n s)) :
    s.id ≠ id := by
  intro same
  subst same
  obtain ⟨_, event, entries, taken, member⟩ := called_taken past lawful i n s called
  rcases Nat.lt_trichotomy n r with sooner | same | later
  · exact untaken n sooner event entries taken s member rfl
  · rw [same, removed] at taken
    cases taken
  · have standing := ((lawful n _ taken).2.2 s).mp member
    exact standing.kept ((mem_take_iff past n _).mpr ⟨r, later, removed⟩)

end Lawful

-- Between its filing and its removal a subscription is in every snapshot of its event if it is permanent,
-- else in the first one; it is in no other, and calls follow the snapshots.
structure Orderly (past : Chronicle κ) : Prop where
  numbers : ∀ (i j : Nat) (event name : String) (s t : Entry κ), past[i]? = some (.filed event s) →
    past[j]? = some (.filed name t) → s.id = t.id → i = j
  snapshot : ∀ (n : Nat) (event : String) (entries : List (Entry κ)),
    past[n]? = some (.taken event entries) →
      (entries.map Entry.id).Nodup ∧ entries.Sublist (filedUnder event (past.take n))
  permanent : ∀ (f : Nat) (event : String) (s : Entry κ), past[f]? = some (.filed event s) →
    s.once = false → ∀ (n : Nat) (name : String) (entries : List (Entry κ)),
      past[n]? = some (.taken name entries) →
        (s ∈ entries ↔ name = event ∧ f < n ∧ ∀ r, r < n → past[r]? ≠ some (.off s.id true))
  single : ∀ (f : Nat) (event : String) (s : Entry κ), past[f]? = some (.filed event s) →
    s.once = true → ∀ (n : Nat) (name : String) (entries : List (Entry κ)),
      past[n]? = some (.taken name entries) →
        (s ∈ entries ↔ name = event ∧ f < n ∧ (∀ r, r < n → past[r]? ≠ some (.off s.id true)) ∧
          ∀ m, f < m → m < n → ∀ others, past[m]? ≠ some (.taken event others))
  takenOnce : ∀ (i j : Nat) (event name : String) (entries others : List (Entry κ)) (s : Entry κ),
    s.once = true → past[i]? = some (.taken event entries) → past[j]? = some (.taken name others) →
      s ∈ entries → s ∈ others → i = j
  calledOnce : ∀ (i j m n : Nat) (s : Entry κ), s.once = true → past[i]? = some (.called m s) →
    past[j]? = some (.called n s) → i = j
  calls : ∀ (n : Nat) (event : String) (entries : List (Entry κ)),
    past[n]? = some (.taken event entries) → callsOf n past <+: entries
  called : ∀ (i n : Nat) (s : Entry κ), past[i]? = some (.called n s) →
    n < i ∧ ∃ event entries, past[n]? = some (.taken event entries) ∧ s ∈ entries
  removes : ∀ (n id : Nat) (was : Bool), past[n]? = some (.off id was) →
    (was = true ↔ ∃ (f : Nat) (event : String) (s : Entry κ), past[f]? = some (.filed event s) ∧
      s.id = id ∧ f < n ∧ (∀ r, r < n → past[r]? ≠ some (.off id true)) ∧
      (s.once = true → ∀ m, f < m → m < n → ∀ others, past[m]? ≠ some (.taken event others)))
  removedOnce : ∀ (i j id : Nat), past[i]? = some (.off id true) →
    past[j]? = some (.off id true) → i = j
  silenced : ∀ (r id : Nat), past[r]? = some (.off id true) →
    (∀ m, m < r → ∀ (event : String) (entries : List (Entry κ)),
      past[m]? = some (.taken event entries) → ∀ s ∈ entries, s.id ≠ id) →
    ∀ (i n : Nat) (s : Entry κ), past[i]? = some (.called n s) → s.id ≠ id

theorem lawful_orderly (past : Chronicle κ) (lawful : Lawful past) : Orderly past where
  numbers := filed_once past lawful
  snapshot := fun n _ _ taken => ⟨(lawful n _ taken).1, (lawful n _ taken).2.1⟩
  permanent := by
    intro f event s filed always n name entries taken
    have places := ((lawful n _ taken).2.2 s).trans
      (standing_places past lawful f n event s filed name)
    constructor
    · intro member
      obtain ⟨same, after, kept, _⟩ := places.mp member
      exact ⟨same, after, kept⟩
    · intro given
      obtain ⟨same, after, kept⟩ := given
      refine places.mpr ⟨same, after, kept, fun once => ?_⟩
      rw [always] at once
      cases once
  single := by
    intro f event s filed once n name entries taken
    have places := ((lawful n _ taken).2.2 s).trans
      (standing_places past lawful f n event s filed name)
    constructor
    · intro member
      obtain ⟨same, after, kept, first⟩ := places.mp member
      exact ⟨same, after, kept, first once⟩
    · intro given
      obtain ⟨same, after, kept, first⟩ := given
      exact places.mpr ⟨same, after, kept, fun _ => first⟩
  takenOnce := taken_once past lawful
  calledOnce := called_once past lawful
  calls := calls_begun past lawful
  called := called_taken past lawful
  removes := by
    intro n id was off
    refine (lawful n _ off).trans ⟨?_, ?_⟩
    · intro given
      obtain ⟨event, s, standing, rfl⟩ := given
      obtain ⟨f, _, filed⟩ := (mem_take_iff past n _).mp standing.filed
      obtain ⟨_, places⟩ := (standing_places past lawful f n event s filed event).mp standing
      exact ⟨f, event, s, filed, rfl, places⟩
    · intro given
      obtain ⟨f, event, s, filed, rfl, places⟩ := given
      exact ⟨event, s, (standing_places past lawful f n event s filed event).mpr ⟨rfl, places⟩, rfl⟩
  removedOnce := removed_once past lawful
  silenced := removed_silent past lawful

end Chronicle

end ProtocolStubs.Hub
