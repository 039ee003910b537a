import ProtocolStubs.Proofs.Hub.Log
import ProtocolStubs.Session.Operations

set_option autoImplicit false

namespace ProtocolStubs.Session

variable {κ : Type}

-- The holdings name a hub once for every holder it has: its client, and each delivery that is still
-- calling its listeners. A hub is there exactly as long as the holdings name it.
structure Held (hubs : List (HeldHub κ)) (next : Nat) (holdings : List Nat) : Prop where
  keys : (hubs.map HeldHub.key).Nodup
  below : ∀ held ∈ hubs, held.key < next
  counted : ∀ held ∈ hubs, held.holders = holdings.count held.key
  occupied : ∀ held ∈ hubs, held.holders ≠ 0
  kept : ∀ key ∈ holdings, key ∈ hubs.map HeldHub.key
  logged : ∀ held ∈ hubs, ∃ log, held.hub.Reads log

theorem held_perm (hubs : List (HeldHub κ)) (next : Nat) (holdings others : List Nat)
    (same : holdings.Perm others) (held : Held hubs next holdings) : Held hubs next others where
  keys := held.keys
  below := held.below
  counted := fun one member => by rw [held.counted one member, same.count_eq]
  occupied := held.occupied
  kept := fun key named => held.kept key (same.mem_iff.mpr named)
  logged := held.logged

theorem held_start : Held ([] : List (HeldHub κ)) 0 [] where
  keys := List.nodup_nil
  below := by simp
  counted := by simp
  occupied := by simp
  kept := by simp
  logged := by simp

theorem held_below (hubs : List (HeldHub κ)) (next key : Nat) (holdings : List Nat)
    (held : Held hubs next holdings) (named : key ∈ holdings) : key < next := by
  obtain ⟨one, member, rfl⟩ := List.mem_map.mp (held.kept key named)
  exact held.below one member

theorem held_new (hubs : List (HeldHub κ)) (next : Nat) (holdings : List Nat)
    (held : Held hubs next holdings) :
    Held (hubs ++ [⟨next, 1, .empty⟩]) (next + 1) (next :: holdings) where
  keys := by
    rw [List.map_append, List.nodup_append]
    refine ⟨held.keys, List.nodup_singleton next, ?_⟩
    intro key old fresh isFresh
    obtain ⟨one, member, rfl⟩ := List.mem_map.mp old
    rw [List.mem_singleton.mp isFresh]
    exact Nat.ne_of_lt (held.below one member)
  below := by
    intro one member
    rcases List.mem_append.mp member with old | fresh
    · exact Nat.lt_succ_of_lt (held.below one old)
    · rw [List.mem_singleton.mp fresh]
      exact Nat.lt_succ_self next
  counted := by
    intro one member
    rcases List.mem_append.mp member with old | fresh
    · have other : next ≠ one.key := Nat.ne_of_gt (held.below one old)
      rw [List.count_cons_of_ne other]
      exact held.counted one old
    · have unnamed : next ∉ holdings := fun named =>
        Nat.lt_irrefl next (held_below hubs next next holdings held named)
      rw [List.mem_singleton.mp fresh, List.count_cons_self, List.count_eq_zero.mpr unnamed]
  occupied := by
    intro one member
    rcases List.mem_append.mp member with old | fresh
    · exact held.occupied one old
    · rw [List.mem_singleton.mp fresh]
      exact Nat.one_ne_zero
  kept := by
    intro key named
    rw [List.map_append, List.mem_append]
    rcases List.mem_cons.mp named with fresh | old
    · exact .inr (fresh ▸ List.mem_singleton.mpr rfl)
    · exact .inl (held.kept key old)
  logged := by
    intro one member
    rcases List.mem_append.mp member with old | fresh
    · exact held.logged one old
    · rw [List.mem_singleton.mp fresh]
      exact ⟨.empty, Hub.empty_reads⟩

theorem on_hub_keys (s : Session κ) (key : Nat) (change : HeldHub κ → HeldHub κ)
    (sameKey : ∀ held, (change held).key = held.key) :
    (s.onHub key change).hubs.map HeldHub.key = s.hubs.map HeldHub.key := by
  rw [onHub, List.map_map]
  apply List.map_congr_left
  intro held _
  by_cases hit : held.key = key <;> simp [hit, sameKey]

theorem on_hub_held (s : Session κ) (key : Nat) (change : HeldHub κ → HeldHub κ)
    (holdings others : List Nat) (held : Held s.hubs s.nextHub holdings)
    (sameKey : ∀ one, (change one).key = one.key)
    (changed : ∀ one ∈ s.hubs, one.key = key → (change one).holders = others.count key ∧
      (change one).holders ≠ 0 ∧ ∃ log, (change one).hub.Reads log)
    (unchanged : ∀ other, other ≠ key → others.count other = holdings.count other)
    (named : ∀ other ∈ others, other ∈ holdings) :
    Held (s.onHub key change).hubs s.nextHub others := by
  have keys := on_hub_keys s key change sameKey
  have from_old : ∀ one ∈ (s.onHub key change).hubs, ∃ old ∈ s.hubs, one.key = old.key ∧
      (old.key = key ∧ one = change old ∨ old.key ≠ key ∧ one = old) := by
    intro one member
    obtain ⟨old, stood, rfl⟩ := List.mem_map.mp member
    refine ⟨old, stood, ?_⟩
    by_cases hit : old.key = key <;> simp [hit, sameKey]
  refine ⟨keys ▸ held.keys, ?_, ?_, ?_, ?_, ?_⟩
  · intro one member
    obtain ⟨old, stood, same, _⟩ := from_old one member
    exact same ▸ held.below old stood
  · intro one member
    obtain ⟨old, stood, same, ⟨hit, rfl⟩ | ⟨missed, rfl⟩⟩ := from_old one member
    · rw [same, hit]
      exact (changed old stood hit).1
    · rw [unchanged one.key missed]
      exact held.counted one stood
  · intro one member
    obtain ⟨old, stood, _, ⟨hit, rfl⟩ | ⟨_, rfl⟩⟩ := from_old one member
    · exact (changed old stood hit).2.1
    · exact held.occupied one stood
  · intro other again
    exact keys ▸ held.kept other (named other again)
  · intro one member
    obtain ⟨old, stood, _, ⟨hit, rfl⟩ | ⟨_, rfl⟩⟩ := from_old one member
    · exact (changed old stood hit).2.2
    · exact held.logged one stood

theorem set_hub_held (s : Session κ) (key : Nat) (hub : Hub κ) (holdings : List Nat)
    (logged : ∃ log, hub.Reads log) (held : Held s.hubs s.nextHub holdings) :
    Held (s.setHub key hub).hubs (s.setHub key hub).nextHub holdings := by
  apply on_hub_held s key (fun one => { one with hub := hub }) holdings holdings held
  · exact fun _ => rfl
  · intro one stood hit
    exact ⟨hit ▸ held.counted one stood, held.occupied one stood, logged⟩
  · exact fun _ _ => rfl
  · exact fun _ named => named

theorem hold_held (s : Session κ) (key : Nat) (holdings : List Nat) (named : key ∈ holdings)
    (held : Held s.hubs s.nextHub holdings) :
    Held (s.hold key).hubs (s.hold key).nextHub (key :: holdings) := by
  apply on_hub_held s key (fun one => { one with holders := one.holders + 1 }) holdings _ held
  · exact fun _ => rfl
  · intro one stood hit
    refine ⟨?_, Nat.succ_ne_zero one.holders, held.logged one stood⟩
    rw [List.count_cons_self, ← hit, ← held.counted one stood]
  · exact fun other different => List.count_cons_of_ne (Ne.symm different)
  · exact List.forall_mem_cons.mpr ⟨named, fun _ old => old⟩

def loosed (key : Nat) (old : HeldHub κ) : HeldHub κ :=
  if old.key = key then { old with holders := old.holders - 1 } else old

theorem loosed_key (key : Nat) (old : HeldHub κ) : (loosed key old).key = old.key := by
  rw [loosed]
  split <;> rfl

theorem loosed_hub (key : Nat) (old : HeldHub κ) : (loosed key old).hub = old.hub := by
  rw [loosed]
  split <;> rfl

theorem loosed_counted (key : Nat) (holdings : List Nat) (old : HeldHub κ)
    (counted : old.holders = (key :: holdings).count old.key) :
    (loosed key old).holders = holdings.count old.key := by
  rw [loosed]
  split
  · rename_i hit
    rw [hit, List.count_cons_self] at counted
    rw [counted, hit, Nat.add_sub_cancel]
  · rename_i missed
    rwa [List.count_cons_of_ne (Ne.symm missed)] at counted

theorem mem_release (s : Session κ) (key : Nat) (one : HeldHub κ) :
    one ∈ (s.release key).hubs ↔ one.holders ≠ 0 ∧ ∃ old ∈ s.hubs, one = loosed key old := by
  simp only [release, onHub, List.mem_filter, List.mem_map, decide_eq_true_eq]
  constructor
  · rintro ⟨⟨old, stood, rfl⟩, occupied⟩
    exact ⟨occupied, old, stood, rfl⟩
  · rintro ⟨occupied, old, stood, rfl⟩
    exact ⟨⟨old, stood, rfl⟩, occupied⟩

theorem release_held (s : Session κ) (key : Nat) (holdings : List Nat)
    (held : Held s.hubs s.nextHub (key :: holdings)) :
    Held (s.release key).hubs (s.release key).nextHub holdings := by
  have counted := fun old stood => loosed_counted key holdings old (held.counted old stood)
  refine ⟨?_, ?_, ?_, ?_, ?_, ?_⟩
  · have keys := on_hub_keys s key (fun one => { one with holders := one.holders - 1 }) fun _ => rfl
    exact (keys ▸ held.keys).sublist (List.filter_sublist.map HeldHub.key)
  · intro one member
    obtain ⟨_, old, stood, rfl⟩ := (mem_release s key one).mp member
    exact loosed_key key old ▸ held.below old stood
  · intro one member
    obtain ⟨_, old, stood, rfl⟩ := (mem_release s key one).mp member
    exact loosed_key key old ▸ counted old stood
  · intro one member
    exact ((mem_release s key one).mp member).1
  · intro other named
    obtain ⟨old, stood, rfl⟩ := List.mem_map.mp (held.kept other (List.mem_cons_of_mem key named))
    refine List.mem_map.mpr ⟨_, (mem_release s key _).mpr ⟨?_, old, stood, rfl⟩, loosed_key key old⟩
    rw [counted old stood]
    exact Nat.ne_of_gt (List.count_pos_iff.mpr named)
  · intro one member
    obtain ⟨_, old, stood, rfl⟩ := (mem_release s key one).mp member
    exact loosed_hub key old ▸ held.logged old stood

theorem hub_iff (s : Session κ) (key : Nat) (hub : Hub κ) (keys : (s.hubs.map HeldHub.key).Nodup) :
    s.hub? key = some hub ↔ ∃ one ∈ s.hubs, one.key = key ∧ one.hub = hub := by
  rw [hub?, Option.map_eq_some_iff]
  constructor
  · rintro ⟨one, found, same⟩
    exact ⟨one, List.mem_of_find?_eq_some found,
      by simpa using List.find?_some found, same⟩
  · rintro ⟨one, member, same, sameHub⟩
    cases found : s.hubs.find? fun held => held.key == key with
    | none =>
      have missed := List.find?_eq_none.mp found one member
      exact absurd (beq_iff_eq.mpr same) missed
    | some other =>
      have otherKey : other.key = key := by simpa using List.find?_some found
      have sameOne : other = one := List.inj_on_of_nodup_map keys
        (List.mem_of_find?_eq_some found) member (otherKey.trans same.symm)
      exact ⟨other, rfl, sameOne ▸ sameHub⟩

theorem hub_named (s : Session κ) (key : Nat) (holdings : List Nat) (named : key ∈ holdings)
    (held : Held s.hubs s.nextHub holdings) :
    ∃ hub log, s.hub? key = some hub ∧ hub.Reads log := by
  obtain ⟨one, member, same⟩ := List.mem_map.mp (held.kept key named)
  obtain ⟨log, reads⟩ := held.logged one member
  exact ⟨one.hub, log, (hub_iff s key one.hub held.keys).mpr ⟨one, member, same, rfl⟩, reads⟩

theorem hub_unnamed (s : Session κ) (key : Nat) (holdings : List Nat) (unnamed : key ∉ holdings)
    (held : Held s.hubs s.nextHub holdings) : s.hub? key = none := by
  rw [Option.eq_none_iff_forall_ne_some]
  intro hub found
  obtain ⟨one, member, same, _⟩ := (hub_iff s key hub held.keys).mp found
  have counted := held.counted one member
  rw [same, List.count_eq_zero.mpr unnamed] at counted
  exact held.occupied one member counted

theorem on_hub_hub (s : Session κ) (key other : Nat) (change : HeldHub κ → HeldHub κ)
    (sameKey : ∀ held, (change held).key = held.key) :
    (s.onHub key change).hub? other = (s.hubs.find? fun held => held.key == other).map
      fun held => if held.key = key then (change held).hub else held.hub := by
  rw [hub?, onHub, List.find?_map, Option.map_map]
  have keys : ((fun held : HeldHub κ => held.key == other) ∘ fun held =>
      if held.key = key then change held else held) = fun held => held.key == other := by
    funext held
    by_cases hit : held.key = key <;> simp [hit, sameKey]
  rw [keys]
  congr 1
  funext held
  by_cases hit : held.key = key <;> simp [hit]

theorem set_hub_other (s : Session κ) (key other : Nat) (hub : Hub κ) (different : other ≠ key) :
    (s.setHub key hub).hub? other = s.hub? other := by
  rw [setHub, on_hub_hub s key other (fun one => { one with hub := hub }) fun _ => rfl]
  apply Option.map_congr
  intro held found
  have hit : held.key = other := by simpa using List.find?_some found
  exact if_neg fun same => different (hit.symm.trans same)

theorem set_hub_own (s : Session κ) (key : Nat) (old hub : Hub κ) (found : s.hub? key = some old) :
    (s.setHub key hub).hub? key = some hub := by
  obtain ⟨one, stands, _⟩ := Option.map_eq_some_iff.mp found
  have hit : one.key = key := by simpa using List.find?_some stands
  rw [setHub, on_hub_hub s key key (fun one => { one with hub := hub }) fun _ => rfl, stands]
  exact congrArg some (if_pos hit)

theorem hold_hub (s : Session κ) (key other : Nat) : (s.hold key).hub? other = s.hub? other := by
  rw [hold, on_hub_hub s key other (fun one => { one with holders := one.holders + 1 }) fun _ => rfl]
  exact congrArg (fun read => Option.map read _) (funext fun held => ite_self _)

theorem release_hub (s : Session κ) (key other : Nat) (holdings : List Nat) (named : other ∈ holdings)
    (held : Held s.hubs s.nextHub (key :: holdings)) : (s.release key).hub? other = s.hub? other := by
  obtain ⟨hub, _, stays, _⟩ := hub_named (s.release key) other holdings named
    (release_held s key holdings held)
  obtain ⟨one, member, sameKey, sameHub⟩ :=
    (hub_iff _ other hub (release_held s key holdings held).keys).mp stays
  obtain ⟨_, old, stood, rfl⟩ := (mem_release s key one).mp member
  rw [stays, eq_comm]
  exact (hub_iff s other hub held.keys).mpr
    ⟨old, stood, (loosed_key key old).symm.trans sameKey, (loosed_hub key old).symm.trans sameHub⟩

end ProtocolStubs.Session
