import ProtocolStubs.Proofs.Schema.QualifiedName
import ProtocolStubs.Proofs.Session.Reached

set_option autoImplicit false

namespace ProtocolStubs

theorem event_names (m : Message) (domain event : String) :
    m.eventFor? domain = some event ↔ Names m.method domain event := by
  constructor
  · intro found
    cases parsed : QualifiedName.parse m.method with
    | error cause =>
      rw [Message.eventFor?, parsed] at found
      cases found
    | ok name =>
      simp only [Message.eventFor?, parsed] at found
      split at found
      · rename_i same
        cases found
        exact same ▸ (QualifiedName.parse_names m.method name).mp parsed
      · cases found
  · intro names
    rw [Message.eventFor?, QualifiedName.names_parse m.method domain event names]
    exact if_pos rfl

theorem no_event_names (m : Message) (domain : String) :
    m.eventFor? domain = none ↔ ∀ event, ¬Names m.method domain event := by
  rw [Option.eq_none_iff_forall_ne_some]
  exact forall_congr' fun event => not_congr (event_names m domain event)

namespace Session

variable {κ σ : Type}

inductive Promised (s : Session κ) (m : Message) (r : Route) : List (κ × Value) → Prop where
  | named (c : Client) (hub : Hub κ) (member : String) (alive : c ∈ s.live)
      (route : c.route = some r.id) (held : s.hub? c.hub = some hub)
      (names : Names m.method c.domain member)
      (ordered : (hub.entries member).Pairwise fun a b => a.id < b.id) :
      Promised s m r ((hub.entries member).map fun entry => (entry.listener, m.params))
  | unnamed (c : Client) (alive : c ∈ s.live) (route : c.route = some r.id)
      (unnamed : ∀ member, ¬Names m.method c.domain member) : Promised s m r []
  | gone (gone : ∀ c ∈ s.live, c.route ≠ some r.id) : Promised s m r []

-- The jobs below are those that a delivery leaves for later: an enclosing one has not let go of the hub.
structure Lingers (below : List (Job (interface κ) σ)) (s : Session κ) (m : Message) (r : Route)
    (hub : Hub κ) (member : String) : Prop where
  gone : ∀ c ∈ s.live, c.route ≠ some r.id
  awaited : .errand (.turn (.release r.hub)) ∈ below
  held : s.hub? r.hub = some hub
  names : Names m.method r.domain member

-- There is one exception to what a turn promises: where the client is gone and an enclosing delivery is
-- still calling its listeners, the hub is still there and its listeners are called.
inductive Delivered (below : List (Job (interface κ) σ)) (s : Session κ) (m : Message) (r : Route) :
    List (κ × Value) → Prop where
  | promised (batch : List (κ × Value)) (promised : Promised s m r batch)
      (settled : ∀ hub member, ¬Lingers below s m r hub member) : Delivered below s m r batch
  | lingering (hub : Hub κ) (member : String) (lingers : Lingers below s m r hub member) :
      Delivered below s m r ((hub.entries member).map fun entry => (entry.listener, m.params))

def routeOf? : Errand κ Turn → Option Route
  | .turn (.deliver r _) => some r
  | _ => none

def callOf? : Errand κ Turn → Option (κ × Value)
  | .call listener params => some (listener, params)
  | .turn _ => none

def owing (m : Message) (calls : List (κ × Value)) (keys : List Nat) (routes : List Route) :
    List (Errand κ Turn) :=
  calls.map (fun call => .call call.1 call.2) ++
    (keys.map (fun key => .turn (.release key)) ++ routes.map fun r => .turn (.deliver r m))

section Owing

variable (m : Message) (calls : List (κ × Value)) (keys : List Nat) (routes : List Route)

theorem owing_routes : (owing m calls keys routes).filterMap routeOf? = routes := by
  rw [owing, List.filterMap_append, List.filterMap_append,
    filter_map_none _ routeOf? calls fun _ => rfl, filter_map_none _ routeOf? keys fun _ => rfl,
    List.filterMap_map]
  exact List.filterMap_some

theorem owing_calls : (owing m calls keys routes).filterMap callOf? = calls := by
  rw [owing, List.filterMap_append, List.filterMap_append,
    filter_map_none _ callOf? keys fun _ => rfl, filter_map_none _ callOf? routes fun _ => rfl,
    List.filterMap_map]
  exact (List.append_nil _).trans List.filterMap_some

theorem owing_turns : (owing m calls keys routes).filterMap Errand.turn? =
    keys.map Turn.release ++ routes.map fun r => .deliver r m := by
  rw [owing, List.filterMap_append, List.filterMap_append,
    filter_map_none _ Errand.turn? calls fun _ => rfl, List.nil_append, List.filterMap_map,
    List.filterMap_map]
  exact congrArg₂ (· ++ ·) (congrFun (List.filterMap_eq_map' ..) keys)
    (congrFun (List.filterMap_eq_map' ..) routes)

end Owing

theorem reads_ascending (hub : Hub κ) (log : Log κ) (member : String) (reads : hub.Reads log) :
    (hub.entries member).Pairwise fun a b => a.id < b.id := by
  rw [reads.entries member]
  exact List.pairwise_map.mpr (reads.numbered.ascending.filter _)

theorem route_hub (hub : Hub κ) (m : Message) (domain member : String)
    (names : Names m.method domain member) : hub.route domain m = hub.take member := by
  rw [Hub.route, (event_names m domain member).mpr names]

theorem route_unnamed (hub : Hub κ) (m : Message) (domain : String)
    (unnamed : ∀ member, ¬Names m.method domain member) : hub.route domain m = (hub, []) := by
  rw [Hub.route, (no_event_names m domain).mpr unnamed]

theorem live_to_route (s : Session κ) (due : List Turn) (m : Message) (r : Route)
    (sound : Sound s s.live (.deliver r m :: due)) (c : Client) (alive : c ∈ s.live)
    (meets : c.hub = r.hub ∨ c.route = some r.id) :
    c.route = some r.id ∧ c.domain = r.domain ∧ c.hub = r.hub :=
  to_route_parts c r ((sound.due r m List.mem_cons_self).only c alive meets)

-- The hub of a client that is gone is there only for a delivery that has yet to let go of it.
theorem gone_awaited (s : Session κ) (due : List Turn) (m : Message) (r : Route) (hub : Hub κ)
    (sound : Sound s s.live (.deliver r m :: due)) (gone : ∀ c ∈ s.live, c.route ≠ some r.id)
    (found : s.hub? r.hub = some hub) : r.hub ∈ released due := by
  have named : r.hub ∈ s.live.map Client.hub ++ released (.deliver r m :: due) :=
    Decidable.byContradiction fun unnamed => by
      rw [hub_unnamed s r.hub _ unnamed sound.held] at found
      cases found
  rcases List.mem_append.mp named with own | awaited
  · obtain ⟨c, alive, same⟩ := List.mem_map.mp own
    exact absurd (live_to_route s due m r sound c alive (.inl same)).1 (gone c alive)
  · exact awaited

theorem released_below (below : List (Job (interface κ) σ)) (key : Nat)
    (awaited : key ∈ released (dueTurns below)) : .errand (.turn (.release key)) ∈ below := by
  obtain ⟨t, due, release⟩ := List.mem_filterMap.mp awaited
  obtain ⟨job, member, turns⟩ := List.mem_filterMap.mp due
  cases t with
  | deliver r m => cases release
  | release other =>
    cases release
    cases job with
    | run program => cases turns
    | errand e =>
      cases e with
      | call listener params => cases turns
      | turn t =>
        cases turns
        exact member

theorem turn_absent (s : Session κ) (m : Message) (r : Route) (absent : s.hub? r.hub = none) :
    s.turn (.deliver r m) = (s, []) := by
  rw [turn, absent]

theorem turn_present (s : Session κ) (m : Message) (r : Route) (hub : Hub κ)
    (found : s.hub? r.hub = some hub) :
    s.turn (.deliver r m) =
      ((s.setHub r.hub (hub.route r.domain m).1).hold r.hub,
        Hub.calls (hub.route r.domain m).2 m.params ++ [.turn (.release r.hub)]) := by
  rw [turn, found]

theorem turn_named (s : Session κ) (m : Message) (r : Route) (hub : Hub κ) (member : String)
    (found : s.hub? r.hub = some hub) (names : Names m.method r.domain member) :
    (s.turn (.deliver r m)).2 =
      owing m ((hub.entries member).map fun entry => (entry.listener, m.params)) [r.hub] [] := by
  rw [turn_present s m r hub found, route_hub hub m r.domain member names, owing, List.map_map]
  simp only [Hub.take, Hub.calls, List.map_map]
  rfl

theorem turn_unnamed (s : Session κ) (m : Message) (r : Route) (hub : Hub κ)
    (found : s.hub? r.hub = some hub) (unnamed : ∀ member, ¬Names m.method r.domain member) :
    (s.turn (.deliver r m)).2 = owing m [] [r.hub] [] := by
  rw [turn_present s m r hub found, route_unnamed hub m r.domain unnamed]
  rfl

theorem alive_delivers (s : Session κ) (due : List Turn) (m : Message) (r : Route)
    (below : List (Job (interface κ) σ)) (sound : Sound s s.live (.deliver r m :: due)) (c : Client)
    (alive : c ∈ s.live) (route : c.route = some r.id) :
    ∃ batch keys, Delivered below s m r batch ∧ (s.turn (.deliver r m)).2 = owing m batch keys [] := by
  obtain ⟨_, domain, hub⟩ := live_to_route s due m r sound c alive (.inr route)
  obtain ⟨found, log, held, reads⟩ := hub_named s c.hub _
    (List.mem_append_left _ (List.mem_map_of_mem alive)) sound.held
  have heldRoute : s.hub? r.hub = some found := hub ▸ held
  have settled : ∀ hub member, ¬Lingers below s m r hub member := fun _ _ lingers =>
    lingers.gone c alive route
  by_cases names : ∃ member, Names m.method c.domain member
  · obtain ⟨member, names⟩ := names
    exact ⟨_, [r.hub], .promised _ (.named c found member alive route held names
      (reads_ascending found log member reads)) settled,
      turn_named s m r found member heldRoute (domain ▸ names)⟩
  · have unnamed := not_exists.mp names
    exact ⟨[], [r.hub], .promised [] (.unnamed c alive route unnamed) settled,
      turn_unnamed s m r found heldRoute (domain ▸ unnamed)⟩

theorem gone_delivers (s : Session κ) (due : List Turn) (m : Message) (r : Route)
    (below : List (Job (interface κ) σ)) (dueBelow : released due = released (dueTurns below))
    (sound : Sound s s.live (.deliver r m :: due)) (gone : ∀ c ∈ s.live, c.route ≠ some r.id) :
    ∃ batch keys, Delivered below s m r batch ∧ (s.turn (.deliver r m)).2 = owing m batch keys [] := by
  cases found : s.hub? r.hub with
  | none =>
    refine ⟨[], [], .promised [] (.gone gone) ?_, congrArg Prod.snd (turn_absent s m r found)⟩
    intro hub member lingers
    rw [lingers.held] at found
    cases found
  | some hub =>
    by_cases names : ∃ member, Names m.method r.domain member
    · obtain ⟨member, names⟩ := names
      have awaited := gone_awaited s due m r hub sound gone found
      rw [dueBelow] at awaited
      exact ⟨_, [r.hub],
        .lingering hub member ⟨gone, released_below below r.hub awaited, found, names⟩,
        turn_named s m r hub member found names⟩
    · have unnamed := not_exists.mp names
      refine ⟨[], [r.hub], .promised [] (.gone gone) ?_, turn_unnamed s m r hub found unnamed⟩
      exact fun _ member lingers => unnamed member lingers.names

theorem turn_delivers (s : Session κ) (due : List Turn) (m : Message) (r : Route)
    (below : List (Job (interface κ) σ)) (dueBelow : released due = released (dueTurns below))
    (sound : Sound s s.live (.deliver r m :: due)) :
    ∃ batch keys, Delivered below s m r batch ∧ (s.turn (.deliver r m)).2 = owing m batch keys [] := by
  by_cases alive : ∃ c ∈ s.live, c.route = some r.id
  · obtain ⟨c, alive, route⟩ := alive
    exact alive_delivers s due m r below sound c alive route
  · exact gone_delivers s due m r below dueBelow sound fun c member route =>
      alive ⟨c, member, route⟩

theorem turn_frame (s : Session κ) (due : List Turn) (m : Message) (r : Route)
    (sound : Sound s s.live (.deliver r m :: due)) (c : Client) (alive : c ∈ s.live)
    (unnamed : ∀ member, ¬Names m.method c.domain member) :
    (s.turn (.deliver r m)).1.hub? c.hub = s.hub? c.hub := by
  cases found : s.hub? r.hub with
  | none => rw [turn_absent s m r found]
  | some hub =>
    rw [turn_present s m r hub found, hold_hub]
    by_cases same : c.hub = r.hub
    · obtain ⟨_, domain, _⟩ := live_to_route s due m r sound c alive (.inl same)
      rw [route_unnamed hub m r.domain (domain ▸ unnamed), same,
        set_hub_own s r.hub hub hub found, found]
    · exact set_hub_other s r.hub c.hub _ same

theorem release_frame (s : Session κ) (due : List Turn) (key : Nat)
    (sound : Sound s s.live (.release key :: due)) (c : Client) (alive : c ∈ s.live) :
    (s.turn (.release key)).1.hub? c.hub = s.hub? c.hub := by
  have held : Held s.hubs s.nextHub (key :: (s.live.map Client.hub ++ released due)) :=
    held_perm _ _ _ _ List.perm_middle sound.held
  exact release_hub s key c.hub _ (List.mem_append_left _ (List.mem_map_of_mem alive)) held

theorem promised_unique (s : Session κ) (m : Message) (r : Route) (batch other : List (κ × Value))
    (bound : Bound s.transport.nextRoute s.nextHub s.live r) (first : Promised s m r batch)
    (second : Promised s m r other) : batch = other := by
  have same : ∀ c ∈ s.live, c.route = some r.id → c.domain = r.domain ∧ c.hub = r.hub :=
    fun c alive route => (to_route_parts c r (bound.only c alive (.inr route))).2
  cases first with
  | named c hub member alive route held names ordered =>
    cases second with
    | named d hub' member' alive' route' held' names' ordered' =>
      obtain ⟨domain, key⟩ := same c alive route
      obtain ⟨domain', key'⟩ := same d alive' route'
      rw [key] at held
      rw [key', held] at held'
      rw [domain] at names
      rw [domain'] at names'
      cases held'
      rw [names_unique m.method r.domain member member' names names']
    | unnamed d alive' route' unnamed =>
      rw [(same c alive route).1, ← (same d alive' route').1] at names
      exact absurd names (unnamed member)
    | gone gone => exact absurd route (gone c alive)
  | unnamed c alive route unnamed =>
    cases second with
    | named d hub member alive' route' held names ordered =>
      rw [(same d alive' route').1, ← (same c alive route).1] at names
      exact absurd names (unnamed member)
    | unnamed d alive' route' unnamed' => rfl
    | gone gone => rfl
  | gone gone =>
    cases second with
    | named d hub member alive route held names ordered => exact absurd route (gone d alive)
    | unnamed d alive route unnamed => rfl
    | gone gone' => rfl

theorem promised_gone (s : Session κ) (m : Message) (r : Route) (batch : List (κ × Value))
    (gone : ∀ c ∈ s.live, c.route ≠ some r.id) (promised : Promised s m r batch) : batch = [] := by
  cases promised with
  | named c hub member alive route held names ordered => exact absurd route (gone c alive)
  | unnamed c alive route unnamed => rfl
  | gone gone => rfl

theorem delivered_length (below : List (Job (interface κ) σ)) (s : Session κ) (m : Message) (r : Route)
    (batch promise : List (κ × Value))
    (bound : Bound s.transport.nextRoute s.nextHub s.live r) (delivered : Delivered below s m r batch)
    (promised : Promised s m r promise) :
    promise.length ≤ batch.length ∧ (promise.length = batch.length →
      ∀ hub member, Lingers below s m r hub member → hub.entries member = []) := by
  cases delivered with
  | promised _ kept settled =>
    rw [promised_unique s m r promise batch bound promised kept]
    exact ⟨Nat.le_refl _, fun _ hub member lingers => absurd lingers (settled hub member)⟩
  | lingering hub member lingers =>
    rw [promised_gone s m r promise lingers.gone promised, List.length_map]
    refine ⟨Nat.zero_le _, fun empty other member' also => ?_⟩
    have held := also.held
    rw [lingers.held] at held
    cases held
    rw [names_unique m.method r.domain member' member also.names lingers.names]
    exact List.length_eq_zero_iff.mp empty.symm

theorem delivered_promised (below : List (Job (interface κ) σ)) (s : Session κ) (m : Message)
    (r : Route) (batch : List (κ × Value)) (delivered : Delivered below s m r batch)
    (quiet : ∀ hub member, Lingers below s m r hub member → hub.entries member = []) :
    Promised s m r batch := by
  cases delivered with
  | promised _ kept settled => exact kept
  | lingering hub member lingers =>
    rw [quiet hub member lingers]
    exact .gone lingers.gone

end Session

end ProtocolStubs
