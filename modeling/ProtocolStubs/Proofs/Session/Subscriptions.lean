import ProtocolStubs.Proofs.Session.FacadeLife

set_option autoImplicit false

namespace ProtocolStubs.Session

variable {κ σ : Type}

-- A client as those know it who asked for it. The roll of these knows nothing of routes or hubs.
structure Enrolled where
  owner : Owner
  domain : String
  hasEvents : Bool
deriving DecidableEq, Repr

-- The roll after an operation. A client is made only while the transport is attached, and at the end.
def enroll (s : Session κ) (roll : List Enrolled) : Op κ → List Enrolled
  | .connect name domain hasEvents =>
    if s.transport.attached then
      (roll.filter fun e => !(e.owner == .named name)) ++ [⟨.named name, domain, hasEvents⟩]
    else roll
  | .drop owner => roll.filter fun e => !(e.owner == owner)
  | .access owner domain hasEvents =>
    if s.transport.attached && (!isFacade owner || s.hasFacade) && !roll.any fun e => e.owner == owner then
      roll ++ [⟨owner, domain, hasEvents⟩]
    else roll
  | .openFacade =>
    if s.transport.attached ∨ s.transport.attachMode = .attaches then
      roll.filter fun e => !isFacade e.owner
    else roll
  | .closeFacade => roll.filter fun e => !isFacade e.owner
  | _ => roll

def roll (trace : Nat → Agenda (world κ) σ) : Nat → List Enrolled
  | 0 => []
  | n + 1 =>
    match asked? (trace n) with
    | some op => enroll (trace n).world (roll trace n) op
    | none => roll trace n

def routesWithout (s : Session κ) (owned : Owner → Bool) : List Route :=
  s.transport.routes.filter fun r => !s.clients.any fun entry => owned entry.1 && entry.2.route == some r.id

def ownRoutes (s : Session κ) (domain : String) (hasEvents : Bool) : List Route :=
  if hasEvents then [⟨s.transport.nextRoute, domain, s.nextHub⟩] else []

-- The subscriptions after an operation that was answered so.
def routesAfter (s : Session κ) : Op κ → Answer → List Route
  | .connect name domain hasEvents, .made (.ok ()) =>
    s.routesWithout (fun owner => owner == .named name) ++ s.ownRoutes domain hasEvents
  | .access _ domain hasEvents, .accessed (.ok false) =>
    s.transport.routes ++ s.ownRoutes domain hasEvents
  | .drop owner, _ => s.routesWithout fun other => other == owner
  | .openFacade, .made (.ok ()) => s.routesWithout isFacade
  | .closeFacade, _ => s.routesWithout isFacade
  | _, _ => s.transport.routes

theorem dismiss_routes (s : Session κ) (c : Client) :
    (s.dismiss c).transport.routes = s.transport.routes.filter fun r => !(c.route == some r.id) := by
  rw [dismiss_leaves, leave]
  cases c.route with
  | none => simp [release, onHub]
  | some id => simp [release, onHub, Transport.closeRoute, eq_comm, beq_eq_decide]

theorem dismiss_all_routes (s : Session κ) (gone : List Client) :
    (gone.foldl dismiss s).transport.routes =
      s.transport.routes.filter fun r => !gone.any fun c => c.route == some r.id := by
  induction gone generalizing s with
  | nil => simp
  | cons c rest ih => simp [ih, dismiss_routes, List.filter_filter, Bool.and_comm]

theorem drop_owned_routes (s : Session κ) (owned : Owner → Bool) :
    (s.dropOwned owned).transport.routes = s.routesWithout owned := by
  simp only [dropOwned, List.partition_eq_filter_filter, dismiss_all_routes, routesWithout, List.any_map,
    List.any_filter]
  rfl

theorem own_routes (s after : Session κ) (domain : String) (hasEvents : Bool) (c : Client)
    (made : Constructed s after domain hasEvents c) :
    after.transport.routes = s.transport.routes ++ s.ownRoutes domain hasEvents := by
  rw [made.routes, made.client]
  cases hasEvents <;> rfl

theorem connect_routes (s : Session κ) (due : List Turn) (name domain : String) (hasEvents : Bool)
    (sound : Sound s s.live due) :
    (s.act (.connect name domain hasEvents)).1.transport.routes =
      s.routesAfter (.connect name domain hasEvents) (s.act (.connect name domain hasEvents)).2 := by
  rw [act]
  rcases s.connect_cases domain hasEvents name with ⟨_, refused⟩ | ⟨after, c, made, connected⟩
  · rw [refused]
    rfl
  · rw [connected]
    change (after.dropOwned _).transport.routes = _
    rw [drop_owned_routes, routesWithout, own_routes s after domain hasEvents c made, made.clients,
      List.filter_append, routesAfter, routesWithout]
    congr 1
    rw [List.filter_eq_self]
    intro r own
    have fresh : r.id = s.transport.nextRoute := by
      cases hasEvents with
      | false => cases own
      | true => rw [List.mem_singleton.mp own]
    rw [Bool.not_eq_true', List.any_eq_false]
    intro entry member taken
    have route : entry.2.route = some r.id := beq_iff_eq.mp (Bool.and_eq_true_iff.mp taken).2
    have below := live_route_bound s s.live due entry.2 r.id (List.mem_map_of_mem member) route sound
    exact absurd fresh (Nat.ne_of_lt below)

theorem access_routes (s : Session κ) (owner : Owner) (domain : String) (hasEvents : Bool) :
    (s.act (.access owner domain hasEvents)).1.transport.routes =
      s.routesAfter (.access owner domain hasEvents) (s.act (.access owner domain hasEvents)).2 := by
  rw [act]
  split
  · rfl
  · rcases s.access_cases domain hasEvents owner with
      ⟨_, _, same⟩ | ⟨_, _, refused⟩ | ⟨after, c, _, made, accessed⟩
    · rw [same]
      rfl
    · rw [refused]
      rfl
    · rw [accessed]
      exact own_routes s after domain hasEvents c made

theorem open_facade_routes (s : Session κ) :
    (s.act .openFacade).1.transport.routes = s.routesAfter .openFacade (s.act .openFacade).2 := by
  obtain ⟨routes, _⟩ := attach_routes s.transport
  rw [act, openFacade]
  rcases outcome : s.transport.attach with ⟨t, cause | _⟩
  · rw [outcome] at routes
    exact routes
  · rw [outcome] at routes
    change (dropOwned _ isFacade).transport.routes = s.routesWithout isFacade
    rw [drop_owned_routes, routesWithout, routesWithout]
    exact congrArg (List.filter _) routes

theorem act_routes (s : Session κ) (due : List Turn) (op : Op κ) (sound : Sound s s.live due) :
    (s.act op).1.transport.routes = s.routesAfter op (s.act op).2 := by
  cases op with
  | connect name domain hasEvents => exact connect_routes s due name domain hasEvents sound
  | drop owner => exact drop_owned_routes s _
  | access owner domain hasEvents => exact access_routes s owner domain hasEvents
  | openFacade => exact open_facade_routes s
  | closeFacade => exact drop_owned_routes { s with hasFacade := false } isFacade
  | add owner event once listener =>
    exact with_client_keeps (fun s => s.transport.routes) s owner _ fun _ _ => rfl
  | off owner id => exact with_client_keeps (fun s => s.transport.routes) s owner _ fun _ _ => rfl
  | count owner event => exact with_client_keeps (fun s => s.transport.routes) s owner _ fun _ _ => rfl
  | describe owner => exact with_client_keeps (fun s => s.transport.routes) s owner _ fun _ _ => rfl
  | request owner command r =>
    exact with_client_keeps (fun s => s.transport.routes) s owner _ fun c _ =>
      (exchange_unrouted c.domain command r s.transport).1
  | attach => exact (attach_routes s.transport).1
  | holds | facadeIsOpen | describeSlot | deliver | queue | setAttached | transport => rfl

def entryOf (entry : Owner × Client) : Enrolled := ⟨entry.1, entry.2.domain, entry.2.route.isSome⟩

theorem dropped_roll (clients : List (Owner × Client)) (owned : Owner → Bool) :
    (clients.filter fun entry => !owned entry.1).map entryOf =
      (clients.map entryOf).filter fun e => !owned e.owner := by
  rw [List.filter_map]
  rfl

theorem entry_constructed (s after : Session κ) (owner : Owner) (domain : String) (hasEvents : Bool)
    (c : Client) (made : Constructed s after domain hasEvents c) :
    entryOf (owner, c) = ⟨owner, domain, hasEvents⟩ := by
  obtain ⟨rfl, rfl⟩ := constructed_parts s domain hasEvents after c made
  rfl

theorem client_enrolled (s : Session κ) (owner : Owner) :
    ((s.clients.map entryOf).any fun e => e.owner == owner) = (s.client? owner).isSome := by
  rw [client?, List.any_map]
  induction s.clients with
  | nil => rfl
  | cons entry rest ih =>
    rw [List.any_cons, List.lookup_cons, ih]
    by_cases same : owner = entry.1
    · simp [entryOf, same]
    · simp [entryOf, beq_false_of_ne same, beq_false_of_ne (Ne.symm same)]

theorem connect_roll (s : Session κ) (name domain : String) (hasEvents : Bool) :
    (s.connect name domain hasEvents).1.clients.map entryOf =
      enroll s (s.clients.map entryOf) (.connect name domain hasEvents) := by
  rw [enroll]
  rcases s.connect_cases domain hasEvents name with ⟨detached, refused⟩ | ⟨after, c, made, connected⟩
  · rw [refused, if_neg (by simp [detached])]
  · rw [connected, if_pos made.attached]
    change ((after.dropOwned _).clients ++ [(Owner.named name, c)]).map entryOf = _
    rw [List.map_append, drop_owned_clients, made.clients,
      dropped_roll s.clients fun owner => owner == .named name]
    exact congrArg (_ ++ [·]) (entry_constructed s after (.named name) domain hasEvents c made)

theorem access_roll (s : Session κ) (owner : Owner) (domain : String) (hasEvents : Bool) :
    (s.act (.access owner domain hasEvents)).1.clients.map entryOf =
      enroll s (s.clients.map entryOf) (.access owner domain hasEvents) := by
  have open_ : (!isFacade owner || s.hasFacade) = !(isFacade owner && !s.hasFacade) := by simp
  rw [act, enroll, client_enrolled, open_]
  cases isFacade owner && !s.hasFacade with
  | true => simp
  | false =>
    rw [if_neg (by simp)]
    rcases s.access_cases domain hasEvents owner with
      ⟨c, found, same⟩ | ⟨found, detached, same⟩ | ⟨after, c, found, made, same⟩
    · simp [same, found]
    · simp [same, detached]
    · simp [same, filed, found, made.clients, made.attached,
        entry_constructed s after owner domain hasEvents c made]

theorem open_facade_roll (s : Session κ) :
    s.openFacade.1.clients.map entryOf = enroll s (s.clients.map entryOf) .openFacade := by
  obtain ⟨_, _, granted⟩ := s.transport.attach_outcome
  rw [openFacade, enroll]
  rcases outcome : s.transport.attach with ⟨t, cause | _⟩
  · rw [outcome] at granted
    rw [if_neg (granted.not.mp (by simp))]
  · rw [outcome] at granted
    rw [if_pos (granted.mp rfl), ← dropped_roll s.clients isFacade]
    exact congrArg (List.map entryOf) (drop_owned_clients _ _)

theorem act_roll (s : Session κ) (op : Op κ) :
    (s.act op).1.clients.map entryOf = enroll s (s.clients.map entryOf) op := by
  have kept := fun (owner : Owner) act => with_client_keeps (fun s : Session κ => s.clients.map entryOf) s
    owner act
  cases op with
  | connect name domain hasEvents => exact connect_roll s name domain hasEvents
  | drop owner =>
    rw [enroll, ← dropped_roll s.clients fun other => other == owner]
    exact congrArg (List.map entryOf) (drop_owned_clients s _)
  | access owner domain hasEvents => exact access_roll s owner domain hasEvents
  | openFacade => exact open_facade_roll s
  | closeFacade =>
    rw [enroll, ← dropped_roll s.clients isFacade]
    exact congrArg (List.map entryOf) (drop_owned_clients { s with hasFacade := false } isFacade)
  | add owner event once listener => exact kept owner _ fun _ _ => rfl
  | off owner id => exact kept owner _ fun _ _ => rfl
  | count owner event => exact kept owner _ fun _ _ => rfl
  | describe owner => exact kept owner _ fun _ _ => rfl
  | request owner command r => exact kept owner _ fun _ _ => rfl
  | holds | facadeIsOpen | describeSlot | deliver | queue | setAttached | attach | transport => rfl

theorem enroll_distinct (s : Session κ) (roll : List Enrolled) (op : Op κ)
    (distinct : (roll.map Enrolled.owner).Nodup) : ((enroll s roll op).map Enrolled.owner).Nodup := by
  have fewer : ∀ stays : Enrolled → Bool, ((roll.filter stays).map Enrolled.owner).Nodup := fun stays =>
    distinct.sublist (List.filter_sublist.map _)
  have grown : ∀ (rest : List Enrolled) (e : Enrolled), (rest.map Enrolled.owner).Nodup →
      (∀ other ∈ rest, other.owner ≠ e.owner) → ((rest ++ [e]).map Enrolled.owner).Nodup := by
    intro rest e apart fresh
    simpa [List.nodup_append, apart] using fresh
  cases op with
  | connect name domain hasEvents =>
    rw [enroll]
    split
    · exact grown _ _ (fewer _) fun other member => by simpa using (List.mem_filter.mp member).2
    · exact distinct
  | drop owner => exact fewer _
  | access owner domain hasEvents =>
    rw [enroll]
    split
    · rename_i free
      refine grown _ _ distinct fun other member same => ?_
      simp only [Bool.and_eq_true, Bool.not_eq_true', List.any_eq_false] at free
      exact free.2 other member (beq_iff_eq.mpr same)
    · exact distinct
  | openFacade =>
    rw [enroll]
    split
    · exact fewer _
    · exact distinct
  | closeFacade => exact fewer _
  | _ => exact distinct

structure Subscribed (s : Session κ) (roll : List Enrolled) : Prop where
  owners : s.clients.map Prod.fst = roll.map Enrolled.owner
  distinct : (roll.map Enrolled.owner).Nodup
  listed : List.Forall₂ (fun e r => r.domain = e.domain ∧
      s.client? e.owner = some ⟨e.domain, r.hub, some r.id⟩)
    (roll.filter Enrolled.hasEvents) s.transport.routes
  silent : ∀ e ∈ roll, e.hasEvents = false → ∃ hub, s.client? e.owner = some ⟨e.domain, hub, none⟩
  ids : s.transport.routes.Pairwise fun a b => a.id < b.id

theorem client_found (s : Session κ) (entry : Owner × Client) (distinct : (s.clients.map Prod.fst).Nodup)
    (member : entry ∈ s.clients) : s.client? entry.1 = some entry.2 := by
  cases found : s.client? entry.1 with
  | none =>
    rw [client?, List.lookup_eq_none_iff] at found
    exact absurd (found entry member) (by simp)
  | some c =>
    rw [List.inj_on_of_nodup_map distinct member (client_entry s entry.1 c found) rfl]

theorem routes_listed (clients : List (Owner × Client)) (stands : Owner × Client → Prop)
    (all : ∀ entry ∈ clients, stands entry) :
    List.Forall₂ (fun e r => r.domain = e.domain ∧ stands (e.owner, ⟨e.domain, r.hub, some r.id⟩))
      ((clients.map entryOf).filter Enrolled.hasEvents)
      ((clients.map Prod.snd).filterMap Client.toRoute?) := by
  induction clients with
  | nil => exact .nil
  | cons entry rest ih =>
    obtain ⟨first, later⟩ := List.forall_mem_cons.mp all
    obtain ⟨owner, domain, hub, route⟩ := entry
    cases route with
    | none => exact ih later
    | some id => exact .cons ⟨rfl, first⟩ (ih later)

theorem sound_subscribed (s : Session κ) (due : List Turn) (sound : Sound s s.live due)
    (distinct : (s.clients.map Prod.fst).Nodup) : Subscribed s (s.clients.map entryOf) := by
  have found := client_found s
  have owners : s.clients.map Prod.fst = (s.clients.map entryOf).map Enrolled.owner := by
    rw [List.map_map]
    rfl
  refine ⟨owners, owners ▸ distinct, ?_, ?_, sound.ascending⟩
  · rw [sound.routes]
    exact routes_listed s.clients (fun entry => s.client? entry.1 = some entry.2) fun entry =>
      found entry distinct
  · intro e member routeless
    obtain ⟨⟨owner, domain, hub, route⟩, stands, rfl⟩ := List.mem_map.mp member
    obtain rfl : route = none := Option.not_isSome_iff_eq_none.mp (by simpa [entryOf] using routeless)
    exact ⟨hub, found _ distinct stands⟩

theorem run_roll (behave : κ → Value → Program (interface κ) σ) (program : Program (interface κ) σ)
    (user : σ) (attached : Bool) (mode : AttachMode) (n : Nat) :
    let trace := run behave program user attached mode
    (trace n).world.clients.map entryOf = roll trace n ∧ ((roll trace n).map Enrolled.owner).Nodup := by
  intro trace
  induction n with
  | zero => exact ⟨rfl, List.nodup_nil⟩
  | succ n ih =>
    obtain ⟨same, distinct⟩ := ih
    rw [roll]
    cases asked : asked? (trace n) with
    | none =>
      obtain ⟨clients, _, _⟩ := unasked_advance behave (trace n) asked
      rw [← run_succ] at clients
      exact ⟨(congrArg _ clients).trans same, distinct⟩
    | some op =>
      obtain ⟨after, _⟩ := run_asked behave program user attached mode n op asked
      refine ⟨?_, enroll_distinct _ _ op distinct⟩
      rw [show (trace (n + 1)).world = _ from after, ← same]
      exact act_roll _ op

theorem subscriptions_exact (behave : κ → Value → Program (interface κ) σ)
    (program : Program (interface κ) σ) (user : σ) (attached : Bool) (mode : AttachMode) (n : Nat) :
    let trace := run behave program user attached mode
    let before := (trace n).world
    let after := (trace (n + 1)).world
    Subscribed before (roll trace n) ∧
      match asked? (trace n) with
      | some op => ∃ answer, (trace (n + 1)).history = (trace n).history ++ [.answered answer] ∧
          after.transport.routes = before.routesAfter op answer
      | none => after.transport.routes = before.transport.routes := by
  intro trace before after
  have sound := run_sound behave program user attached mode n
  obtain ⟨same, distinct⟩ := run_roll behave program user attached mode n
  have owners : (before.clients.map Prod.fst).Nodup := by
    rw [← same, List.map_map] at distinct
    exact distinct
  refine ⟨same ▸ sound_subscribed before _ sound owners, ?_⟩
  cases asked : asked? (trace n) with
  | none =>
    obtain ⟨_, transport, _⟩ := unasked_advance behave (trace n) asked
    rw [← run_succ] at transport
    exact congrArg Transport.routes transport
  | some op =>
    obtain ⟨world, history⟩ := run_asked behave program user attached mode n op asked
    refine ⟨_, history, ?_⟩
    rw [show after = _ from world]
    exact act_routes before _ op sound

end ProtocolStubs.Session
