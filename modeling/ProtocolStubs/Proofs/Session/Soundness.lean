import ProtocolStubs.Proofs.Session.Holding
import ProtocolStubs.Proofs.Session.Simulation

set_option autoImplicit false

namespace ProtocolStubs

def Client.toRoute? (c : Client) : Option Route := c.route.map fun id => ⟨id, c.domain, c.hub⟩

theorem to_route_parts (c : Client) (r : Route) (leads : c.toRoute? = some r) :
    c.route = some r.id ∧ c.domain = r.domain ∧ c.hub = r.hub := by
  obtain ⟨id, route, same⟩ := Option.map_eq_some_iff.mp leads
  cases same
  exact ⟨route, rfl, rfl⟩

namespace Session

variable {κ : Type}

def live (s : Session κ) : List Client := s.clients.map Prod.snd

def released (due : List Turn) : List Nat :=
  due.filterMap fun
    | .release key => some key
    | .deliver _ _ => none

structure Bound (nextRoute nextHub : Nat) (live : List Client) (r : Route) : Prop where
  id : r.id < nextRoute
  hub : r.hub < nextHub
  only : ∀ c ∈ live, c.hub = r.hub ∨ c.route = some r.id → c.toRoute? = some r

-- The clients are given by themselves, as an operation may end some before it files the rest.
structure Sound (s : Session κ) (live : List Client) (due : List Turn) : Prop where
  held : Held s.hubs s.nextHub (live.map Client.hub ++ released due)
  own : (live.map Client.hub).Nodup
  routes : s.transport.routes = live.filterMap Client.toRoute?
  ascending : s.transport.routes.Pairwise fun a b => a.id < b.id
  bound : ∀ r ∈ s.transport.routes, Bound s.transport.nextRoute s.nextHub live r
  due : ∀ r m, Turn.deliver r m ∈ due → Bound s.transport.nextRoute s.nextHub live r

theorem sound_elsewhere (s after : Session κ) (live : List Client) (due : List Turn)
    (sound : Sound s live due) (transport : after.transport = s.transport)
    (hubs : after.hubs = s.hubs) (nextHub : after.nextHub = s.nextHub) : Sound after live due := by
  obtain ⟨_, _, _, _, _⟩ := after
  subst transport hubs nextHub
  exact ⟨sound.held, sound.own, sound.routes, sound.ascending, sound.bound, sound.due⟩

theorem start_sound (attached : Bool) (mode : AttachMode) :
    Sound (start attached mode : Session κ) [] [] :=
  ⟨held_start, List.nodup_nil, rfl, List.Pairwise.nil, by simp [start, Transport.start], by simp⟩

theorem bound_fewer (nextRoute nextHub : Nat) (live fewer : List Client) (r : Route)
    (remain : ∀ c ∈ fewer, c ∈ live) (bound : Bound nextRoute nextHub live r) :
    Bound nextRoute nextHub fewer r :=
  ⟨bound.id, bound.hub, fun c member => bound.only c (remain c member)⟩

theorem bound_grown (nextRoute later nextHub : Nat) (live : List Client) (domain : String)
    (route : Option Nat) (r : Route) (grows : nextRoute ≤ later) (own : ∀ id ∈ route, nextRoute ≤ id)
    (bound : Bound nextRoute nextHub live r) :
    Bound later (nextHub + 1) (live ++ [⟨domain, nextHub, route⟩]) r := by
  refine ⟨Nat.lt_of_lt_of_le bound.id grows, Nat.lt_succ_of_lt bound.hub, ?_⟩
  intro c member meets
  rcases List.mem_append.mp member with old | fresh
  · exact bound.only c old meets
  · rw [List.mem_singleton.mp fresh] at meets
    rcases meets with sameHub | sameRoute
    · exact absurd sameHub (Nat.ne_of_gt bound.hub)
    · exact absurd (own r.id sameRoute) (Nat.not_le_of_gt bound.id)

theorem live_hub_below (s : Session κ) (live : List Client) (due : List Turn) (c : Client)
    (member : c ∈ live) (sound : Sound s live due) : c.hub < s.nextHub :=
  held_below s.hubs s.nextHub c.hub _ sound.held
    (List.mem_append_left _ (List.mem_map_of_mem member))

theorem live_route_bound (s : Session κ) (live : List Client) (due : List Turn) (c : Client) (id : Nat)
    (member : c ∈ live) (route : c.route = some id) (sound : Sound s live due) :
    id < s.transport.nextRoute := by
  have leads : c.toRoute? = some ⟨id, c.domain, c.hub⟩ := by rw [Client.toRoute?, route]; rfl
  have stands : (⟨id, c.domain, c.hub⟩ : Route) ∈ s.transport.routes := by
    rw [sound.routes]
    exact List.mem_filterMap.mpr ⟨c, member, leads⟩
  exact (sound.bound _ stands).id

theorem holdings_grow (live : List Client) (c : Client) (others : List Nat) :
    (c.hub :: (live.map Client.hub ++ others)).Perm ((live ++ [c]).map Client.hub ++ others) := by
  rw [List.map_append, List.append_assoc]
  exact List.perm_middle.symm

theorem own_grow (s : Session κ) (live : List Client) (due : List Turn) (c : Client)
    (fresh : c.hub = s.nextHub) (sound : Sound s live due) :
    ((live ++ [c]).map Client.hub).Nodup := by
  rw [List.map_append, List.nodup_append]
  refine ⟨sound.own, List.nodup_singleton _, ?_⟩
  intro key old other isFresh
  obtain ⟨before, member, rfl⟩ := List.mem_map.mp old
  rw [List.mem_singleton.mp isFresh, fresh]
  exact Nat.ne_of_lt (live_hub_below s live due before member sound)

theorem construct_unrouted (s : Session κ) (live : List Client) (due : List Turn) (domain : String)
    (sound : Sound s live due) :
    Sound { s with hubs := s.hubs ++ [⟨s.nextHub, 1, .empty⟩], nextHub := s.nextHub + 1 }
      (live ++ [⟨domain, s.nextHub, none⟩]) due where
  held := held_perm _ _ _ _ (holdings_grow live ⟨domain, s.nextHub, none⟩ (released due))
    (held_new s.hubs s.nextHub _ sound.held)
  own := own_grow s live due ⟨domain, s.nextHub, none⟩ rfl sound
  routes := by
    rw [List.filterMap_append]
    exact sound.routes.trans (List.append_nil _).symm
  ascending := sound.ascending
  bound := fun r member => bound_grown _ _ _ live domain none r (Nat.le_refl _) nofun (sound.bound r member)
  due := fun r m member => bound_grown _ _ _ live domain none r (Nat.le_refl _) nofun (sound.due r m member)

theorem construct_routed (s : Session κ) (live : List Client) (due : List Turn) (domain : String)
    (sound : Sound s live due) :
    Sound { s with
        transport := (s.transport.openRoute domain s.nextHub).1
        hubs := s.hubs ++ [⟨s.nextHub, 1, .empty⟩]
        nextHub := s.nextHub + 1 }
      (live ++ [⟨domain, s.nextHub, some s.transport.nextRoute⟩]) due where
  held := held_perm _ _ _ _
    (holdings_grow live ⟨domain, s.nextHub, some s.transport.nextRoute⟩ (released due))
    (held_new s.hubs s.nextHub _ sound.held)
  own := own_grow s live due ⟨domain, s.nextHub, some s.transport.nextRoute⟩ rfl sound
  routes := by
    rw [List.filterMap_append]
    exact congrArg (· ++ [⟨s.transport.nextRoute, domain, s.nextHub⟩]) sound.routes
  ascending := by
    refine List.pairwise_append.mpr ⟨sound.ascending, List.pairwise_singleton _ _, ?_⟩
    intro old member fresh isFresh
    rw [List.mem_singleton.mp isFresh]
    exact (sound.bound old member).id
  bound := by
    intro r member
    rcases List.mem_append.mp member with old | fresh
    · exact bound_grown _ _ _ live domain (some _) r (Nat.le_succ _) (by simp) (sound.bound r old)
    · rw [List.mem_singleton.mp fresh]
      refine ⟨Nat.lt_succ_self _, Nat.lt_succ_self _, ?_⟩
      intro c among meets
      rcases List.mem_append.mp among with old | new
      · rcases meets with sameHub | sameRoute
        · exact absurd sameHub (Nat.ne_of_lt (live_hub_below s live due c old sound))
        · exact absurd rfl (Nat.ne_of_lt (live_route_bound s live due c _ old sameRoute sound))
      · rw [List.mem_singleton.mp new]
        rfl
  due := fun r m member => bound_grown _ _ _ live domain (some _) r (Nat.le_succ _) (by simp) (sound.due r m member)

structure Constructed (s after : Session κ) (domain : String) (hasEvents : Bool) (c : Client) : Prop where
  attached : s.transport.attached = true
  client : c = ⟨domain, s.nextHub, if hasEvents then some s.transport.nextRoute else none⟩
  clients : after.clients = s.clients
  hasFacade : after.hasFacade = s.hasFacade
  sent : after.transport.sent = s.transport.sent
  routes : after.transport.routes = s.transport.routes ++ c.toRoute?.toList
  sound : ∀ live due, Sound s live due → Sound after (live ++ [c]) due

section Constructing

variable (s : Session κ) (domain : String) (hasEvents : Bool)

theorem construct_cases :
    (s.transport.attached = false ∧ s.construct domain hasEvents = (s, .error (.notAttached domain))) ∨
      ∃ after c, s.construct domain hasEvents = (after, .ok c) ∧ Constructed s after domain hasEvents c := by
  rw [construct]
  cases attached : s.transport.attached with
  | false => exact .inl ⟨rfl, rfl⟩
  | true =>
    cases hasEvents with
    | false =>
      refine .inr ⟨_, _, rfl, attached, rfl, rfl, rfl, rfl, (List.append_nil _).symm, ?_⟩
      exact fun live due sound => construct_unrouted s live due domain sound
    | true =>
      refine .inr ⟨_, _, rfl, attached, rfl, rfl, rfl, rfl, rfl, ?_⟩
      exact fun live due sound => construct_routed s live due domain sound

theorem constructed_parts (after : Session κ) (c : Client) (made : Constructed s after domain hasEvents c) :
    c.domain = domain ∧ c.route.isSome = hasEvents := by
  rw [made.client]
  cases hasEvents <;> exact ⟨rfl, rfl⟩

def filed (s : Session κ) (owner : Owner) (c : Client) : Session κ :=
  { s with clients := s.clients ++ [(owner, c)] }

theorem filed_sound (owner : Owner) (c : Client) (due : List Turn) (sound : Sound s (s.live ++ [c]) due) :
    Sound (s.filed owner c) (s.filed owner c).live due := by
  rw [live, filed, List.map_append]
  exact sound_elsewhere s _ _ due sound rfl rfl rfl

theorem connect_cases (name : String) :
    (s.transport.attached = false ∧
      s.connect name domain hasEvents = (s, .error (.notAttached domain))) ∨
    ∃ after c, Constructed s after domain hasEvents c ∧ s.connect name domain hasEvents =
      ((after.dropOwned fun other => other == .named name).filed (.named name) c, .ok ()) := by
  rw [connect]
  rcases s.construct_cases domain hasEvents with ⟨detached, refused⟩ | ⟨after, c, constructed, made⟩
  · rw [refused]
    exact .inl ⟨detached, rfl⟩
  · rw [constructed]
    exact .inr ⟨after, c, made, rfl⟩

theorem access_cases (owner : Owner) :
    (∃ c, s.client? owner = some c ∧ s.access owner domain hasEvents = (s, .ok true)) ∨
    (s.client? owner = none ∧ s.transport.attached = false ∧
      s.access owner domain hasEvents = (s, .error (.notAttached domain))) ∨
    ∃ after c, s.client? owner = none ∧ Constructed s after domain hasEvents c ∧
      s.access owner domain hasEvents = (after.filed owner c, .ok false) := by
  rw [access]
  cases found : s.client? owner with
  | some c => exact .inl ⟨c, rfl, rfl⟩
  | none =>
    dsimp only
    rcases s.construct_cases domain hasEvents with ⟨detached, refused⟩ | ⟨after, c, constructed, made⟩
    · rw [refused]
      exact .inr (.inl ⟨rfl, detached, rfl⟩)
    · rw [constructed]
      exact .inr (.inr ⟨after, c, rfl, made, rfl⟩)

end Constructing

theorem close_route (before after : List Route) (r : Route)
    (ascending : (before ++ r :: after).Pairwise fun a b => a.id < b.id) :
    (before ++ r :: after).filter (fun route => route.id ≠ r.id) = before ++ after := by
  obtain ⟨_, rest, across⟩ := List.pairwise_append.mp ascending
  have others : ∀ route ∈ before ++ after, decide (route.id ≠ r.id) = true := by
    intro route member
    rcases List.mem_append.mp member with early | late
    · exact decide_eq_true (Nat.ne_of_lt (across route early r List.mem_cons_self))
    · exact decide_eq_true (Nat.ne_of_gt ((List.pairwise_cons.mp rest).1 route late))
  rw [List.filter_append, List.filter_cons_of_neg (by simp), ← List.filter_append]
  exact List.filter_eq_self.mpr others

theorem remove_middle {α : Type} (before after : List α) (x : α) :
    ∀ y ∈ before ++ after, y ∈ before ++ x :: after := by
  intro y member
  rcases List.mem_append.mp member with early | late
  · exact List.mem_append_left _ early
  · exact List.mem_append_right _ (List.mem_cons_of_mem x late)

-- The first half of a dismissal: the client leaves the transport, and still holds its hub.
def leave (s : Session κ) (c : Client) : Session κ :=
  match c.route with
  | some id => { s with transport := s.transport.closeRoute id }
  | none => s

theorem dismiss_leaves (s : Session κ) (c : Client) :
    s.dismiss c = (s.leave c).release c.hub := rfl

structure Left (s after : Session κ) (live : List Client) : Prop where
  routes : after.transport.routes = live.filterMap Client.toRoute?
  fewer : after.transport.routes.Sublist s.transport.routes
  nextRoute : after.transport.nextRoute = s.transport.nextRoute
  hubs : after.hubs = s.hubs
  nextHub : after.nextHub = s.nextHub
  clients : after.clients = s.clients

theorem leave_sound (s : Session κ) (before after : List Client) (due : List Turn) (c : Client)
    (sound : Sound s (before ++ c :: after) due) : Left s (s.leave c) (before ++ after) := by
  have routes := sound.routes
  rw [List.filterMap_append, List.filterMap_cons] at routes
  cases route : c.route with
  | none =>
    have same : s.leave c = s := by rw [leave, route]
    have silent : c.toRoute? = none := by rw [Client.toRoute?, route]; rfl
    rw [silent] at routes
    rw [same]
    exact ⟨routes.trans List.filterMap_append.symm, List.Sublist.refl _, rfl, rfl, rfl, rfl⟩
  | some id =>
    have same : s.leave c = { s with transport := s.transport.closeRoute id } := by
      rw [leave, route]
    have leads : c.toRoute? = some ⟨id, c.domain, c.hub⟩ := by rw [Client.toRoute?, route]; rfl
    rw [leads] at routes
    rw [same]
    refine ⟨?_, List.filter_sublist, rfl, rfl, rfl, rfl⟩
    change s.transport.routes.filter (fun route => route.id ≠ id) = _
    have ascending := sound.ascending
    rw [routes] at ascending ⊢
    rw [List.filterMap_append]
    exact close_route _ _ ⟨id, c.domain, c.hub⟩ ascending

theorem dismiss_sound (s : Session κ) (before after : List Client) (due : List Turn) (c : Client)
    (sound : Sound s (before ++ c :: after) due) : Sound (s.dismiss c) (before ++ after) due := by
  have remain : ∀ other ∈ before ++ after, other ∈ before ++ c :: after :=
    remove_middle before after c
  have holdings : ((before ++ c :: after).map Client.hub ++ released due).Perm
      (c.hub :: ((before ++ after).map Client.hub ++ released due)) := by
    rw [List.map_append, List.map_cons, List.map_append, List.append_assoc, List.append_assoc]
    exact List.perm_middle
  have left := leave_sound s before after due c sound
  have held : Held (s.leave c).hubs (s.leave c).nextHub
      (c.hub :: ((before ++ after).map Client.hub ++ released due)) := by
    rw [left.hubs, left.nextHub]
    exact held_perm _ _ _ _ holdings sound.held
  have bound : ∀ r, Bound s.transport.nextRoute s.nextHub (before ++ c :: after) r →
      Bound (s.leave c).transport.nextRoute (s.leave c).nextHub (before ++ after) r := by
    intro r old
    rw [left.nextRoute, left.nextHub]
    exact bound_fewer _ _ _ _ r remain old
  rw [dismiss_leaves]
  refine ⟨release_held (s.leave c) c.hub _ held, ?_, left.routes,
    sound.ascending.sublist left.fewer, ?_, ?_⟩
  · refine sound.own.sublist (List.Sublist.map _ ?_)
    exact (List.Sublist.refl before).append (List.sublist_cons_self c after)
  · exact fun r member => bound r (sound.bound r (left.fewer.subset member))
  · exact fun r m member => bound r (sound.due r m member)

theorem dismiss_clients (s : Session κ) (c : Client) : (s.dismiss c).clients = s.clients := by
  rw [dismiss_leaves, leave]
  cases c.route <;> rfl

theorem dismiss_all_clients (s : Session κ) (gone : List Client) :
    (gone.foldl dismiss s).clients = s.clients := by
  induction gone generalizing s with
  | nil => rfl
  | cons c rest ih => exact (ih (s.dismiss c)).trans (dismiss_clients s c)

-- The clients in front are those that were passed over.
theorem dismiss_all_sound (s : Session κ) (front back : List Client) (due : List Turn)
    (entries : List (Owner × Client)) (owned : Owner → Bool)
    (sound : Sound s (front ++ entries.map Prod.snd ++ back) due) :
    Sound (((entries.filter fun entry => owned entry.1).map Prod.snd).foldl dismiss s)
      (front ++ (entries.filter fun entry => !owned entry.1).map Prod.snd ++ back) due := by
  induction entries generalizing s front with
  | nil => exact sound
  | cons entry rest ih =>
    obtain ⟨owner, c⟩ := entry
    rw [List.map_cons, List.append_assoc, List.cons_append] at sound
    cases hit : owned owner with
    | true =>
      simp only [List.filter_cons, hit, if_true, Bool.not_true, if_false, Bool.false_eq_true]
      apply ih (s.dismiss c) front
      rw [List.append_assoc]
      exact dismiss_sound s front (rest.map Prod.snd ++ back) due c sound
    | false =>
      simp only [List.filter_cons, hit, Bool.not_false, if_true, if_false, Bool.false_eq_true]
      rw [List.map_cons, List.append_cons]
      apply ih s (front ++ [c])
      rw [List.append_assoc, List.append_assoc]
      exact sound

theorem drop_owned_clients (s : Session κ) (owned : Owner → Bool) :
    (s.dropOwned owned).clients = s.clients.filter fun entry => !owned entry.1 := by
  simp only [dropOwned, List.partition_eq_filter_filter]
  exact dismiss_all_clients _ _

theorem drop_owned_keeps {α : Type} (read : Session κ → α) (s : Session κ) (owned : Owner → Bool)
    (dismissed : ∀ s c, read (dismiss s c) = read s) :
    read (s.dropOwned owned) =
      read { s with clients := s.clients.filter fun entry => !owned entry.1 } := by
  have all : ∀ (gone : List Client) (s : Session κ), read (gone.foldl dismiss s) = read s := by
    intro gone
    induction gone with
    | nil => exact fun _ => rfl
    | cons c rest ih => exact fun s => (ih (s.dismiss c)).trans (dismissed s c)
  simp only [dropOwned, List.partition_eq_filter_filter]
  exact all _ _

theorem drop_owned_sound (s : Session κ) (back : List Client) (due : List Turn)
    (owned : Owner → Bool) (sound : Sound s (s.live ++ back) due) :
    Sound (s.dropOwned owned) ((s.dropOwned owned).live ++ back) due := by
  rw [live, drop_owned_clients]
  simp only [dropOwned, List.partition_eq_filter_filter]
  exact dismiss_all_sound { s with clients := _ } [] back due s.clients owned
    (sound_elsewhere s _ _ due sound rfl rfl rfl)

end Session

end ProtocolStubs
