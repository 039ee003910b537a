import ProtocolStubs.Proofs.Lookup
import ProtocolStubs.Proofs.Session.Traffic
import ProtocolStubs.Stubs.Catalogue

set_option autoImplicit false

namespace ProtocolStubs

open Stubs (StubDomain)

theorem Transport.attach_outcome (t : Transport) :
    t.attach.1.attachCalls = t.attachCalls + (if t.attached then 0 else 1) ∧
    (t.attach.2 = .ok () → t.attach.1.attached = true) ∧
    (t.attach.2 = .ok () ↔ t.attached = true ∨ t.attachMode = .attaches) := by
  unfold Transport.attach Transport.tryAttach
  cases attached : t.attached with
  | true => simp [attached]
  | false => cases t.attachMode <;> simp

namespace Session

variable {κ : Type}

def facadeClients (s : Session κ) : List (Owner × Client) :=
  s.clients.filter fun entry => isFacade entry.1

def facadeRoutes (s : Session κ) : List Route :=
  s.transport.routes.filter fun r => s.facadeClients.any fun entry => entry.2.hub == r.hub

theorem facade_client (s : Session κ) (d : StubDomain) :
    s.client? d.owner = s.facadeClients.lookup d.owner :=
  (lookup_filter s.clients isFacade d.owner rfl).symm

theorem facade_clients_dropped (s : Session κ) (owned : Owner → Bool)
    (spared : ∀ owner, isFacade owner = true → owned owner = false) :
    (s.dropOwned owned).facadeClients = s.facadeClients := by
  rw [facadeClients, drop_owned_clients, List.filter_filter]
  apply List.filter_congr
  intro entry _
  cases slot : isFacade entry.1 with
  | false => rfl
  | true => rw [spared entry.1 slot]; rfl

theorem has_facade_dropped (s : Session κ) (owned : Owner → Bool) :
    (s.dropOwned owned).hasFacade = s.hasFacade := by
  refine drop_owned_keeps Session.hasFacade s owned fun s c => ?_
  rw [dismiss_leaves, leave]
  cases c.route <;> rfl

theorem attachment_dropped (s : Session κ) (owned : Owner → Bool) :
    (s.dropOwned owned).transport.attached = s.transport.attached ∧
      (s.dropOwned owned).transport.attachCalls = s.transport.attachCalls := by
  have kept := drop_owned_keeps (fun s => (s.transport.attached, s.transport.attachCalls)) s owned
    fun s c => by
      rw [dismiss_leaves, leave]
      cases c.route <;> rfl
  exact Prod.mk.inj kept

theorem facade_clients_filed (s : Session κ) (owner : Owner) (c : Client)
    (elsewhere : isFacade owner = false) : (s.filed owner c).facadeClients = s.facadeClients := by
  rw [facadeClients, filed, List.filter_append, List.filter_cons, if_neg (by simp [elsewhere])]
  exact List.append_nil _

structure Opened (before after : Session κ) (result : Except SessionError Unit) : Prop where
  calls : after.transport.attachCalls =
    before.transport.attachCalls + if before.transport.attached then 0 else 1
  granted : result = .ok () ↔ before.transport.attached = true ∨ before.transport.attachMode = .attaches
  attached : result = .ok () → after.transport.attached = true
  empty : result = .ok () → after.hasFacade = true ∧ after.facadeClients = []

theorem open_facade_opened (s : Session κ) : Opened s s.openFacade.1 s.openFacade.2 := by
  obtain ⟨calls, attached, granted⟩ := s.transport.attach_outcome
  rw [openFacade]
  rcases outcome : s.transport.attach with ⟨t, cause | _⟩
  · rw [outcome] at calls granted
    have refused : Except.error cause ≠ Except.ok () := by simp
    exact ⟨calls, granted, fun opened => absurd opened refused, fun opened => absurd opened refused⟩
  · rw [outcome] at calls attached granted
    obtain ⟨sameAttached, sameCalls⟩ :=
      attachment_dropped { s with transport := t, hasFacade := true } isFacade
    refine ⟨sameCalls.trans calls, granted, fun _ => sameAttached.trans (attached rfl), fun _ => ?_⟩
    refine ⟨has_facade_dropped _ _, ?_⟩
    rw [facadeClients, drop_owned_clients, List.filter_filter, List.filter_eq_nil_iff]
    intro entry _
    simp

section Shape

variable (slots : List StubDomain)

-- What may be asked while a facade stands. Its slots are reached by their accessors alone, and nothing
-- takes a client out of a slot but the end of the facade.
def Respects : Op κ → Prop
  | .openFacade => False
  | .closeFacade => False
  | .drop (.facade _) => False
  | .access (.facade domain) wire hasEvents =>
    ∃ d ∈ slots, d.wire = domain ∧ d.wire = wire ∧ d.hasEvents = hasEvents
  | _ => True

structure Fits (s : Session κ) : Prop where
  stands : s.hasFacade = true
  keys : (s.facadeClients.map Prod.fst).Nodup
  filled : ∀ entry ∈ s.facadeClients, ∃ d ∈ slots,
    entry.1 = d.owner ∧ entry.2.domain = d.wire ∧ entry.2.route.isSome = d.hasEvents

inductive Accessed (d : StubDomain) (before after : Session κ) : Except SessionError Bool → Prop
  | kept (c : Client) (filled : before.client? d.owner = some c) (same : after = before) :
      Accessed d before after (.ok true)
  | made (c : Client) (empty : before.client? d.owner = none)
      (attached : before.transport.attached = true) (filled : after.client? d.owner = some c)
      (domain : c.domain = d.wire) (route : c.route.isSome = d.hasEvents)
      (others : after.facadeClients = before.facadeClients ++ [(d.owner, c)]) :
      Accessed d before after (.ok false)
  | refused (empty : before.client? d.owner = none) (detached : before.transport.attached = false)
      (same : after = before) : Accessed d before after (.error (.notAttached d.wire))

theorem act_access (s : Session κ) (d : StubDomain) (stands : s.hasFacade = true) :
    ∃ result, (s.act d.access).2 = .accessed result ∧
      (s.act d.access).1.hasFacade = true ∧ Accessed d s (s.act d.access).1 result := by
  have open_ : (isFacade d.owner && !s.hasFacade) = false := by rw [stands]; rfl
  rw [StubDomain.access, act, if_neg (by rw [open_]; simp)]
  rcases s.access_cases d.wire d.hasEvents d.owner with
    ⟨c, slot, same⟩ | ⟨slot, detached, refused⟩ | ⟨after, c, slot, made, accessed⟩
  · rw [same]
    exact ⟨.ok true, rfl, stands, .kept c slot rfl⟩
  · rw [refused]
    exact ⟨_, rfl, stands, .refused slot detached rfl⟩
  · obtain ⟨domain, route⟩ := constructed_parts s d.wire d.hasEvents after c made
    rw [accessed]
    refine ⟨.ok false, rfl, made.hasFacade.trans stands, .made c slot made.attached ?_ domain route ?_⟩
    · change (after.clients ++ [(d.owner, c)]).lookup d.owner = some c
      rw [made.clients]
      exact lookup_append_new _ _ _ slot
    · change (after.clients ++ [(d.owner, c)]).filter _ = _
      rw [made.clients, List.filter_append]
      rfl

theorem with_client_facade (s : Session κ) (owner : Owner) (act : Client → Hub κ → Session κ × Answer)
    (acts : ∀ c hub, (act c hub).1.clients = s.clients ∧ (act c hub).1.hasFacade = s.hasFacade) :
    (s.withClient owner act).1.facadeClients = s.facadeClients ∧
      (s.withClient owner act).1.hasFacade = s.hasFacade :=
  ⟨with_client_keeps facadeClients s owner act fun c hub => congrArg (List.filter _) (acts c hub).1,
    with_client_keeps hasFacade s owner act fun c hub => (acts c hub).2⟩

theorem connect_facade (s : Session κ) (name domain : String) (hasEvents : Bool) :
    (s.connect name domain hasEvents).1.facadeClients = s.facadeClients ∧
      (s.connect name domain hasEvents).1.hasFacade = s.hasFacade := by
  rcases s.connect_cases domain hasEvents name with ⟨_, refused⟩ | ⟨after, c, made, connected⟩
  · rw [refused]
    exact ⟨rfl, rfl⟩
  · have spared := facade_clients_dropped after (fun other => other == .named name) (by
      intro owner slot
      cases owner with
      | facade domain => exact beq_false_of_ne (by simp)
      | named other => cases slot
      | slot domain => cases slot)
    rw [connected, facade_clients_filed _ _ c rfl, spared]
    exact ⟨congrArg (List.filter _) made.clients, (has_facade_dropped after _).trans made.hasFacade⟩

theorem access_facade (s : Session κ) (owner : Owner) (domain : String) (hasEvents : Bool)
    (elsewhere : isFacade owner = false) :
    (s.act (.access owner domain hasEvents)).1.facadeClients = s.facadeClients ∧
      (s.act (.access owner domain hasEvents)).1.hasFacade = s.hasFacade := by
  rw [act, if_neg (by simp [elsewhere])]
  rcases s.access_cases domain hasEvents owner with
    ⟨_, _, same⟩ | ⟨_, _, refused⟩ | ⟨after, c, _, made, accessed⟩
  · rw [same]
    exact ⟨rfl, rfl⟩
  · rw [refused]
    exact ⟨rfl, rfl⟩
  · rw [accessed]
    dsimp only
    rw [facade_clients_filed after owner c elsewhere]
    exact ⟨congrArg (List.filter _) made.clients, made.hasFacade⟩

theorem act_facade (s : Session κ) (op : Op κ) (respects : Respects slots op)
    (elsewhere : ∀ d ∈ slots, op ≠ d.access) :
    (s.act op).1.facadeClients = s.facadeClients ∧ (s.act op).1.hasFacade = s.hasFacade := by
  cases op with
  | connect name domain hasEvents => exact connect_facade s name domain hasEvents
  | drop owner =>
    refine ⟨facade_clients_dropped s _ ?_, has_facade_dropped s _⟩
    intro other slot
    apply beq_false_of_ne
    rintro rfl
    cases other with
    | facade domain => exact respects
    | named name => cases slot
    | slot domain => cases slot
  | access owner domain hasEvents =>
    cases owner with
    | facade name =>
      obtain ⟨d, member, rfl, same, rfl⟩ := respects
      exact absurd (same ▸ rfl) (elsewhere d member)
    | named name => exact access_facade s (.named name) domain hasEvents rfl
    | slot name => exact access_facade s (.slot name) domain hasEvents rfl
  | openFacade => exact respects.elim
  | closeFacade => exact respects.elim
  | add owner event once listener => exact with_client_facade s owner _ fun _ _ => ⟨rfl, rfl⟩
  | off owner id => exact with_client_facade s owner _ fun _ _ => ⟨rfl, rfl⟩
  | count owner event => exact with_client_facade s owner _ fun _ _ => ⟨rfl, rfl⟩
  | describe owner => exact with_client_facade s owner _ fun _ _ => ⟨rfl, rfl⟩
  | request owner command r => exact with_client_facade s owner _ fun _ _ => ⟨rfl, rfl⟩
  | holds | facadeIsOpen | describeSlot | deliver | queue | setAttached | attach | transport =>
    exact ⟨rfl, rfl⟩

theorem act_slots (s : Session κ) (op : Op κ) (respects : Respects slots op)
    (stands : s.hasFacade = true) :
    (∃ d ∈ slots, op = d.access ∧ ∃ result, (s.act op).2 = .accessed result ∧
      (s.act op).1.hasFacade = true ∧ Accessed d s (s.act op).1 result) ∨
    (∀ d ∈ slots, op ≠ d.access) ∧ (s.act op).1.facadeClients = s.facadeClients ∧
      (s.act op).1.hasFacade = true := by
  by_cases elsewhere : ∀ d ∈ slots, op ≠ d.access
  · obtain ⟨clients, facade⟩ := act_facade slots s op respects elsewhere
    exact .inr ⟨elsewhere, clients, facade.trans stands⟩
  · push Not at elsewhere
    obtain ⟨d, member, rfl⟩ := elsewhere
    exact .inl ⟨d, member, rfl, act_access s d stands⟩

theorem owner_slot (d e : StubDomain) (same : d.owner = e.owner) : d.wire = e.wire := by
  cases d
  cases e
  cases same
  rfl

theorem slot_unique (d e : StubDomain) (distinct : (slots.map StubDomain.wire).Nodup)
    (member : d ∈ slots) (other : e ∈ slots) (same : d.owner = e.owner) : d = e :=
  List.inj_on_of_nodup_map distinct member other (owner_slot d e same)

theorem fits_grown (s after : Session κ) (d : StubDomain) (c : Client) (member : d ∈ slots)
    (fits : Fits slots s) (stands : after.hasFacade = true) (empty : s.client? d.owner = none)
    (domain : c.domain = d.wire) (route : c.route.isSome = d.hasEvents)
    (others : after.facadeClients = s.facadeClients ++ [(d.owner, c)]) : Fits slots after where
  stands := stands
  keys := by
    rw [facade_client, List.lookup_eq_none_iff] at empty
    rw [others, List.map_append, List.nodup_append]
    refine ⟨fits.keys, List.nodup_singleton _, ?_⟩
    rintro owner old _ fresh rfl
    obtain ⟨entry, stood, rfl⟩ := List.mem_map.mp old
    exact absurd (List.mem_singleton.mp fresh).symm (by simpa using empty entry stood)
  filled := by
    intro entry stands
    rw [others] at stands
    rcases List.mem_append.mp stands with old | fresh
    · exact fits.filled entry old
    · rw [List.mem_singleton.mp fresh]
      exact ⟨d, member, rfl, domain, route⟩

theorem act_fits (s : Session κ) (op : Op κ) (respects : Respects slots op) (fits : Fits slots s) :
    Fits slots (s.act op).1 := by
  rcases act_slots slots s op respects fits.stands with
    ⟨d, member, rfl, result, _, stands, accessed⟩ | ⟨_, clients, stands⟩
  · cases accessed with
    | kept c _ same => rwa [same]
    | made c empty _ _ domain route others =>
      exact fits_grown slots s _ d c member fits stands empty domain route others
    | refused _ _ same => rwa [same]
  · exact ⟨stands, clients ▸ fits.keys, clients ▸ fits.filled⟩

theorem act_slot (s : Session κ) (op : Op κ) (d : StubDomain)
    (distinct : (slots.map StubDomain.wire).Nodup) (member : d ∈ slots) (respects : Respects slots op)
    (fits : Fits slots s) :
    (s.act op).1.client? d.owner = s.client? d.owner ∧
        (op = d.access → s.transport.attached = true → (s.client? d.owner).isSome) ∨
      op = d.access ∧ s.transport.attached = true ∧ s.client? d.owner = none ∧
        ((s.act op).1.client? d.owner).isSome := by
  rcases act_slots slots s op respects fits.stands with
    ⟨e, other, rfl, result, _, _, accessed⟩ | ⟨elsewhere, clients, _⟩
  · cases accessed with
    | kept c filled same =>
      refine .inl ⟨by rw [same], fun asked _ => ?_⟩
      rw [StubDomain.access, StubDomain.access, Op.access.injEq] at asked
      rw [← asked.1, filled]
      rfl
    | made c empty attached filled _ _ others =>
      by_cases same : e = d
      · subst same
        exact .inr ⟨rfl, attached, empty, by rw [filled]; rfl⟩
      · refine .inl ⟨?_, fun asked => absurd ?_ same⟩
        · rw [facade_client, facade_client, others]
          exact lookup_append_other _ _ _ c fun owner =>
            same (slot_unique slots d e distinct member other owner).symm
        · rw [StubDomain.access, StubDomain.access, Op.access.injEq] at asked
          exact slot_unique slots e d distinct other member asked.1
    | refused empty detached same =>
      exact .inl ⟨by rw [same], fun _ attached => by rw [detached] at attached; cases attached⟩
  · refine .inl ⟨?_, fun asked => absurd asked (elsewhere d member)⟩
    rw [facade_client, facade_client, clients]

theorem hubs_apart (s : Session κ) (due : List Turn) (sound : Sound s s.live due)
    (entry other : Owner × Client) (member : entry ∈ s.clients) (member' : other ∈ s.clients)
    (same : entry.2.hub = other.2.hub) :
    entry = other := by
  have own : (s.clients.map fun entry => entry.2.hub).Nodup := by
    have hubs := sound.own
    rwa [live, List.map_map] at hubs
  exact List.inj_on_of_nodup_map own member member' same

theorem facade_routes_listed (s : Session κ) (due : List Turn) (sound : Sound s s.live due) :
    s.facadeRoutes = s.facadeClients.filterMap fun entry => entry.2.toRoute? := by
  rw [facadeRoutes, sound.routes, live, List.filterMap_map, List.filter_filterMap, facadeClients,
    List.filterMap_filter]
  apply List.filterMap_congr
  intro entry member
  cases leads : entry.2.toRoute? with
  | none => simp [leads]
  | some r =>
    obtain ⟨_, _, hub⟩ := to_route_parts entry.2 r leads
    have led : (s.clients.filter fun entry => isFacade entry.1).any (fun other => other.2.hub == r.hub) =
        isFacade entry.1 := by
      rw [Bool.eq_iff_iff, List.any_eq_true]
      constructor
      · rintro ⟨other, among, same⟩
        obtain ⟨stands, slot⟩ := List.mem_filter.mp among
        rwa [hubs_apart s due sound entry other member stands (hub.trans (beq_iff_eq.mp same).symm)]
      · exact fun slot => ⟨entry, List.mem_filter.mpr ⟨member, slot⟩, beq_iff_eq.mpr hub⟩
    simp [leads, led, Option.filter]

theorem facade_domains_listed (s : Session κ) (due : List Turn) (sound : Sound s s.live due) :
    s.facadeRoutes.map Route.domain =
      (s.facadeClients.filter fun entry => entry.2.route.isSome).map fun entry => entry.2.domain := by
  rw [facade_routes_listed s due sound, List.map_filterMap, ← List.filterMap_eq_map,
    List.filterMap_filter]
  apply List.filterMap_congr
  intro entry _
  rw [Client.toRoute?]
  cases entry.2.route <;> rfl

theorem client_entry (s : Session κ) (owner : Owner) (c : Client) (found : s.client? owner = some c) :
    (owner, c) ∈ s.clients :=
  lookup_mem s.clients owner c found

theorem slot_member (s : Session κ) (d : StubDomain) (c : Client) (found : s.client? d.owner = some c) :
    (d.owner, c) ∈ s.facadeClients :=
  List.mem_filter.mpr ⟨client_entry s d.owner c found, rfl⟩

theorem slot_entry (s : Session κ) (entry : Owner × Client) (d : StubDomain) (fits : Fits slots s)
    (member : entry ∈ s.facadeClients) (owner : entry.1 = d.owner) :
    s.client? d.owner = some entry.2 := by
  cases found : s.client? d.owner with
  | none =>
    rw [facade_client, List.lookup_eq_none_iff] at found
    exact absurd owner.symm (by simpa using found entry member)
  | some c =>
    rw [List.inj_on_of_nodup_map fits.keys member (slot_member s d c found) owner]

theorem facade_domains_distinct (s : Session κ) (fits : Fits slots s) :
    (s.facadeClients.map fun entry => entry.2.domain).Nodup := by
  apply List.Nodup.of_map Owner.facade
  rw [List.map_map]
  refine (List.map_congr_left fun entry member => ?_) ▸ fits.keys
  obtain ⟨d, _, owner, domain, _⟩ := fits.filled entry member
  exact owner.trans (congrArg Owner.facade domain.symm)

theorem facade_routes_exact (s : Session κ) (due : List Turn) (sound : Sound s s.live due)
    (distinct : (slots.map StubDomain.wire).Nodup) (fits : Fits slots s) :
    (s.facadeRoutes.map Route.domain).Perm
      ((slots.filter fun d => d.hasEvents && (s.client? d.owner).isSome).map StubDomain.wire) := by
  rw [facade_domains_listed s due sound]
  rw [List.perm_ext_iff_of_nodup
    ((facade_domains_distinct slots s fits).sublist (List.filter_sublist.map _))
    (distinct.sublist (List.filter_sublist.map _))]
  intro domain
  simp only [List.mem_map, List.mem_filter, Bool.and_eq_true]
  constructor
  · rintro ⟨entry, ⟨member, routed⟩, rfl⟩
    obtain ⟨d, slot, owner, same, events⟩ := fits.filled entry member
    have filled := slot_entry slots s entry d fits member owner
    exact ⟨d, ⟨slot, events ▸ routed, by rw [filled]; rfl⟩, same.symm⟩
  · rintro ⟨d, ⟨slot, events, filled⟩, rfl⟩
    obtain ⟨c, found⟩ := Option.isSome_iff_exists.mp filled
    have member := slot_member s d c found
    obtain ⟨e, other, owner, same, routed⟩ := fits.filled _ member
    obtain rfl : d = e := slot_unique slots d e distinct slot other owner
    exact ⟨(d.owner, c), ⟨member, routed.trans events⟩, same⟩

theorem slots_apart (s : Session κ) (due : List Turn) (sound : Sound s s.live due) (d e : StubDomain)
    (c other : Client) (different : d.wire ≠ e.wire) (filled : s.client? d.owner = some c)
    (alsoFilled : s.client? e.owner = some other) : c.hub ≠ other.hub := fun same =>
  different (owner_slot d e (congrArg Prod.fst (hubs_apart s due sound _ _
    (client_entry s d.owner c filled) (client_entry s e.owner other alsoFilled) same)))

end Shape

end Session

end ProtocolStubs
