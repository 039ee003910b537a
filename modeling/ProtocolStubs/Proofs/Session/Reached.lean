import ProtocolStubs.Proofs.Session.Soundness

set_option autoImplicit false

namespace ProtocolStubs

theorem filter_map_none {α β γ : Type} (make : α → β) (read : β → Option γ) (values : List α)
    (silent : ∀ a, read (make a) = none) : (values.map make).filterMap read = [] := by
  rw [List.filterMap_map]
  exact List.filterMap_eq_nil_iff.mpr fun a _ => silent a

def Errand.turn? {κ τ : Type} : Errand κ τ → Option τ
  | .turn t => some t
  | .call _ _ => none

def Job.turn? {i : Interface} {σ : Type} : Job i σ → Option i.Turn
  | .errand e => e.turn?
  | .run _ => none

def dueTurns {i : Interface} {σ : Type} (jobs : List (Job i σ)) : List i.Turn :=
  jobs.filterMap Job.turn?

theorem due_errands {i : Interface} {σ : Type} (errands : List (Errand i.Listener i.Turn))
    (rest : List (Job i σ)) :
    dueTurns (errands.map .errand ++ rest) = errands.filterMap Errand.turn? ++ dueTurns rest := by
  rw [dueTurns, List.filterMap_append, List.filterMap_map]
  rfl

theorem Hub.calls_turns {κ τ : Type} (listeners : List κ) (params : Value) :
    (Hub.calls (τ := τ) listeners params).filterMap Errand.turn? = [] :=
  filter_map_none _ _ listeners fun _ => rfl

namespace Exchange

def Unrouted {α : Type} (x : Exchange α) : Prop :=
  ∀ t : Transport, (x t).2.routes = t.routes ∧ (x t).2.nextRoute = t.nextRoute

variable {α β : Type}

theorem unrouted_bind (x : Exchange α) (f : α → Exchange β) (first : Unrouted x)
    (second : ∀ a, Unrouted (f a)) : Unrouted (x >>= f) := by
  intro t
  obtain ⟨routes, next⟩ := first t
  have run : (x >>= f) t = match x t with
      | (.ok a, u) => f a u
      | (.error cause, u) => (.error cause, u) := by
    change (match x t with | (r, u) => (ExceptT.bindCont f r) u) = _
    rcases x t with ⟨result | result, u⟩ <;> rfl
  rw [run]
  rcases after : x t with ⟨cause | a, u⟩
  · rw [after] at routes next
    exact ⟨routes, next⟩
  · rw [after] at routes next
    obtain ⟨routes', next'⟩ := second a u
    exact ⟨routes'.trans routes, next'.trans next⟩

theorem unrouted_lift (e : Except CallError α) : Unrouted (liftM e : Exchange α) :=
  fun _ => ⟨by cases e <;> rfl, by cases e <;> rfl⟩

theorem unrouted_map (f : α → β) (x : Exchange α) (first : Unrouted x) : Unrouted (f <$> x) :=
  unrouted_bind x (fun a => pure (f a)) first fun _ _ => ⟨rfl, rfl⟩

theorem unrouted_call (domain command : String) (params : Option Value) :
    Unrouted (call domain command params) := by
  intro t
  unfold call Transport.send
  dsimp only
  cases (t.replies.lookup (qualified domain command)).getD (.ok .empty) with
  | error cause => exact ⟨rfl, rfl⟩
  | ok reply =>
    dsimp only
    cases reply.failure? (qualified domain command) <;> exact ⟨rfl, rfl⟩

theorem unrouted_send (codec : Codec α) (domain command : String) (params : Option α) :
    Unrouted (send codec domain command params) :=
  unrouted_bind _ _ (unrouted_lift _) fun given => unrouted_call domain command given

theorem unrouted_invoke (params : Codec α) (result : Codec β) (domain command : String)
    (given : Option α) : Unrouted (invoke params result domain command given) :=
  unrouted_bind _ _ (unrouted_send params domain command given) fun _ => unrouted_lift _

theorem unrouted_fetch (result : Codec β) (domain command : String) :
    Unrouted (fetch result domain command) :=
  unrouted_bind _ _ (unrouted_call domain command none) fun _ => unrouted_lift _

end Exchange

namespace Session

variable {κ σ : Type}

theorem exchange_unrouted (domain command : String) (r : Request) :
    Exchange.Unrouted (exchange domain command r) := by
  cases r with
  | call params => exact Exchange.unrouted_map _ _ (Exchange.unrouted_call domain command params)
  | send params => exact Exchange.unrouted_map _ _ (Exchange.unrouted_send _ domain command params)
  | fetch result => exact Exchange.unrouted_map _ _ (Exchange.unrouted_fetch _ domain command)
  | invoke params result =>
    exact Exchange.unrouted_map _ _ (Exchange.unrouted_invoke _ _ domain command params)

theorem transport_sound (s : Session κ) (live : List Client) (due : List Turn) (t : Transport)
    (routes : t.routes = s.transport.routes) (next : t.nextRoute = s.transport.nextRoute)
    (sound : Sound s live due) : Sound { s with transport := t } live due where
  held := sound.held
  own := sound.own
  routes := routes.trans sound.routes
  ascending := by
    change t.routes.Pairwise _
    rw [routes]
    exact sound.ascending
  bound := by
    change ∀ r ∈ t.routes, Bound t.nextRoute s.nextHub live r
    rw [routes, next]
    exact sound.bound
  due := by
    change ∀ r m, Turn.deliver r m ∈ due → Bound t.nextRoute s.nextHub live r
    rw [next]
    exact sound.due

theorem set_hub_sound (s : Session κ) (live : List Client) (due : List Turn) (key : Nat) (hub : Hub κ)
    (logged : ∃ log, hub.Reads log) (sound : Sound s live due) :
    Sound (s.setHub key hub) live due :=
  ⟨set_hub_held s key hub _ logged sound.held, sound.own, sound.routes, sound.ascending,
    sound.bound, sound.due⟩

theorem connect_sound (s : Session κ) (due : List Turn) (name domain : String) (hasEvents : Bool)
    (sound : Sound s s.live due) :
    Sound (s.connect name domain hasEvents).1 (s.connect name domain hasEvents).1.live due := by
  rcases s.connect_cases domain hasEvents name with ⟨_, refused⟩ | ⟨after, c, made, connected⟩
  · rw [refused]
    exact sound
  · have kept : Sound after (after.live ++ [c]) due := by
      rw [live, made.clients]
      exact made.sound _ due sound
    rw [connected]
    exact filed_sound _ _ c due (drop_owned_sound after [c] due _ kept)

theorem access_sound (s : Session κ) (due : List Turn) (owner : Owner) (domain : String)
    (hasEvents : Bool) (sound : Sound s s.live due) :
    Sound (s.access owner domain hasEvents).1 (s.access owner domain hasEvents).1.live due := by
  rcases s.access_cases domain hasEvents owner with
    ⟨_, _, same⟩ | ⟨_, _, refused⟩ | ⟨after, c, _, made, accessed⟩
  · rw [same]
    exact sound
  · rw [refused]
    exact sound
  · rw [accessed]
    refine filed_sound after owner c due ?_
    rw [live, made.clients]
    exact made.sound _ due sound

theorem drop_sound (s : Session κ) (due : List Turn) (owned : Owner → Bool)
    (sound : Sound s s.live due) : Sound (s.dropOwned owned) (s.dropOwned owned).live due := by
  have dropped := drop_owned_sound s [] due owned (by rwa [List.append_nil])
  rwa [List.append_nil] at dropped

theorem attach_routes (t : Transport) :
    t.attach.1.routes = t.routes ∧ t.attach.1.nextRoute = t.nextRoute := by
  unfold Transport.attach Transport.tryAttach
  split
  · exact ⟨rfl, rfl⟩
  · cases t.attachMode with
    | attaches => exact ⟨rfl, rfl⟩
    | fails cause => exact ⟨rfl, rfl⟩
    | ignores =>
      dsimp only
      split <;> exact ⟨rfl, rfl⟩

theorem open_facade_sound (s : Session κ) (due : List Turn) (sound : Sound s s.live due) :
    Sound s.openFacade.1 s.openFacade.1.live due := by
  obtain ⟨routes, next⟩ := attach_routes s.transport
  have attached := transport_sound s s.live due s.transport.attach.1 routes next sound
  rw [openFacade]
  rcases result : s.transport.attach with ⟨t, cause | _⟩
  · rw [result] at attached
    exact attached
  · rw [result] at attached
    apply drop_sound { s with transport := t, hasFacade := true } due isFacade
    exact sound_elsewhere _ _ _ due attached rfl rfl rfl

theorem with_client_sound (s : Session κ) (due : List Turn) (owner : Owner)
    (act : Client → Hub κ → Session κ × Answer) (sound : Sound s s.live due)
    (acts : ∀ c hub log, s.hub? c.hub = some hub → hub.Reads log →
      Sound (act c hub).1 (act c hub).1.live due) :
    Sound (s.withClient owner act).1 (s.withClient owner act).1.live due := by
  rw [withClient]
  cases s.client? owner with
  | none => exact sound
  | some c =>
    dsimp only
    cases found : s.hub? c.hub with
    | none => exact sound
    | some hub =>
      obtain ⟨one, member, _, rfl⟩ := (hub_iff s c.hub hub sound.held.keys).mp found
      obtain ⟨log, reads⟩ := sound.held.logged one member
      exact acts c one.hub log found reads

theorem act_sound (s : Session κ) (due : List Turn) (op : Op κ) (sound : Sound s s.live due) :
    Sound (s.act op).1 (s.act op).1.live due := by
  cases op with
  | connect name domain hasEvents => exact connect_sound s due name domain hasEvents sound
  | drop owner => exact drop_sound s due (fun other => other == owner) sound
  | access owner domain hasEvents =>
    rw [act]
    split
    · exact sound
    · exact access_sound s due owner domain hasEvents sound
  | holds owner => exact sound
  | openFacade => exact open_facade_sound s due sound
  | closeFacade =>
    exact drop_sound { s with hasFacade := false } due isFacade
      (sound_elsewhere s _ _ due sound rfl rfl rfl)
  | facadeIsOpen => exact sound
  | add owner event once listener =>
    apply with_client_sound s due owner _ sound
    intro c hub log _ reads
    exact set_hub_sound s s.live due c.hub _
      ⟨_, (Hub.add_reads hub log event once listener reads).1⟩ sound
  | off owner id =>
    apply with_client_sound s due owner _ sound
    intro c hub log _ reads
    exact set_hub_sound s s.live due c.hub _ ⟨_, (Hub.off_reads hub log id reads).1⟩ sound
  | count owner event => exact with_client_sound s due owner _ sound fun _ _ _ _ _ => sound
  | describe owner => exact with_client_sound s due owner _ sound fun _ _ _ _ _ => sound
  | describeSlot owner => exact sound
  | request owner command r =>
    apply with_client_sound s due owner _ sound
    intro c _ _ _ _
    obtain ⟨routes, next⟩ := exchange_unrouted c.domain command r s.transport
    exact transport_sound s s.live due _ routes next sound
  | deliver message => exact sound
  | queue method reply => exact transport_sound s s.live due _ rfl rfl sound
  | setAttached attached => exact transport_sound s s.live due _ rfl rfl sound
  | attach =>
    obtain ⟨routes, next⟩ := attach_routes s.transport
    exact transport_sound s s.live due _ routes next sound
  | transport => exact sound

theorem released_append (due later : List Turn) :
    released (due ++ later) = released due ++ released later := List.filterMap_append

theorem released_deliveries (routes : List Route) (m : Message) :
    released (routes.map fun r => .deliver r m) = [] := by
  induction routes with
  | nil => rfl
  | cons r rest ih => exact ih

theorem sound_later (s : Session κ) (live : List Client) (t : Turn) (due : List Turn)
    (sound : Sound s live (t :: due)) : ∀ r m, Turn.deliver r m ∈ due →
      Bound s.transport.nextRoute s.nextHub live r :=
  fun r m member => sound.due r m (List.mem_cons_of_mem t member)

theorem deliver_sound (s : Session κ) (due : List Turn) (m : Message) (sound : Sound s s.live due) :
    Sound s s.live (s.transport.routes.map (fun r => .deliver r m) ++ due) where
  held := by
    rw [released_append, released_deliveries]
    exact sound.held
  own := sound.own
  routes := sound.routes
  ascending := sound.ascending
  bound := sound.bound
  due := by
    intro r n member
    rcases List.mem_append.mp member with fresh | old
    · obtain ⟨_, stands, same⟩ := List.mem_map.mp fresh
      cases same
      exact sound.bound r stands
    · exact sound.due r n old

theorem turn_sound (s : Session κ) (due : List Turn) (t : Turn) (sound : Sound s s.live (t :: due)) :
    Sound (s.turn t).1 (s.turn t).1.live
      ((s.turn t).2.filterMap Errand.turn? ++ due) := by
  have later := sound_later s s.live t due sound
  cases t with
  | release key =>
    have held : Held s.hubs s.nextHub (key :: (s.live.map Client.hub ++ released due)) :=
      held_perm _ _ _ _ List.perm_middle sound.held
    exact ⟨release_held s key _ held, sound.own, sound.routes, sound.ascending, sound.bound, later⟩
  | deliver r m =>
    rw [turn]
    cases found : s.hub? r.hub with
    | none => exact ⟨sound.held, sound.own, sound.routes, sound.ascending, sound.bound, later⟩
    | some hub =>
      obtain ⟨one, member, same, rfl⟩ := (hub_iff s r.hub hub sound.held.keys).mp found
      obtain ⟨log, reads⟩ := sound.held.logged one member
      have changed := set_hub_held s r.hub (one.hub.route r.domain m).1 _
        ⟨_, (Hub.route_reads one.hub log r.domain m reads).1⟩ sound.held
      have named : r.hub ∈ s.live.map Client.hub ++ released due :=
        Decidable.byContradiction fun unnamed => by
          rw [hub_unnamed s r.hub _ unnamed sound.held] at found
          cases found
      have held := held_perm _ _ _ _ List.perm_middle.symm (hold_held _ r.hub _ named changed)
      have owes : (Hub.calls (one.hub.route r.domain m).2 m.params ++
          [Errand.turn (Turn.release r.hub)]).filterMap Errand.turn? = [Turn.release r.hub] := by
        rw [List.filterMap_append, Hub.calls_turns]
        rfl
      dsimp only
      rw [owes]
      refine ⟨held, sound.own, sound.routes, sound.ascending, sound.bound, ?_⟩
      intro route n among
      rcases List.mem_cons.mp among with release | old
      · cases release
      · exact later route n old

theorem deliver_errands (s : Session κ) (m : Message) :
    (s.errands (.deliver m)).filterMap Errand.turn? =
      s.transport.routes.map fun r => Turn.deliver r m := by
  rw [errands, List.filterMap_map]
  exact congrFun (List.filterMap_eq_map' ..) s.transport.routes

theorem perform_sound (s : Session κ) (due : List Turn) (op : Op κ) (sound : Sound s s.live due) :
    Sound (s.perform op).1 (s.perform op).1.live
      ((s.perform op).2.2.filterMap Errand.turn? ++ due) := by
  have acted := act_sound s due op sound
  cases op with
  | deliver m =>
    change Sound s s.live ((s.errands (.deliver m)).filterMap Errand.turn? ++ due)
    rw [deliver_errands]
    exact deliver_sound s due m sound
  | _ => exact acted

theorem advance_sound (behave : κ → Value → Program (interface κ) σ) (a : Agenda (world κ) σ)
    (sound : Sound a.world a.world.live (dueTurns a.jobs)) :
    Sound (a.advance behave).world (a.advance behave).world.live
      (dueTurns (a.advance behave).jobs) := by
  obtain ⟨s, user, jobs, history⟩ := a
  cases jobs with
  | nil => exact sound
  | cons job rest =>
    cases job with
    | run program =>
      cases program with
      | done => exact sound
      | look next => exact sound
      | store user next => exact sound
      | ask op next =>
        change Sound (s.perform op).1 (s.perform op).1.live
          (dueTurns ((s.perform op).2.2.map (Job.errand (i := interface κ)) ++
            .run (next (s.perform op).2.1) :: rest))
        rw [due_errands]
        exact perform_sound s (dueTurns rest) op sound
    | errand e =>
      cases e with
      | call listener params => exact sound
      | turn t =>
        change Sound (s.turn t).1 (s.turn t).1.live
          (dueTurns ((s.turn t).2.map (Job.errand (i := interface κ)) ++ rest))
        rw [due_errands]
        exact turn_sound s (dueTurns rest) t sound

theorem reached_sound (behave : κ → Value → Program (interface κ) σ)
    (program : Program (interface κ) σ) (user : σ) (attached : Bool) (mode : AttachMode)
    (steps : Nat) :
    let a := Agenda.advanceBy behave steps
      (.start (w := world κ) (.start attached mode) user program)
    Sound a.world a.world.live (dueTurns a.jobs) :=
  Agenda.advance_by_keeps (w := world κ) behave
    (fun a => Sound a.world a.world.live (dueTurns a.jobs)) (advance_sound behave) steps _
    (start_sound attached mode)

end Session

end ProtocolStubs
