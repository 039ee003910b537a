import ProtocolStubs.Session.Operations

set_option autoImplicit false

namespace ProtocolStubs

section Runs

variable {O P A L M T S R σ : Type}

def Program.relabel (op : O → P) : Program ⟨O, A, L, T⟩ σ → Program ⟨P, A, M, T⟩ σ
  | .done => .done
  | .look next => .look fun user => (next user).relabel op
  | .store user next => .store user (next.relabel op)
  | .ask asked next => .ask (op asked) fun answer => (next answer).relabel op

def Errand.relabel (f : L → M) : Errand L T → Errand M T
  | .call listener params => .call (f listener) params
  | .turn t => .turn t

def Job.relabel (op : O → P) (f : L → M) : Job ⟨O, A, L, T⟩ σ → Job ⟨P, A, M, T⟩ σ
  | .run program => .run (program.relabel op)
  | .errand e => .errand (e.relabel f)

def Happening.relabel (f : L → M) : Happening ⟨O, A, L, T⟩ → Happening ⟨P, A, M, T⟩
  | .answered answer => .answered answer
  | .called listener params => .called (f listener) params

namespace Agenda

variable {performS : S → O → S × A × List (Errand L T)} {turnS : S → T → S × List (Errand L T)}
  {performR : R → P → R × A × List (Errand M T)} {turnR : R → T → R × List (Errand M T)}
  (world : S → R) (op : O → P) (f : L → M)

def relabel (a : Agenda ⟨⟨O, A, L, T⟩, S, performS, turnS⟩ σ) :
    Agenda ⟨⟨P, A, M, T⟩, R, performR, turnR⟩ σ :=
  ⟨world a.world, a.user, a.jobs.map (Job.relabel op f), a.history.map (Happening.relabel f)⟩

section Alike

variable
    (performs : ∀ s asked, performR (world s) (op asked) = (world (performS s asked).1,
      (performS s asked).2.1, (performS s asked).2.2.map (Errand.relabel f)))
    (turns : ∀ s t, turnR (world s) t =
      (world (turnS s t).1, (turnS s t).2.map (Errand.relabel f)))
    (behaveS : L → Value → Program ⟨O, A, L, T⟩ σ) (behaveR : M → Value → Program ⟨P, A, M, T⟩ σ)
    (behaves : ∀ listener params, behaveR (f listener) params = (behaveS listener params).relabel op)

include performs turns behaves

theorem advance_relabelled (a : Agenda ⟨⟨O, A, L, T⟩, S, performS, turnS⟩ σ) :
    (a.relabel world op f : Agenda ⟨⟨P, A, M, T⟩, R, performR, turnR⟩ σ).advance behaveR =
      (a.advance behaveS).relabel world op f := by
  obtain ⟨s, user, jobs, history⟩ := a
  cases jobs with
  | nil => rfl
  | cons job rest =>
    cases job with
    | run program =>
      cases program with
      | done => rfl
      | look next => rfl
      | store user next => rfl
      | ask asked next =>
        simp only [advance, relabel, List.map_cons, Job.relabel, Program.relabel, performs,
          List.map_append, List.map_map, List.map_nil, Happening.relabel]
        rfl
    | errand e =>
      cases e with
      | call listener params =>
        simp only [advance, relabel, List.map_cons, Job.relabel, Errand.relabel, behaves,
          List.map_append, List.map_nil, Happening.relabel]
      | turn t =>
        simp only [advance, relabel, List.map_cons, Job.relabel, Errand.relabel, turns,
          List.map_append, List.map_map]
        rfl

theorem advance_by_relabelled (steps : Nat) (a : Agenda ⟨⟨O, A, L, T⟩, S, performS, turnS⟩ σ) :
    advanceBy behaveR steps (a.relabel world op f : Agenda ⟨⟨P, A, M, T⟩, R, performR, turnR⟩ σ) =
      (advanceBy behaveS steps a).relabel world op f := by
  induction steps generalizing a with
  | zero => rfl
  | succ steps ih =>
    rw [advanceBy, advance_relabelled world op f performs turns behaveS behaveR behaves, ih]
    rfl

end Alike

end Agenda

end Runs

variable {κ μ : Type} (f : κ → μ)

def Entry.relabel (entry : Entry κ) : Entry μ := ⟨entry.id, entry.once, f entry.listener⟩

namespace Hub

def relabelTopics (topics : List (String × List (Entry κ))) : List (String × List (Entry μ)) :=
  topics.map fun topic => (topic.1, topic.2.map (Entry.relabel f))

def relabel (h : Hub κ) : Hub μ := ⟨h.nextId, relabelTopics f h.topics⟩

def Op.relabel : Op κ → Op μ
  | .add event once listener => .add event once (f listener)
  | .off id => .off id
  | .emit event params => .emit event params
  | .route domain message => .route domain message
  | .count event => .count event
  | .describe => .describe

theorem file_relabelled (event : String) (entry : Entry κ) (topics : List (String × List (Entry κ))) :
    file event (entry.relabel f) (relabelTopics f topics) = relabelTopics f (file event entry topics) := by
  induction topics with
  | nil => rfl
  | cons topic rest ih =>
    obtain ⟨name, entries⟩ := topic
    rw [relabelTopics, List.map_cons, ← relabelTopics, file, file]
    split
    · rw [relabelTopics, relabelTopics, List.map_cons, List.map_append, List.map_cons, List.map_nil]
    · rw [ih, relabelTopics, relabelTopics, List.map_cons]

theorem keeping_relabelled (keep : String → Entry κ → Bool) (keep' : String → Entry μ → Bool)
    (same : ∀ name entry, keep' name (entry.relabel f) = keep name entry)
    (topics : List (String × List (Entry κ))) :
    keeping keep' (relabelTopics f topics) = relabelTopics f (keeping keep topics) := by
  have kept (topic : String × List (Entry κ)) :
      (topic.2.map (Entry.relabel f)).filter (keep' topic.1) =
        (topic.2.filter (keep topic.1)).map (Entry.relabel f) := by
    rw [List.filter_map]
    congr 1
    exact List.filter_congr fun entry _ => same topic.1 entry
  simp only [keeping, relabelTopics, List.map_map, List.filter_map, Function.comp_def, kept,
    List.isEmpty_map]

theorem entries_relabelled (h : Hub κ) (event : String) :
    (h.relabel f).entries event = (h.entries event).map (Entry.relabel f) := by
  obtain ⟨_, topics⟩ := h
  simp only [relabel, entries]
  induction topics with
  | nil => rfl
  | cons topic rest ih =>
    rw [relabelTopics, List.map_cons, List.lookup_cons, List.lookup_cons, ← relabelTopics]
    cases event == topic.1 with
    | true => rfl
    | false => exact ih

theorem add_relabelled (h : Hub κ) (event : String) (once : Bool) (listener : κ) :
    (h.relabel f).add event once (f listener) =
      ((h.add event once listener).1.relabel f, (h.add event once listener).2) := by
  simp only [add, relabel, ← file_relabelled]
  rfl

theorem off_relabelled (h : Hub κ) (id : Nat) :
    (h.relabel f).off id = ((h.off id).1.relabel f, (h.off id).2) := by
  have found : (relabelTopics f h.topics).any (fun topic => topic.2.any fun entry => entry.id == id) =
      h.topics.any fun topic => topic.2.any fun entry => entry.id == id := by
    simp only [relabelTopics, List.any_map, Function.comp_def]
    rfl
  simp only [off, relabel, found,
    keeping_relabelled f (fun _ entry => entry.id ≠ id) (fun _ entry => entry.id ≠ id) fun _ _ => rfl]

theorem take_relabelled (h : Hub κ) (event : String) :
    (h.relabel f).take event = ((h.take event).1.relabel f, (h.take event).2.map f) := by
  have drops := keeping_relabelled f (fun name entry => name ≠ event || !entry.once)
    (fun name entry => name ≠ event || !entry.once) (fun _ _ => rfl) h.topics
  simp only [take, entries_relabelled, List.map_map]
  rw [relabel, drops]
  rfl

theorem route_relabelled (h : Hub κ) (domain : String) (m : Message) :
    (h.relabel f).route domain m = ((h.route domain m).1.relabel f, (h.route domain m).2.map f) := by
  unfold route
  cases m.eventFor? domain with
  | none => rfl
  | some event => exact take_relabelled f h event

theorem count_relabelled (h : Hub κ) (event : String) : (h.relabel f).count event = h.count event := by
  rw [count, entries_relabelled, List.length_map, count]

theorem counts_relabelled (h : Hub κ) : (h.relabel f).counts = h.counts := by
  simp only [counts, relabel, relabelTopics, List.map_map, Function.comp_def, List.length_map]

theorem describe_relabelled (h : Hub κ) : (h.relabel f).describe = h.describe := by
  rw [describe, counts_relabelled, describe]

theorem calls_relabelled {τ : Type} (listeners : List κ) (params : Value) :
    calls (τ := τ) (listeners.map f) params = (calls listeners params).map (Errand.relabel f) := by
  simp only [calls, List.map_map]
  rfl

theorem perform_relabelled (h : Hub κ) (op : Op κ) :
    (h.relabel f).perform (op.relabel f) =
      ((h.perform op).1.relabel f, (h.perform op).2.1, (h.perform op).2.2.map (Errand.relabel f)) := by
  cases op with
  | add event once listener => simp only [perform, Op.relabel, add_relabelled, List.map_nil]
  | off id => simp only [perform, Op.relabel, off_relabelled, List.map_nil]
  | emit event params =>
    simp only [perform, Op.relabel, take_relabelled, List.length_map, calls_relabelled]
  | route domain message =>
    simp only [perform, Op.relabel, route_relabelled, List.length_map, calls_relabelled]
  | count event => simp only [perform, Op.relabel, count_relabelled, List.map_nil]
  | describe => simp only [perform, Op.relabel, describe_relabelled, List.map_nil]

theorem run_relabelled {σ : Type} (behave : κ → Value → Program (interface κ) σ)
    (behave' : μ → Value → Program (interface μ) σ)
    (same : ∀ listener params,
      behave' (f listener) params = (behave listener params).relabel (Op.relabel f))
    (steps : Nat) (a : Agenda (world κ) σ) :
    Agenda.advanceBy (w := world μ) behave' steps (a.relabel (relabel f) (Op.relabel f) f) =
      (Agenda.advanceBy behave steps a).relabel (relabel f) (Op.relabel f) f :=
  Agenda.advance_by_relabelled (relabel f) (Op.relabel f) f (perform_relabelled f) (fun _ _ => rfl)
    behave behave' same steps a

end Hub

theorem describe_client_relabelled (c : Client) (h : Hub κ) : c.describe (h.relabel f) = c.describe h := by
  unfold Client.describe
  rw [Hub.describe_relabelled]

def HeldHub.relabel (held : HeldHub κ) : HeldHub μ := ⟨held.key, held.holders, held.hub.relabel f⟩

namespace Session

def relabel (s : Session κ) : Session μ :=
  ⟨s.transport, s.hubs.map (HeldHub.relabel f), s.nextHub, s.clients, s.hasFacade⟩

def Op.relabel : Op κ → Op μ
  | .connect name domain hasEvents => .connect name domain hasEvents
  | .drop owner => .drop owner
  | .access owner domain hasEvents => .access owner domain hasEvents
  | .holds owner => .holds owner
  | .openFacade => .openFacade
  | .closeFacade => .closeFacade
  | .facadeIsOpen => .facadeIsOpen
  | .add owner event once listener => .add owner event once (f listener)
  | .off owner id => .off owner id
  | .count owner event => .count owner event
  | .describe owner => .describe owner
  | .describeSlot owner => .describeSlot owner
  | .request owner command r => .request owner command r
  | .deliver message => .deliver message
  | .queue method reply => .queue method reply
  | .setAttached attached => .setAttached attached
  | .attach => .attach
  | .transport => .transport

variable (s : Session κ)

theorem transport_relabelled : (s.relabel f).transport = s.transport := rfl

theorem client_relabelled (owner : Owner) : (s.relabel f).client? owner = s.client? owner := rfl

theorem hub_relabelled (key : Nat) : (s.relabel f).hub? key = (s.hub? key).map (Hub.relabel f) := by
  simp only [hub?, relabel, List.find?_map, Option.map_map]
  rfl

theorem on_hub_relabelled (key : Nat) (change : HeldHub κ → HeldHub κ)
    (change' : HeldHub μ → HeldHub μ)
    (same : ∀ held, change' (held.relabel f) = (change held).relabel f) :
    onHub key change' (s.relabel f) = (onHub key change s).relabel f := by
  have changed (held : HeldHub κ) :
      (if (held.relabel f).key = key then change' (held.relabel f) else held.relabel f) =
        (if held.key = key then change held else held).relabel f := by
    rw [apply_ite (HeldHub.relabel f), same]
    rfl
  simp only [onHub, relabel, List.map_map, Function.comp_def, changed]

theorem set_hub_relabelled (key : Nat) (hub : Hub κ) :
    setHub key (hub.relabel f) (s.relabel f) = (setHub key hub s).relabel f :=
  on_hub_relabelled f s key _ _ fun _ => rfl

theorem hold_relabelled (key : Nat) : hold key (s.relabel f) = (hold key s).relabel f :=
  on_hub_relabelled f s key _ _ fun _ => rfl

theorem release_relabelled (key : Nat) : release key (s.relabel f) = (release key s).relabel f := by
  have fewer := on_hub_relabelled f s key (fun held => { held with holders := held.holders - 1 })
    (fun held => { held with holders := held.holders - 1 }) fun _ => rfl
  simp only [release, fewer]
  simp only [relabel, List.filter_map]
  rfl

theorem construct_relabelled (domain : String) (hasEvents : Bool) :
    (s.relabel f).construct domain hasEvents =
      ((s.construct domain hasEvents).1.relabel f, (s.construct domain hasEvents).2) := by
  unfold construct
  rw [apply_ite Prod.fst, apply_ite Prod.snd, apply_ite (relabel f)]
  change (if s.transport.attached = true then _ else _) = _
  split
  · cases hasEvents <;> simp [relabel, HeldHub.relabel, Hub.relabel, Hub.relabelTopics, Hub.empty]
  · rfl

theorem dismiss_relabelled (c : Client) : (s.relabel f).dismiss c = (s.dismiss c).relabel f := by
  unfold dismiss
  cases c.route with
  | none => exact release_relabelled f s c.hub
  | some id =>
    exact release_relabelled f { s with transport := s.transport.closeRoute id } c.hub

theorem dismissed_relabelled (gone : List Client) :
    gone.foldl dismiss (s.relabel f) = (gone.foldl dismiss s).relabel f := by
  induction gone generalizing s with
  | nil => rfl
  | cons c rest ih => rw [List.foldl_cons, dismiss_relabelled, ih, List.foldl_cons]

theorem drop_owned_relabelled (owned : Owner → Bool) :
    (s.relabel f).dropOwned owned = (s.dropOwned owned).relabel f :=
  dismissed_relabelled f { s with clients := (s.clients.partition fun entry => owned entry.1).2 } _

theorem connect_relabelled (name domain : String) (hasEvents : Bool) :
    (s.relabel f).connect name domain hasEvents =
      ((s.connect name domain hasEvents).1.relabel f, (s.connect name domain hasEvents).2) := by
  unfold connect
  rw [construct_relabelled]
  rcases s.construct domain hasEvents with ⟨made, cause | client⟩
  · rfl
  · simp only [drop_owned_relabelled]
    rfl

theorem access_relabelled (owner : Owner) (domain : String) (hasEvents : Bool) :
    (s.relabel f).access owner domain hasEvents =
      ((s.access owner domain hasEvents).1.relabel f, (s.access owner domain hasEvents).2) := by
  unfold access
  rw [client_relabelled]
  cases s.client? owner with
  | some _ => rfl
  | none =>
    dsimp only
    rw [construct_relabelled]
    rcases s.construct domain hasEvents with ⟨made, cause | client⟩ <;> rfl

theorem open_facade_relabelled :
    (s.relabel f).openFacade = (s.openFacade.1.relabel f, s.openFacade.2) := by
  unfold openFacade
  rw [transport_relabelled]
  rcases s.transport.attach with ⟨transport, cause | ⟨⟩⟩
  · rfl
  · have dropped := drop_owned_relabelled f { s with transport := transport, hasFacade := true } isFacade
    exact congrArg (·, Except.ok ()) dropped

theorem with_client_relabelled (owner : Owner) (act : Client → Hub κ → Session κ × Answer)
    (act' : Client → Hub μ → Session μ × Answer)
    (same : ∀ client hub, act' client (hub.relabel f) =
      ((act client hub).1.relabel f, (act client hub).2)) :
    (s.relabel f).withClient owner act' =
      ((s.withClient owner act).1.relabel f, (s.withClient owner act).2) := by
  unfold withClient
  rw [client_relabelled]
  cases s.client? owner with
  | none => rfl
  | some client =>
    simp only [hub_relabelled]
    cases s.hub? client.hub with
    | none => rfl
    | some hub => exact same client hub

theorem act_relabelled (op : Op κ) :
    (s.relabel f).act (op.relabel f) = ((s.act op).1.relabel f, (s.act op).2) := by
  cases op with
  | connect name domain hasEvents => simp only [act, Op.relabel, connect_relabelled]
  | drop owner =>
    simp only [act, Op.relabel, drop, drop_owned_relabelled]
    rfl
  | access owner domain hasEvents =>
    simp only [act, Op.relabel, access_relabelled]
    change (if (isFacade owner && !s.hasFacade) = true then _ else _) = _
    split <;> rfl
  | openFacade => simp only [act, Op.relabel, open_facade_relabelled]
  | closeFacade =>
    have dropped := drop_owned_relabelled f { s with hasFacade := false } isFacade
    exact congrArg (·, Answer.was s.hasFacade) dropped
  | add owner event once listener =>
    refine with_client_relabelled f s owner _ _ fun client hub => ?_
    simp only [Hub.add_relabelled, set_hub_relabelled]
  | off owner id =>
    refine with_client_relabelled f s owner _ _ fun client hub => ?_
    simp only [Hub.off_relabelled, set_hub_relabelled]
  | count owner event =>
    refine with_client_relabelled f s owner _ _ fun client hub => ?_
    simp only [Hub.count_relabelled]
  | describe owner =>
    refine with_client_relabelled f s owner _ _ fun client hub => ?_
    rw [describe_client_relabelled]
  | request owner command r => exact with_client_relabelled f s owner _ _ fun _ _ => rfl
  | holds | facadeIsOpen | describeSlot | deliver | queue | setAttached | attach | transport => rfl

theorem perform_relabelled (op : Op κ) :
    (s.relabel f).perform (op.relabel f) =
      ((s.perform op).1.relabel f, (s.perform op).2.1, (s.perform op).2.2.map (Errand.relabel f)) := by
  have errands : (s.relabel f).errands (op.relabel f) = (s.errands op).map (Errand.relabel f) := by
    cases op with
    | deliver message =>
      simp only [Session.errands, Op.relabel, List.map_map]
      rfl
    | _ => rfl
  simp only [perform, act_relabelled, errands]

theorem turn_relabelled (t : Turn) :
    (s.relabel f).turn t = ((s.turn t).1.relabel f, (s.turn t).2.map (Errand.relabel f)) := by
  cases t with
  | deliver route message =>
    simp only [turn, hub_relabelled]
    cases s.hub? route.hub with
    | none => rfl
    | some hub =>
      simp only [Option.map_some, Hub.route_relabelled, set_hub_relabelled, hold_relabelled,
        Hub.calls_relabelled, List.map_append]
      rfl
  | release key => exact congrArg (·, []) (release_relabelled f s key)

theorem run_relabelled {σ : Type} (behave : κ → Value → Program (interface κ) σ)
    (behave' : μ → Value → Program (interface μ) σ)
    (same : ∀ listener params,
      behave' (f listener) params = (behave listener params).relabel (Op.relabel f))
    (steps : Nat) (a : Agenda (world κ) σ) :
    Agenda.advanceBy (w := world μ) behave' steps (a.relabel (relabel f) (Op.relabel f) f) =
      (Agenda.advanceBy behave steps a).relabel (relabel f) (Op.relabel f) f :=
  Agenda.advance_by_relabelled (relabel f) (Op.relabel f) f (perform_relabelled f) (turn_relabelled f)
    behave behave' same steps a

end Session

end ProtocolStubs
