import ProtocolStubs.Proofs.Session.Reached
import ProtocolStubs.Proofs.Session.Stages

set_option autoImplicit false

namespace ProtocolStubs.Session

open Exchange (Course written call send invoke fetch)

variable {κ σ : Type}

namespace Request

def wire : Request → Except PayloadError Value
  | .call params => .ok (params.getD .empty)
  | .send params => written Payload.Kind.any.codec params
  | .fetch _ => .ok .empty
  | .invoke params _ => written Payload.Kind.any.codec params

def read : Request → Option Value → Except PayloadError Outcome
  | .call _, result => .ok (.raw result)
  | .send _, result => .ok (.raw result)
  | .fetch kind, result => (kind.codec.decode (result.getD .empty)).map .typed
  | .invoke _ kind, result => (kind.codec.decode (result.getD .empty)).map .typed

end Request

theorem exchange_course (domain command : String) (r : Request) (t : Transport) :
    Course r.wire (qualified domain command) r.read t (exchange domain command r t).1
      (exchange domain command r t).2 := by
  have raw : ∀ a, (Except.ok (Outcome.raw a) : Except CallError Outcome) =
      (Except.ok (Outcome.raw a)).mapError .payload := fun _ => rfl
  have typed : ∀ d, (Except.ok (Outcome.typed d) : Except CallError Outcome) =
      (Except.ok (Outcome.typed d)).mapError .payload := fun _ => rfl
  cases r with
  | call params =>
    simp only [exchange, Exchange.map_followed]
    exact Exchange.course_followed _ _ raw _ (Exchange.call_course domain command params t)
  | send params =>
    simp only [exchange, Exchange.map_followed]
    exact Exchange.course_followed _ _ raw _ (Exchange.send_course _ domain command params t)
  | fetch kind =>
    simp only [exchange, Exchange.map_followed]
    exact Exchange.course_followed _ _ typed _
      (Exchange.invoke_course Payload.Kind.any.codec kind.codec domain command none t)
  | invoke params kind =>
    simp only [exchange, Exchange.map_followed]
    exact Exchange.course_followed _ _ typed _
      (Exchange.invoke_course _ kind.codec domain command params t)

structure Asking where
  client : Client
  command : String
  request : Request

namespace Asking

def method (q : Asking) : String := q.client.domain ++ "." ++ q.command

def command? (q : Asking) : Option (String × Value) :=
  q.request.wire.toOption.map fun params => (q.method, params)

end Asking

def asking? (a : Agenda (world κ) σ) : Option Asking :=
  match a.jobs with
  | .run (.ask (.request owner command request) _) :: _ =>
    (a.world.client? owner).map fun client => ⟨client, command, request⟩
  | _ => none

theorem dismiss_sent (s : Session κ) (c : Client) :
    (s.dismiss c).transport.sent = s.transport.sent := by
  rw [dismiss_leaves, leave]
  cases c.route <;> rfl

theorem drop_owned_sent (s : Session κ) (owned : Owner → Bool) :
    (s.dropOwned owned).transport.sent = s.transport.sent :=
  drop_owned_keeps (fun s => s.transport.sent) s owned dismiss_sent

theorem connect_sent (s : Session κ) (name domain : String) (hasEvents : Bool) :
    (s.connect name domain hasEvents).1.transport.sent = s.transport.sent := by
  rcases s.connect_cases domain hasEvents name with ⟨_, refused⟩ | ⟨after, c, made, connected⟩
  · rw [refused]
  · rw [connected]
    exact (drop_owned_sent after _).trans made.sent

theorem access_sent (s : Session κ) (owner : Owner) (domain : String) (hasEvents : Bool) :
    (s.access owner domain hasEvents).1.transport.sent = s.transport.sent := by
  rcases s.access_cases domain hasEvents owner with
    ⟨_, _, same⟩ | ⟨_, _, refused⟩ | ⟨after, c, _, made, accessed⟩
  · rw [same]
  · rw [refused]
  · rw [accessed]
    exact made.sent

theorem attach_sent (t : Transport) : t.attach.1.sent = t.sent := by
  unfold Transport.attach Transport.tryAttach
  split
  · rfl
  · cases t.attachMode with
    | attaches => rfl
    | fails cause => rfl
    | ignores =>
      dsimp only
      split <;> rfl

theorem open_facade_sent (s : Session κ) : s.openFacade.1.transport.sent = s.transport.sent := by
  have attached := attach_sent s.transport
  rw [openFacade]
  rcases result : s.transport.attach with ⟨t, cause | _⟩
  · rw [result] at attached
    exact attached
  · rw [result] at attached
    exact (drop_owned_sent { s with transport := t, hasFacade := true } isFacade).trans attached

theorem with_client_keeps {α : Type} (read : Session κ → α) (s : Session κ) (owner : Owner)
    (act : Client → Hub κ → Session κ × Answer) (acts : ∀ c hub, read (act c hub).1 = read s) :
    read (s.withClient owner act).1 = read s := by
  rw [withClient]
  cases s.client? owner with
  | none => rfl
  | some c =>
    dsimp only
    cases s.hub? c.hub with
    | none => rfl
    | some hub => exact acts c hub

-- Only a request of a client that there is can send anything.
theorem act_sent (s : Session κ) (op : Op κ)
    (silent : ∀ owner command r, op = .request owner command r → s.client? owner = none) :
    (s.act op).1.transport.sent = s.transport.sent := by
  cases op with
  | connect name domain hasEvents => exact connect_sent s name domain hasEvents
  | drop owner => exact drop_owned_sent s _
  | access owner domain hasEvents =>
    rw [act]
    split
    · rfl
    · exact access_sent s owner domain hasEvents
  | holds owner => rfl
  | openFacade => exact open_facade_sent s
  | closeFacade => exact drop_owned_sent { s with hasFacade := false } isFacade
  | facadeIsOpen => rfl
  | add owner event once listener => exact with_client_keeps (fun s => s.transport.sent) s owner _ fun _ _ => rfl
  | off owner id => exact with_client_keeps (fun s => s.transport.sent) s owner _ fun _ _ => rfl
  | count owner event => exact with_client_keeps (fun s => s.transport.sent) s owner _ fun _ _ => rfl
  | describe owner => exact with_client_keeps (fun s => s.transport.sent) s owner _ fun _ _ => rfl
  | describeSlot owner => rfl
  | request owner command r =>
    rw [act, withClient, silent owner command r rfl]
  | deliver message => rfl
  | queue method reply => rfl
  | setAttached attached => rfl
  | attach => exact attach_sent s.transport
  | transport => rfl

theorem turn_sent (s : Session κ) (t : Turn) : (s.turn t).1.transport.sent = s.transport.sent := by
  cases t with
  | deliver route message =>
    rw [turn]
    cases s.hub? route.hub <;> rfl
  | release key => rfl

theorem silent_advance (behave : κ → Value → Program (interface κ) σ) (a : Agenda (world κ) σ)
    (silent : asking? a = none) :
    (a.advance behave).world.transport.sent = a.world.transport.sent := by
  obtain ⟨s, user, jobs, history⟩ := a
  cases jobs with
  | nil => rfl
  | cons job rest =>
    cases job with
    | run program =>
      cases program with
      | done => rfl
      | look next => rfl
      | store user next => rfl
      | ask op next =>
        apply act_sent s op
        rintro owner command r rfl
        exact Option.map_eq_none_iff.mp silent
    | errand e =>
      cases e with
      | call listener params => rfl
      | turn t => exact turn_sent s t

theorem client_live (s : Session κ) (owner : Owner) (c : Client) (found : s.client? owner = some c) :
    c ∈ s.live := by
  obtain ⟨before, after, same, _⟩ := List.lookup_eq_some_iff.mp found
  rw [live, same]
  simp

theorem asking_advance (behave : κ → Value → Program (interface κ) σ) (a : Agenda (world κ) σ)
    (q : Asking) (sound : Sound a.world a.world.live (dueTurns a.jobs)) (asks : asking? a = some q) :
    (a.advance behave).world = { a.world with
        transport := (exchange q.client.domain q.command q.request a.world.transport).2 } ∧
      (a.advance behave).history = a.history ++
        [.answered (.outcome (exchange q.client.domain q.command q.request a.world.transport).1)] := by
  obtain ⟨s, user, jobs, history⟩ := a
  unfold asking? at asks
  split at asks
  · rename_i owner command r next rest first
    obtain rfl : jobs = _ := first
    obtain ⟨c, found, rfl⟩ := Option.map_eq_some_iff.mp asks
    have alive : c ∈ s.live := client_live s owner c found
    obtain ⟨hub, _, stands, _⟩ := hub_named s c.hub _
      (List.mem_append_left _ (List.mem_map_of_mem alive)) sound.held
    have acts : s.act (.request owner command r) = s.request c command r := by
      rw [act, withClient, found]
      dsimp only
      rw [stands]
    constructor
    · change (s.act (.request owner command r)).1 = _
      rw [acts]
      rfl
    · change history ++ [.answered (s.act (.request owner command r)).2] = _
      rw [acts]
      rfl
  · cases asks

section Runs

variable (behave : κ → Value → Program (interface κ) σ) (program : Program (interface κ) σ) (user : σ)
  (attached : Bool) (mode : AttachMode)

def run (steps : Nat) : Agenda (world κ) σ :=
  Agenda.advanceBy behave steps (.start (w := world κ) (.start attached mode) user program)

theorem run_succ (steps : Nat) :
    run behave program user attached mode (steps + 1) =
      (run behave program user attached mode steps).advance behave :=
  Agenda.advance_by_add (w := world κ) behave steps 1 _

theorem run_sound (steps : Nat) :
    let a := run behave program user attached mode steps
    Sound a.world a.world.live (dueTurns a.jobs) :=
  reached_sound behave program user attached mode steps

theorem run_asking (steps : Nat) (q : Asking)
    (asks : asking? (run behave program user attached mode steps) = some q) :
    let before := run behave program user attached mode steps
    let after := run behave program user attached mode (steps + 1)
    ∃ ended, after.history = before.history ++ [.answered (.outcome ended)] ∧
      Course q.request.wire q.method q.request.read before.world.transport ended
        after.world.transport := by
  intro before after
  obtain ⟨world, history⟩ := asking_advance behave before q
    (run_sound behave program user attached mode steps) asks
  have next : after = before.advance behave := run_succ behave program user attached mode steps
  rw [next]
  refine ⟨_, history, ?_⟩
  rw [world]
  exact exchange_course q.client.domain q.command q.request before.world.transport

theorem run_sent (steps : Nat) :
    (run behave program user attached mode steps).world.transport.sent =
      (List.range steps).filterMap fun n =>
        (asking? (run behave program user attached mode n)).bind Asking.command? := by
  induction steps with
  | zero => rfl
  | succ steps ih =>
    rw [List.range_succ, List.filterMap_append, ← ih]
    cases asks : asking? (run behave program user attached mode steps) with
    | none =>
      rw [run_succ, silent_advance behave _ asks]
      simp [asks]
    | some q =>
      obtain ⟨_, _, course⟩ := run_asking behave program user attached mode steps q asks
      rw [Exchange.course_after course, Exchange.departed_sent]
      congr 1
      simp only [List.filterMap_cons, List.filterMap_nil, asks, Option.bind_some, Asking.command?]
      cases q.request.wire <;> rfl

end Runs

structure CallEnds (domain command : String) (params : Option Value) (t : Transport)
    (ended : Except CallError (Option Value)) (after : Transport) : Prop where
  sent : after.sent = t.sent ++ [(domain ++ "." ++ command, params.getD (.object []))]
  departed : after = (t.send (domain ++ "." ++ command) (params.getD (.object []))).1
  transport : ∀ cause, ended = .error (.transport cause) ↔
    (t.send (domain ++ "." ++ command) (params.getD (.object []))).2 = .error cause
  protocol : ∀ failure, ended = .error (.protocol failure) ↔
    failure.method = domain ++ "." ++ command ∧ ∃ reply data,
      (t.send (domain ++ "." ++ command) (params.getD (.object []))).2 = .ok reply ∧
      reply.error = some ⟨some failure.text, some failure.code, data⟩
  answered : ∀ result, ended = .ok result ↔ ∃ reply,
    (t.send (domain ++ "." ++ command) (params.getD (.object []))).2 = .ok reply ∧
      reply.result = result ∧ ∀ text code data, reply.error ≠ some ⟨some text, some code, data⟩
  encoded : ∀ cause, ended ≠ .error (.payload cause)

theorem call_ends (domain command : String) (params : Option Value) (t : Transport) :
    CallEnds domain command params t (call domain command params t).1
      (call domain command params t).2 := by
  have course := Exchange.call_course domain command params t
  have after := Exchange.course_after course
  refine ⟨?_, after, ?_, ?_, ?_, ?_⟩
  · rw [after, Exchange.departed_sent]
    rfl
  · intro cause
    rw [Exchange.course_transport cause course]
    constructor
    · intro given
      obtain ⟨_, ⟨⟩, fails⟩ := given
      exact fails
    · exact fun fails => ⟨_, rfl, fails⟩
  · intro failure
    rw [Exchange.course_protocol failure course]
    constructor
    · intro given
      obtain ⟨_, reply, ⟨⟩, replied, ⟨data, fails⟩, method⟩ := given
      exact ⟨method, reply, data, replied, fails⟩
    · intro given
      obtain ⟨method, reply, data, replied, fails⟩ := given
      exact ⟨_, reply, rfl, replied, ⟨data, fails⟩, method⟩
  · intro result
    rw [Exchange.course_ok result course]
    constructor
    · intro given
      obtain ⟨_, reply, ⟨⟩, replied, accepted, same⟩ := given
      exact ⟨reply, replied, Except.ok.inj same, fun text code data fails =>
        accepted text code ⟨data, fails⟩⟩
    · intro given
      obtain ⟨reply, replied, rfl, accepted⟩ := given
      exact ⟨_, reply, rfl, replied, fun text code ⟨data, fails⟩ =>
        accepted text code data fails, rfl⟩
  · intro cause ends
    rcases (Exchange.course_payload cause course).mp ends with fails | ⟨_, _, _, _, _, fails⟩
    · cases fails
    · cases fails

theorem commands_exact :
    (∀ domain command params t, CallEnds domain command params t
      (call domain command params t).1 (call domain command params t).2) ∧
    (∀ {α : Type} (codec : Codec α) domain command t,
      send codec domain command none t = call domain command none t ∧
      ∀ params, send codec domain command (some params) t = match codec.encode params with
        | .ok value => call domain command (some value) t
        | .error cause => (.error (.payload cause), t)) ∧
    (∀ {α β : Type} (codec : Codec α) (result : Codec β) domain command params t,
      invoke codec result domain command params t = match send codec domain command params t with
        | (.ok value, after) =>
          ((result.decode (value.getD (.object []))).mapError .payload, after)
        | (.error cause, after) => (.error cause, after)) ∧
    (∀ {α β : Type} (codec : Codec α) (result : Codec β) domain command,
      fetch result domain command = invoke codec result domain command none) ∧
    ∀ {κ σ : Type} (behave : κ → Value → Program (interface κ) σ) program user attached mode steps,
      (run behave program user attached mode steps).world.transport.sent =
        ((List.range steps).filterMap fun n =>
          (asking? (run behave program user attached mode n)).bind Asking.command?) ∧
      ∀ n q, asking? (run behave program user attached mode n) = some q →
        let before := run behave program user attached mode n
        let after := run behave program user attached mode (n + 1)
        ∃ ended, after.history = before.history ++ [.answered (.outcome ended)] ∧
          Course q.request.wire q.method q.request.read before.world.transport ended
            after.world.transport := by
  refine ⟨call_ends, ?_, ?_, ?_, ?_⟩
  · intro α codec domain command t
    refine ⟨rfl, fun params => ?_⟩
    rw [Exchange.send_written]
    rfl
  · intro α β codec result domain command params t
    rw [Exchange.invoke_followed]
    rcases send codec domain command params t with ⟨cause | value, after⟩
    · rfl
    · exact congrArg (·, after) (Exchange.decoded_stage result value)
  · exact fun codec result domain command => Exchange.fetch_invoke codec result domain command
  · intro κ σ behave program user attached mode steps
    exact ⟨run_sent behave program user attached mode steps,
      fun n q => run_asking behave program user attached mode n q⟩

end ProtocolStubs.Session
