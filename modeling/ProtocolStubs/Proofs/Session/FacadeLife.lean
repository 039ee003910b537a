import ProtocolStubs.Proofs.Session.FacadeSlots

set_option autoImplicit false

namespace ProtocolStubs.Session

open Stubs (StubDomain)

variable {κ σ : Type}

def asked? (a : Agenda (world κ) σ) : Option (Op κ) :=
  match a.jobs with
  | .run (.ask op _) :: _ => some op
  | _ => none

theorem asked_advance (behave : κ → Value → Program (interface κ) σ) (a : Agenda (world κ) σ) (op : Op κ)
    (asked : asked? a = some op) :
    (a.advance behave).world = (a.world.act op).1 ∧
      (a.advance behave).history = a.history ++ [.answered (a.world.act op).2] := by
  obtain ⟨s, user, jobs, history⟩ := a
  unfold asked? at asked
  split at asked
  · rename_i op' next rest first
    obtain rfl : jobs = _ := first
    cases asked
    exact ⟨rfl, rfl⟩
  · cases asked

theorem turn_keeps (s : Session κ) (t : Turn) : (s.turn t).1.clients = s.clients ∧
    (s.turn t).1.transport = s.transport ∧ (s.turn t).1.hasFacade = s.hasFacade := by
  cases t with
  | deliver route message =>
    rw [turn]
    cases s.hub? route.hub <;> exact ⟨rfl, rfl, rfl⟩
  | release key => exact ⟨rfl, rfl, rfl⟩

theorem unasked_advance (behave : κ → Value → Program (interface κ) σ) (a : Agenda (world κ) σ)
    (unasked : asked? a = none) : (a.advance behave).world.clients = a.world.clients ∧
      (a.advance behave).world.transport = a.world.transport ∧
      (a.advance behave).world.hasFacade = a.world.hasFacade := by
  obtain ⟨s, user, jobs, history⟩ := a
  cases jobs with
  | nil => exact ⟨rfl, rfl, rfl⟩
  | cons job rest =>
    cases job with
    | run program =>
      cases program with
      | done => exact ⟨rfl, rfl, rfl⟩
      | look next => exact ⟨rfl, rfl, rfl⟩
      | store user next => exact ⟨rfl, rfl, rfl⟩
      | ask op next => cases unasked
    | errand e =>
      cases e with
      | call listener params => exact ⟨rfl, rfl, rfl⟩
      | turn t => exact turn_keeps s t

-- A facade with these slots that was opened at one step of a run and stands up to another.
structure Stands (trace : Nat → Agenda (world κ) σ) (slots : List StubDomain) (opened now : Nat) :
    Prop where
  distinct : (slots.map StubDomain.wire).Nodup
  asked : asked? (trace opened) = some .openFacade
  granted : (trace (opened + 1)).history = (trace opened).history ++ [.answered (.made (.ok ()))]
  since : opened < now
  respected : ∀ i op, opened < i → i < now → asked? (trace i) = some op → Respects slots op

structure SlotsKept (trace : Nat → Agenda (world κ) σ) (slots : List StubDomain) (opened now : Nat) :
    Prop where
  filled : ∀ d ∈ slots, ((trace now).world.client? d.owner).isSome ↔ ∃ i, opened < i ∧ i < now ∧
    asked? (trace i) = some d.access ∧ (trace i).world.transport.attached = true
  kept : ∀ d ∈ slots, ∀ earlier c, opened < earlier → earlier ≤ now →
    (trace earlier).world.client? d.owner = some c → (trace now).world.client? d.owner = some c
  accessed : ∀ d ∈ slots, asked? (trace now) = some d.access → ∃ result,
    (trace (now + 1)).history = (trace now).history ++ [.answered (.accessed result)] ∧
      Accessed d (trace now).world (trace (now + 1)).world result
  apart : ∀ d ∈ slots, ∀ e ∈ slots, d.wire ≠ e.wire → ∀ c other,
    (trace now).world.client? d.owner = some c → (trace now).world.client? e.owner = some other →
      c.hub ≠ other.hub
  subscribed : ((trace now).world.facadeRoutes.map Route.domain).Perm
    ((slots.filter fun d => d.hasEvents && ((trace now).world.client? d.owner).isSome).map
      StubDomain.wire)

theorem stands_earlier (trace : Nat → Agenda (world κ) σ) (slots : List StubDomain)
    (opened earlier now : Nat) (stands : Stands trace slots opened now) (since : opened < earlier)
    (before : earlier ≤ now) : Stands trace slots opened earlier :=
  ⟨stands.distinct, stands.asked, stands.granted, since,
    fun i op after until_ => stands.respected i op after (Nat.lt_of_lt_of_le until_ before)⟩

section Runs

variable (behave : κ → Value → Program (interface κ) σ) (program : Program (interface κ) σ) (user : σ)
  (attached : Bool) (mode : AttachMode)

theorem run_asked (n : Nat) (op : Op κ)
    (asked : asked? (run behave program user attached mode n) = some op) :
    let before := run behave program user attached mode n
    let after := run behave program user attached mode (n + 1)
    after.world = (before.world.act op).1 ∧
      after.history = before.history ++ [.answered (before.world.act op).2] := by
  rw [run_succ]
  exact asked_advance behave _ op asked

theorem run_opened (n : Nat)
    (asked : asked? (run behave program user attached mode n) = some .openFacade) :
    let before := run behave program user attached mode n
    let after := run behave program user attached mode (n + 1)
    ∃ result, after.history = before.history ++ [.answered (.made result)] ∧
      Opened before.world after.world result := by
  intro before after
  obtain ⟨world, history⟩ := run_asked behave program user attached mode n .openFacade asked
  rw [world, history]
  exact ⟨_, rfl, open_facade_opened _⟩

variable (slots : List StubDomain) (opened : Nat)

theorem opened_fits (now : Nat)
    (stands : Stands (run behave program user attached mode) slots opened now) :
    Fits slots (run behave program user attached mode (opened + 1)).world ∧
      (run behave program user attached mode (opened + 1)).world.facadeClients = [] := by
  obtain ⟨result, history, opens⟩ := run_opened behave program user attached mode opened stands.asked
  have same := List.append_cancel_left (history.symm.trans stands.granted)
  obtain rfl : result = .ok () := by simpa using same
  obtain ⟨facade, empty⟩ := opens.empty rfl
  refine ⟨⟨facade, ?_, ?_⟩, empty⟩ <;> simp [empty]

theorem step_slots (n : Nat) (distinct : (slots.map StubDomain.wire).Nodup)
    (respects : ∀ op, asked? (run behave program user attached mode n) = some op → Respects slots op)
    (fits : Fits slots (run behave program user attached mode n).world) :
    let before := run behave program user attached mode n
    let after := run behave program user attached mode (n + 1)
    Fits slots after.world ∧ ∀ d ∈ slots,
      after.world.client? d.owner = before.world.client? d.owner ∧
          (asked? before = some d.access → before.world.transport.attached = true →
            (before.world.client? d.owner).isSome) ∨
        asked? before = some d.access ∧ before.world.transport.attached = true ∧
          before.world.client? d.owner = none ∧ (after.world.client? d.owner).isSome := by
  intro before after
  cases asked : asked? before with
  | none =>
    obtain ⟨all, _, facade⟩ := unasked_advance behave before asked
    rw [← run_succ] at all facade
    have clients : after.world.facadeClients = before.world.facadeClients := congrArg (List.filter _) all
    refine ⟨⟨facade.trans fits.stands, clients ▸ fits.keys, clients ▸ fits.filled⟩, fun d _ => ?_⟩
    refine .inl ⟨?_, nofun⟩
    rw [facade_client, facade_client, clients]
  | some op =>
    obtain ⟨world, _⟩ := run_asked behave program user attached mode n op asked
    rw [show after.world = _ from world]
    refine ⟨act_fits slots _ op (respects op asked) fits, fun d member => ?_⟩
    simpa using act_slot slots _ op d distinct member (respects op asked) fits

theorem stands_fits (now : Nat)
    (stands : Stands (run behave program user attached mode) slots opened now) :
    Fits slots (run behave program user attached mode now).world := by
  have since : opened + 1 ≤ now := stands.since
  induction since with
  | refl => exact (opened_fits behave program user attached mode slots opened _ stands).1
  | @step now since ih =>
    refine (step_slots behave program user attached mode slots now stands.distinct ?_ ?_).1
    · exact fun op => stands.respected now op since (Nat.lt_succ_self now)
    · exact ih (stands_earlier _ slots opened now _ stands since (Nat.le_succ now))

theorem stands_step (n : Nat) (d : StubDomain) (member : d ∈ slots) (since : opened < n)
    (stands : Stands (run behave program user attached mode) slots opened (n + 1)) :
    let before := run behave program user attached mode n
    let after := run behave program user attached mode (n + 1)
    after.world.client? d.owner = before.world.client? d.owner ∧
        (asked? before = some d.access → before.world.transport.attached = true →
          (before.world.client? d.owner).isSome) ∨
      asked? before = some d.access ∧ before.world.transport.attached = true ∧
        before.world.client? d.owner = none ∧ (after.world.client? d.owner).isSome := by
  have earlier := stands_earlier _ slots opened n _ stands since (Nat.le_succ n)
  exact (step_slots behave program user attached mode slots n stands.distinct
    (fun op => stands.respected n op since (Nat.lt_succ_self n))
    (stands_fits behave program user attached mode slots opened n earlier)).2 d member

theorem slot_filled (now : Nat) (d : StubDomain) (member : d ∈ slots)
    (stands : Stands (run behave program user attached mode) slots opened now) :
    let trace := run behave program user attached mode
    ((trace now).world.client? d.owner).isSome ↔ ∃ i, opened < i ∧ i < now ∧
      asked? (trace i) = some d.access ∧ (trace i).world.transport.attached = true := by
  intro trace
  have since : opened + 1 ≤ now := stands.since
  induction since with
  | refl =>
    obtain ⟨_, empty⟩ := opened_fits behave program user attached mode slots opened _ stands
    rw [facade_client, empty]
    constructor
    · exact nofun
    · rintro ⟨i, after, before, _⟩
      exact absurd before (Nat.not_lt.mpr after)
  | @step now since ih =>
    have earlier := ih (stands_earlier _ slots opened now _ stands since (Nat.le_succ now))
    rcases stands_step behave program user attached mode slots opened now d member since stands with
      ⟨same, present⟩ | ⟨asked, wired, _, filled⟩
    · rw [same]
      refine earlier.trans ⟨?_, ?_⟩
      · rintro ⟨i, after, before, rest⟩
        exact ⟨i, after, Nat.lt_succ_of_lt before, rest⟩
      · rintro ⟨i, after, before, asked, wired⟩
        rcases Nat.lt_succ_iff_lt_or_eq.mp before with early | rfl
        · exact ⟨i, after, early, asked, wired⟩
        · exact earlier.mp (present asked wired)
    · exact iff_of_true filled ⟨now, since, Nat.lt_succ_self now, asked, wired⟩

theorem slot_kept (earlier now : Nat) (d : StubDomain) (c : Client) (member : d ∈ slots)
    (since : opened < earlier) (until_ : earlier ≤ now)
    (stands : Stands (run behave program user attached mode) slots opened now)
    (filled : (run behave program user attached mode earlier).world.client? d.owner = some c) :
    (run behave program user attached mode now).world.client? d.owner = some c := by
  induction until_ with
  | refl => exact filled
  | @step now until_ ih =>
    have still := ih (stands_earlier _ slots opened now _ stands (Nat.lt_of_lt_of_le since until_)
      (Nat.le_succ now))
    rcases stands_step behave program user attached mode slots opened now d member
      (Nat.lt_of_lt_of_le since until_) stands with ⟨same, _⟩ | ⟨_, _, empty, _⟩
    · exact same.trans still
    · rw [still] at empty
      cases empty

theorem slots_kept (now : Nat)
    (stands : Stands (run behave program user attached mode) slots opened now) :
    SlotsKept (run behave program user attached mode) slots opened now := by
  have sound := run_sound behave program user attached mode now
  have fits := stands_fits behave program user attached mode slots opened now stands
  refine ⟨?_, ?_, ?_, ?_, ?_⟩
  · exact fun d member => slot_filled behave program user attached mode slots opened now d member stands
  · exact fun d member earlier c since until_ =>
      slot_kept behave program user attached mode slots opened earlier now d c member since until_ stands
  · intro d member asked
    obtain ⟨world, history⟩ := run_asked behave program user attached mode now d.access asked
    obtain ⟨result, answer, _, accessed⟩ :=
      act_access (run behave program user attached mode now).world d fits.stands
    rw [world, history, answer]
    exact ⟨result, rfl, accessed⟩
  · exact fun d _ e _ different c other => slots_apart _ _ sound d e c other different
  · exact facade_routes_exact slots _ _ sound stands.distinct fits

-- Whatever a program and its listeners do with the transport and with other clients: opening a facade
-- attaches at most once and ends well only on an attached transport, and its slots are kept from then
-- on.
theorem facade_slots_kept :
    (∀ n, asked? (run behave program user attached mode n) = some .openFacade → ∃ result,
      (run behave program user attached mode (n + 1)).history =
          (run behave program user attached mode n).history ++ [.answered (.made result)] ∧
        Opened (run behave program user attached mode n).world
          (run behave program user attached mode (n + 1)).world result) ∧
    ∀ slots opened now, Stands (run behave program user attached mode) slots opened now →
      SlotsKept (run behave program user attached mode) slots opened now :=
  ⟨run_opened behave program user attached mode, slots_kept behave program user attached mode⟩

end Runs

-- A facade on a detached transport: the first access to `Page` fills its slot, the one to `Schema` comes
-- after the transport was detached again.
def detachedBetween : Program (interface Unit) Unit :=
  .ask .openFacade fun _ => .ask Stubs.page.access fun _ => .ask (.setAttached false) fun _ =>
    .ask Stubs.schema.access fun _ => .ask Stubs.page.access fun _ => .done

theorem detached_between_kept :
    let trace := run (fun _ _ => .done) detachedBetween () false .attaches
    Stands trace Stubs.domains 0 4 ∧ SlotsKept trace Stubs.domains 0 4 ∧
      (trace 4).world.client? Stubs.page.owner = some ⟨"Page", 0, some 0⟩ ∧
      (trace 4).world.client? Stubs.schema.owner = none := by
  intro trace
  have stands : Stands trace Stubs.domains 0 4 := by
    refine ⟨by decide, rfl, rfl, by decide, ?_⟩
    intro i op after before asked
    have cases_ : i = 1 ∨ i = 2 ∨ i = 3 := by omega
    rcases cases_ with rfl | rfl | rfl
    · cases asked
      exact ⟨Stubs.page, by decide, rfl, rfl, rfl⟩
    · cases asked
      trivial
    · cases asked
      exact ⟨Stubs.schema, by decide, rfl, rfl, rfl⟩
  exact ⟨stands, (facade_slots_kept _ _ _ _ _).2 Stubs.domains 0 4 stands, rfl, rfl⟩

end ProtocolStubs.Session
