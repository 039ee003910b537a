import ProtocolStubs.Proofs.Session.Delivery
import ProtocolStubs.Proofs.Session.Layers

set_option autoImplicit false

namespace ProtocolStubs.Session

variable {κ σ : Type}

def turnAt? (k : Nat) (a : Agenda (world κ) σ) : Option (Session κ × Route) :=
  ((a.next? k).bind routeOf?).map fun r => (a.world, r)

def callAt? (k : Nat) (a : Agenda (world κ) σ) : Option (κ × Value) := (a.next? k).bind callOf?

def Unmoved (behave : κ → Value → Program (interface κ) σ) (m : Message) (a : Agenda (world κ) σ) :
    Prop :=
  ∀ c ∈ a.world.live, (∀ member, ¬Names m.method c.domain member) →
    (a.advance behave).world.hub? c.hub = a.world.hub? c.hub

-- The first steps of a delivery that still owes those calls and turns: what they do, and what is left.
structure Account (behave : κ → Value → Program (interface κ) σ) (below : List (Job (interface κ) σ))
    (m : Message) (steps : Nat) (a : Agenda (world κ) σ) (calls : List (κ × Value))
    (routes : List Route) : Prop where
  turns : ((a.moments behave below.length steps).filterMap (turnAt? below.length)).map Prod.snd ++
    ((a.afterwards behave below.length steps).owed below.length).filterMap routeOf? = routes
  batches : ∃ batches, List.Forall₂
      (fun t batch => Delivered below t.1 m t.2 batch ∧
        Bound t.1.transport.nextRoute t.1.nextHub t.1.live t.2)
      ((a.moments behave below.length steps).filterMap (turnAt? below.length)) batches ∧
    (a.moments behave below.length steps).filterMap (callAt? below.length) ++
      ((a.afterwards behave below.length steps).owed below.length).filterMap callOf? =
      calls ++ batches.flatten
  frame : ∀ t ∈ a.moments behave below.length steps, (t.next? below.length).isSome →
    Unmoved behave m t

section Account

variable (behave : κ → Value → Program (interface κ) σ) (below : List (Job (interface κ) σ))
  (m : Message) (steps : Nat) (a : Agenda (world κ) σ) (calls : List (κ × Value))
  (routes : List Route)

theorem account_stop (stop : a.moments behave below.length steps = [])
    (last : a.afterwards behave below.length steps = a)
    (owedRoutes : (a.owed below.length).filterMap routeOf? = routes)
    (owedCalls : (a.owed below.length).filterMap callOf? = calls) :
    Account behave below m steps a calls routes where
  turns := by
    rw [stop, last]
    exact owedRoutes
  batches := by
    rw [stop, last]
    exact ⟨[], .nil, owedCalls.trans (List.append_nil calls).symm⟩
  frame := by simp [stop]

theorem account_silent (busy : below.length < a.jobs.length)
    (noTurn : turnAt? below.length a = none) (noCall : callAt? below.length a = none)
    (frame : (a.next? below.length).isSome → Unmoved behave m a)
    (rest : Account behave below m steps (a.advance behave) calls routes) :
    Account behave below m (steps + 1) a calls routes := by
  refine ⟨?_, ?_, ?_⟩
  · rw [Agenda.moments_busy behave a _ _ busy, Agenda.afterwards_busy behave a _ _ busy,
      List.filterMap_cons_none noTurn]
    exact rest.turns
  · rw [Agenda.moments_busy behave a _ _ busy, Agenda.afterwards_busy behave a _ _ busy,
      List.filterMap_cons_none noTurn, List.filterMap_cons_none noCall]
    exact rest.batches
  · rw [Agenda.moments_busy behave a _ _ busy]
    exact List.forall_mem_cons.mpr ⟨frame, rest.frame⟩

theorem account_call (busy : below.length < a.jobs.length) (listener : κ) (params : Value)
    (next : a.next? below.length = some (.call listener params))
    (frame : Unmoved behave m a)
    (rest : Account behave below m steps (a.advance behave) calls routes) :
    Account behave below m (steps + 1) a ((listener, params) :: calls) routes := by
  have noTurn : turnAt? below.length a = none := by rw [turnAt?, next]; rfl
  have call : callAt? below.length a = some (listener, params) := by rw [callAt?, next]; rfl
  refine ⟨?_, ?_, ?_⟩
  · rw [Agenda.moments_busy behave a _ _ busy, Agenda.afterwards_busy behave a _ _ busy,
      List.filterMap_cons_none noTurn]
    exact rest.turns
  · obtain ⟨batches, delivered, called⟩ := rest.batches
    rw [Agenda.moments_busy behave a _ _ busy, Agenda.afterwards_busy behave a _ _ busy,
      List.filterMap_cons_none noTurn, List.filterMap_cons_some call]
    exact ⟨batches, delivered, congrArg ((listener, params) :: ·) called⟩
  · rw [Agenda.moments_busy behave a _ _ busy]
    exact List.forall_mem_cons.mpr ⟨fun _ => frame, rest.frame⟩

theorem account_turn (busy : below.length < a.jobs.length) (r : Route) (batch : List (κ × Value))
    (next : a.next? below.length = some (.turn (.deliver r m)))
    (frame : Unmoved behave m a)
    (delivered : Delivered below a.world m r batch)
    (bound : Bound a.world.transport.nextRoute a.world.nextHub a.world.live r)
    (rest : Account behave below m steps (a.advance behave) batch routes) :
    Account behave below m (steps + 1) a [] (r :: routes) := by
  have turn : turnAt? below.length a = some (a.world, r) := by rw [turnAt?, next]; rfl
  have noCall : callAt? below.length a = none := by rw [callAt?, next]; rfl
  refine ⟨?_, ?_, ?_⟩
  · rw [Agenda.moments_busy behave a _ _ busy, Agenda.afterwards_busy behave a _ _ busy,
      List.filterMap_cons_some turn]
    exact congrArg (r :: ·) rest.turns
  · obtain ⟨batches, later, called⟩ := rest.batches
    rw [Agenda.moments_busy behave a _ _ busy, Agenda.afterwards_busy behave a _ _ busy,
      List.filterMap_cons_some turn, List.filterMap_cons_none noCall]
    exact ⟨batch :: batches, .cons ⟨delivered, bound⟩ later, called⟩
  · rw [Agenda.moments_busy behave a _ _ busy]
    exact List.forall_mem_cons.mpr ⟨fun _ => frame, rest.frame⟩

end Account

theorem owing_due (m : Message) (calls : List (κ × Value)) (keys : List Nat) (routes : List Route)
    (below : List (Job (interface κ) σ)) (a : Agenda (world κ) σ)
    (layered : Agenda.Layered [] (owing m calls keys routes) below a) :
    dueTurns a.jobs = keys.map Turn.release ++ ((routes.map fun r => .deliver r m) ++ dueTurns below) := by
  rw [layered.jobs, List.nil_append, due_errands, owing_turns, List.append_assoc]

def Accounted (behave : κ → Value → Program (interface κ) σ) (below : List (Job (interface κ) σ))
    (m : Message) (steps : Nat) (a : Agenda (world κ) σ) : Prop :=
  ∀ nested calls keys routes, Agenda.Layered nested (owing m calls keys routes) below a →
    Account behave below m steps a calls routes

section Steps

variable (behave : κ → Value → Program (interface κ) σ) (m : Message) (steps : Nat)
  (nested below : List (Job (interface κ) σ)) (calls : List (κ × Value)) (keys : List Nat)
  (routes : List Route) (a : Agenda (world κ) σ)

theorem layered_stop (layered : Agenda.Layered nested (owing m calls keys routes) below a)
    (stop : a.moments behave below.length steps = [])
    (last : a.afterwards behave below.length steps = a) :
    Account behave below m steps a calls routes := by
  apply account_stop behave below m steps a calls routes stop last
  · rw [Agenda.layered_owed nested below _ a layered, owing_routes]
  · rw [Agenda.layered_owed nested below _ a layered, owing_calls]

theorem nested_account (layered : Agenda.Layered nested (owing m calls keys routes) below a)
    (runs : nested ≠ []) (rest : Accounted behave below m steps (a.advance behave)) :
    Account behave below m (steps + 1) a calls routes := by
  have next := Agenda.nested_next nested below (owing m calls keys routes) a layered runs
  have length := Agenda.layered_length nested below (owing m calls keys routes) a layered
  obtain ⟨later, after⟩ := Agenda.nested_advance behave nested below _ a layered runs
  apply account_silent behave below m steps a calls routes (length.mpr (.inl runs))
  · rw [turnAt?, next]
    rfl
  · rw [callAt?, next]
    rfl
  · rw [next]
    exact fun impossible => by cases impossible
  · exact rest later calls keys routes after

theorem call_account (call : κ × Value)
    (layered : Agenda.Layered [] (owing m (call :: calls) keys routes) below a)
    (rest : Accounted behave below m steps (a.advance behave)) :
    Account behave below m (steps + 1) a (call :: calls) routes := by
  have first : Agenda.Layered [] (.call call.1 call.2 :: owing m calls keys routes) below a := layered
  have next := Agenda.layered_next below _ a first
  have busy := (Agenda.layered_length [] below _ a first).mpr (.inr (List.cons_ne_nil _ _))
  obtain ⟨later, same⟩ := Agenda.call_advance behave below _ a call.1 call.2 first
  apply account_call behave below m steps a calls routes busy call.1 call.2 next
  · exact fun c _ _ => by rw [same]
  · exact rest _ calls keys routes later

theorem release_account (key : Nat)
    (layered : Agenda.Layered [] (owing m [] (key :: keys) routes) below a)
    (sound : Sound a.world a.world.live (dueTurns a.jobs))
    (rest : Accounted behave below m steps (a.advance behave)) :
    Account behave below m (steps + 1) a [] routes := by
  have first : Agenda.Layered (w := world κ) []
      (.turn (Turn.release key) :: owing m [] keys routes) below a := layered
  have next := Agenda.layered_next below _ a first
  have busy := (Agenda.layered_length [] below _ a first).mpr (.inr (List.cons_ne_nil _ _))
  obtain ⟨later, same⟩ := Agenda.turn_advance behave below _ a _ first
  rw [owing_due m [] (key :: keys) routes below a layered] at sound
  apply account_silent behave below m steps a [] routes busy
  · rw [turnAt?, next]
    rfl
  · rw [callAt?, next]
    rfl
  · intro _ c alive _
    rw [same]
    exact release_frame a.world _ key sound c alive
  · exact rest [] [] keys routes later

theorem deliver_account (r : Route) (layered : Agenda.Layered [] (owing m [] [] (r :: routes)) below a)
    (sound : Sound a.world a.world.live (dueTurns a.jobs))
    (rest : Accounted behave below m steps (a.advance behave)) :
    Account behave below m (steps + 1) a [] (r :: routes) := by
  have first : Agenda.Layered (w := world κ) []
      (.turn (Turn.deliver r m) :: owing m [] [] routes) below a := layered
  have next := Agenda.layered_next below _ a first
  have busy := (Agenda.layered_length [] below _ a first).mpr (.inr (List.cons_ne_nil _ _))
  obtain ⟨later, same⟩ := Agenda.turn_advance behave below _ a _ first
  rw [owing_due m [] [] (r :: routes) below a layered] at sound
  have dueBelow : released ((routes.map fun r => .deliver r m) ++ dueTurns below) =
      released (dueTurns below) := by
    rw [released_append, released_deliveries, List.nil_append]
  obtain ⟨batch, keys, delivered, errands⟩ := turn_delivers a.world _ m r below dueBelow sound
  have owes : ((world κ).turn a.world (.deliver r m)).2 ++ owing m [] [] routes =
      owing m batch keys routes := by
    change (a.world.turn (.deliver r m)).2 ++ _ = _
    rw [errands]
    simp [owing]
  rw [owes] at later
  apply account_turn behave below m steps a routes busy r batch next
  · intro c alive unnamed
    rw [same]
    exact turn_frame a.world _ m r sound c alive unnamed
  · exact delivered
  · exact sound.due r m List.mem_cons_self
  · exact rest [] batch keys routes later

end Steps

theorem delivery_account (behave : κ → Value → Program (interface κ) σ) (m : Message) (steps : Nat)
    (below : List (Job (interface κ) σ)) (a : Agenda (world κ) σ)
    (sound : Sound a.world a.world.live (dueTurns a.jobs)) : Accounted behave below m steps a := by
  induction steps generalizing a with
  | zero =>
    intro nested calls keys routes layered
    exact layered_stop behave m 0 nested below calls keys routes a layered rfl rfl
  | succ steps ih =>
    have rest := ih (a.advance behave) (advance_sound behave a sound)
    intro nested calls keys routes layered
    by_cases runs : nested = []
    · subst runs
      cases calls with
      | cons call calls => exact call_account behave m steps below calls keys routes a call layered rest
      | nil =>
        cases keys with
        | cons key keys =>
          exact release_account behave m steps below keys routes a key layered sound rest
        | nil =>
          cases routes with
          | cons r routes => exact deliver_account behave m steps below routes a r layered sound rest
          | nil =>
            have ended : a.jobs.length ≤ below.length := by
              rw [← Nat.not_lt, Agenda.layered_length [] below _ a layered]
              simp [owing]
            exact layered_stop behave m _ [] below [] [] [] a layered
              (Agenda.moments_over behave a _ _ ended) (Agenda.afterwards_over behave a _ _ ended)
    · exact nested_account behave m steps nested below calls keys routes a layered runs rest

theorem batches_length {α β : Type} (promised delivered : α → List β → Prop) (exact_ : α → Prop)
    (pointwise : ∀ t promise batch, promised t promise → delivered t batch →
      promise.length ≤ batch.length ∧ (promise.length = batch.length → exact_ t))
    (turns : List α) (promises batches : List (List β))
    (left : List.Forall₂ promised turns promises) (right : List.Forall₂ delivered turns batches) :
    promises.flatten.length ≤ batches.flatten.length ∧
      (promises.flatten.length = batches.flatten.length → ∀ t ∈ turns, exact_ t) := by
  induction left generalizing batches with
  | nil =>
    cases right
    exact ⟨Nat.le_refl _, fun _ _ impossible => by cases impossible⟩
  | @cons t promise turns promises first _ ih =>
    cases right with
    | @cons _ batch _ batches second later =>
      obtain ⟨shorter, sharp⟩ := pointwise t promise batch first second
      obtain ⟨restShorter, restSharp⟩ := ih batches later
      rw [List.flatten_cons, List.flatten_cons, List.length_append, List.length_append]
      refine ⟨Nat.add_le_add shorter restShorter, fun same => List.forall_mem_cons.mpr ⟨?_, ?_⟩⟩
      · exact sharp (by omega)
      · exact restSharp (by omega)

-- A delivery keeps its promises exactly when no hub that lingers has listeners for the member.
theorem promises_kept (below : List (Job (interface κ) σ)) (m : Message)
    (turns : List (Session κ × Route)) (batches : List (List (κ × Value)))
    (delivered : List.Forall₂ (fun t batch => Delivered below t.1 m t.2 batch ∧
      Bound t.1.transport.nextRoute t.1.nextHub t.1.live t.2) turns batches) :
    (∃ promises, List.Forall₂ (fun t promise => Promised t.1 m t.2 promise) turns promises ∧
        batches.flatten = promises.flatten) ↔
      ∀ t ∈ turns, ∀ hub member, Lingers below t.1 m t.2 hub member → hub.entries member = [] := by
  constructor
  · rintro ⟨promises, promised, same⟩
    refine (batches_length _ _ _ ?_ turns promises batches promised delivered).2
      (congrArg List.length same.symm)
    exact fun t promise batch promised ⟨delivered, bound⟩ =>
      delivered_length below t.1 m t.2 batch promise bound delivered promised
  · intro quiet
    refine ⟨batches, ?_, rfl⟩
    induction delivered with
    | nil => exact .nil
    | cons first _ ih =>
      obtain ⟨now, later⟩ := List.forall_mem_cons.mp quiet
      exact .cons (delivered_promised below _ m _ _ first.1 now) (ih later)

theorem deliver_begins (behave : κ → Value → Program (interface κ) σ) (m : Message)
    (next : Answer → Program (interface κ) σ) (rest : List (Job (interface κ) σ))
    (a : Agenda (world κ) σ) (asked : a.jobs = .run (.ask (.deliver m) next) :: rest) :
    Agenda.Layered [] (owing m [] [] a.world.transport.routes) (.run (next .done) :: rest)
      (a.advance behave) ∧ (a.advance behave).world = a.world := by
  obtain ⟨s, user, jobs, history⟩ := a
  subst asked
  exact ⟨⟨rfl, .inl rfl⟩, rfl⟩

-- Two clients of one domain. The first listener that is called delivers in its turn; there a listener
-- of the other client drops the client whose listener is still running.
def droppedInside : Program (interface Nat) Unit :=
  .ask (.connect "b" "P" true) fun _ =>
  .ask (.connect "a" "P" true) fun _ =>
  .ask (.add (.named "a") "e" false 0) fun _ =>
  .ask (.add (.named "b") "f" false 1) fun _ =>
  .ask (.add (.named "a") "f" false 2) fun _ =>
  .ask (.deliver ⟨"P.e", .empty⟩) fun _ => .done

def dropsInside : Nat → Value → Program (interface Nat) Unit
  | 0, _ => .ask (.deliver ⟨"P.f", .empty⟩) fun _ => .done
  | 1, _ => .ask (.drop (.named "a")) fun _ => .done
  | _, _ => .done

def droppedInsideAfter (steps : Nat) : Agenda (world Nat) Unit :=
  Agenda.advanceBy dropsInside steps
    (.start (w := world Nat) (.start true .attaches) () droppedInside)

theorem delivery_exact (behave : κ → Value → Program (interface κ) σ)
    (program : Program (interface κ) σ) (user : σ) (attached : Bool) (mode : AttachMode)
    (before after : Nat) (m : Message) (next : Answer → Program (interface κ) σ)
    (rest : List (Job (interface κ) σ))
    (asked : (Agenda.advanceBy behave before
      (.start (w := world κ) (.start attached mode) user program)).jobs =
        .run (.ask (.deliver m) next) :: rest) :
    let a := Agenda.advanceBy behave before
      (.start (w := world κ) (.start attached mode) user program)
    let below := .run (next .done) :: rest
    let moments := (a.advance behave).moments behave below.length after
    let last := (a.advance behave).afterwards behave below.length after
    let turns := moments.filterMap (turnAt? below.length)
    let calls := moments.filterMap (callAt? below.length) ++
      (last.owed below.length).filterMap callOf?
    ((∃ promises, List.Forall₂ (fun t promise => Promised t.1 m t.2 promise) turns promises ∧
        calls = promises.flatten) ↔
      ∀ t ∈ turns, ∀ hub member, Lingers below t.1 m t.2 hub member → hub.entries member = []) ∧
    (∃ batches, List.Forall₂ (fun t batch => Delivered below t.1 m t.2 batch) turns batches ∧
      calls = batches.flatten) ∧
    turns.map Prod.snd ++ (last.owed below.length).filterMap routeOf? = a.world.transport.routes ∧
    a.world.transport.routes = a.world.live.filterMap Client.toRoute? ∧
    (a.world.transport.routes.Pairwise fun r s => r.id < s.id) ∧
    (a.advance behave).world = a.world ∧
    ∀ t ∈ moments, (t.next? below.length).isSome → ∀ c ∈ t.world.live,
      (∀ member, ¬Names m.method c.domain member) →
        (t.advance behave).world.hub? c.hub = t.world.hub? c.hub := by
  intro a below moments last turns calls
  have sound : Sound a.world a.world.live (dueTurns a.jobs) :=
    reached_sound behave program user attached mode before
  obtain ⟨layered, same⟩ := deliver_begins behave m next rest a asked
  have account : Account behave below m after (a.advance behave) [] a.world.transport.routes :=
    delivery_account behave m after below (a.advance behave) (advance_sound behave a sound) [] [] []
      a.world.transport.routes layered
  obtain ⟨batches, delivered, called⟩ := account.batches
  have calledAll : calls = batches.flatten := called
  refine ⟨?_, ⟨batches, delivered.imp fun _ _ both => both.1, calledAll⟩, account.turns,
    sound.routes, sound.ascending, same, account.frame⟩
  rw [calledAll]
  exact promises_kept below m turns batches delivered

theorem outer_delivery_exact :
    (droppedInsideAfter 5).jobs = [.run (.ask (.deliver ⟨"P.e", .empty⟩) fun _ => .done)] ∧
      let outer := (droppedInsideAfter 5).advance dropsInside
      ((outer.moments dropsInside 1 30).filterMap (turnAt? 1)).map Prod.snd ++
        ((outer.afterwards dropsInside 1 30).owed 1).filterMap routeOf? =
          [⟨0, "P", 0⟩, ⟨1, "P", 1⟩] :=
  ⟨rfl, (delivery_exact dropsInside droppedInside () true .attaches 5 30 ⟨"P.e", .empty⟩
    (fun _ => .done) [] rfl).2.2.1⟩

theorem inner_asked : (droppedInsideAfter 10).jobs =
    [.run (.ask (.deliver ⟨"P.f", .empty⟩) fun _ => .done), .errand (.turn (.release 1)),
      .run .done] := rfl

theorem inner_over :
    (((droppedInsideAfter 10).advance dropsInside).afterwards dropsInside 3 20).jobs =
      [.run .done, .errand (.turn (.release 1)), .run .done] := rfl

theorem dropped_client_called :
    let a := droppedInsideAfter 10
    let below : List (Job (interface Nat) Unit) :=
      [.run .done, .errand (.turn (.release 1)), .run .done]
    let moments := (a.advance dropsInside).moments dropsInside 3 20
    let last := (a.advance dropsInside).afterwards dropsInside 3 20
    a.jobs = .run (.ask (.deliver ⟨"P.f", .empty⟩) fun _ => .done) :: below.tail ∧
      last.jobs = below ∧
      ¬∃ promises,
        List.Forall₂ (fun t promise => Promised t.1 ⟨"P.f", .empty⟩ t.2 promise)
          (moments.filterMap (turnAt? 3)) promises ∧
        moments.filterMap (callAt? 3) ++ (last.owed 3).filterMap callOf? = promises.flatten := by
  intro a below moments last
  refine ⟨inner_asked, inner_over, ?_⟩
  rintro ⟨promises, promised, same⟩
  have turns : (moments.filterMap (turnAt? 3)).map
      (fun t => (t.2, t.1.live, t.1.hub? 0, t.1.transport.nextRoute, t.1.nextHub)) =
        [(⟨0, "P", 0⟩, [⟨"P", 0, some 0⟩, ⟨"P", 1, some 1⟩],
          some ⟨1, [("f", [⟨0, false, 1⟩])]⟩, 2, 2),
        (⟨1, "P", 1⟩, [⟨"P", 0, some 0⟩], some ⟨1, [("f", [⟨0, false, 1⟩])]⟩, 2, 2)] := by
    decide
  have called : (moments.filterMap (callAt? 3) ++ (last.owed 3).filterMap callOf?).map Prod.fst =
      [1, 2] := by
    decide
  obtain ⟨⟨early, route⟩, later, facts, earlyIs, turns⟩ := List.map_eq_cons_iff.mp turns
  obtain ⟨⟨late, route'⟩, none_, rfl, lateIs, turns⟩ := List.map_eq_cons_iff.mp turns
  obtain rfl := List.map_eq_nil_iff.mp turns
  simp only [Prod.mk.injEq] at earlyIs lateIs
  obtain ⟨rfl, live, hub, nextRoute, nextHub⟩ := earlyIs
  obtain ⟨rfl, lateLive, _⟩ := lateIs
  rw [facts] at promised
  obtain _ | ⟨first, _ | ⟨second, _ | _⟩⟩ := promised
  have nothing := promised_gone late _ ⟨1, "P", 1⟩ _ (by rw [lateLive]; decide) second
  have one : Promised early ⟨"P.f", .empty⟩ ⟨0, "P", 0⟩ [(1, .empty)] :=
    .named ⟨"P", 0, some 0⟩ ⟨1, [("f", [⟨0, false, 1⟩])]⟩ "f" (by rw [live]; decide) rfl hub
      ⟨rfl, by decide, by decide, by decide, by decide⟩ (by decide)
  have only := promised_unique early _ ⟨0, "P", 0⟩ _ _
    ⟨by rw [nextRoute]; decide, by rw [nextHub]; decide, by rw [live]; decide⟩ first one
  rw [same, nothing, only] at called
  cases called

end ProtocolStubs.Session
