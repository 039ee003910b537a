import ProtocolStubs.Proofs.Hub.Filing
import ProtocolStubs.Proofs.Session.Relabelling
import ProtocolStubs.Session.Listener

set_option autoImplicit false

namespace ProtocolStubs

open Payload (Kind)

variable {ℓ : Type}

-- What is left of what a callback is handed, if it decodes raw payloads to that kind.
def Received.through (kind : Option Kind) : Received → Option Received
  | .value v =>
    match kind with
    | some k => (k.codec.decode v).toOption.map .datum
    | none => some (.value v)
  | handed => some handed

namespace Listener

variable (kindOf : ℓ → Option Kind)

def retype (l : Listener ℓ) : Listener ℓ :=
  match l.form, kindOf l.callback with
  | .raw, some k => ⟨.typed k, l.callback⟩
  | _, _ => l

theorem retype_callback (l : Listener ℓ) : (l.retype kindOf).callback = l.callback := by
  unfold retype
  split <;> rfl

theorem retype_receives (l : Listener ℓ) (params : Value) :
    (l.retype kindOf).form.receive? params =
      (l.form.receive? params).bind (Received.through (kindOf l.callback)) := by
  obtain ⟨form, callback⟩ := l
  cases form with
  | raw =>
    simp only [retype]
    cases kindOf callback <;> rfl
  | typed k =>
    simp only [retype, Form.receive?]
    cases (k.codec.decode params).toOption <;> rfl
  | signal => rfl

section Behaviour

variable {O P A L M T σ : Type}

-- The callback decodes for itself, and does nothing with what does not decode.
def decoding (callback : ℓ → Received → Program ⟨O, A, L, T⟩ σ) (label : ℓ) (handed : Received) :
    Program ⟨O, A, L, T⟩ σ :=
  match handed.through (kindOf label) with
  | some seen => callback label seen
  | none => .done

theorem behave_retyped {S R : Type} (performS : S → O → S × A × List (Errand L T))
    (turnS : S → T → S × List (Errand L T)) (performR : R → P → R × A × List (Errand M T))
    (turnR : R → T → R × List (Errand M T)) (op : O → P)
    (callback : ℓ → Received → Program ⟨O, A, L, T⟩ σ) (l : Listener ℓ) (params : Value) :
    behave (w := ⟨⟨P, A, M, T⟩, R, performR, turnR⟩)
        (fun label handed => (callback label handed).relabel op) (l.retype kindOf) params =
      (behave (w := ⟨⟨O, A, L, T⟩, S, performS, turnS⟩) (decoding kindOf callback) l params).relabel
        op := by
  rw [behave, retype_receives, retype_callback, behave]
  cases l.form.receive? params with
  | none => rfl
  | some handed =>
    rw [Option.bind_some]
    simp only [decoding]
    cases handed.through (kindOf l.callback) <;> rfl

end Behaviour

end Listener

section Histories

variable {O A T : Type}

def Happening.answer? {L : Type} : Happening ⟨O, A, L, T⟩ → Option A
  | .answered answer => some answer
  | .called _ _ => none

def Happening.handed? : Happening ⟨O, A, Listener ℓ, T⟩ → Option (ℓ × Received)
  | .called l params => (l.form.receive? params).map fun handed => (l.callback, handed)
  | .answered _ => none

theorem handed_retyped (kindOf : ℓ → Option Kind) (happening : Happening ⟨O, A, Listener ℓ, T⟩) :
    (happening.relabel (Listener.retype kindOf) : Happening ⟨O, A, Listener ℓ, T⟩).handed? =
      happening.handed?.bind fun heard =>
        (heard.2.through (kindOf heard.1)).map fun seen => (heard.1, seen) := by
  cases happening with
  | answered answer => rfl
  | called l params =>
    simp only [Happening.relabel, Happening.handed?, Listener.retype_receives, Listener.retype_callback]
    cases l.form.receive? params <;> rfl

-- Two runs that differ in the forms of their listeners: the same answers and calls, the same state of the
-- program, and every callback is handed what comes through of what it was handed otherwise.
structure AlikeButTyped {S σ : Type} {perform : S → O → S × A × List (Errand (Listener ℓ) T)}
    {turn : S → T → S × List (Errand (Listener ℓ) T)} (kindOf : ℓ → Option Kind) (world : S → S)
    (raw typed : Agenda ⟨⟨O, A, Listener ℓ, T⟩, S, perform, turn⟩ σ) : Prop where
  world : typed.world = world raw.world
  user : typed.user = raw.user
  idle : typed.isIdle = raw.isIdle
  answers : typed.history.filterMap Happening.answer? = raw.history.filterMap Happening.answer?
  history : typed.history = raw.history.map (Happening.relabel (Listener.retype kindOf))
  handed : typed.history.filterMap Happening.handed? =
    (raw.history.filterMap Happening.handed?).filterMap fun heard =>
      (heard.2.through (kindOf heard.1)).map fun seen => (heard.1, seen)

theorem alike_but_typed {S σ : Type} {perform : S → O → S × A × List (Errand (Listener ℓ) T)}
    {turn : S → T → S × List (Errand (Listener ℓ) T)} (kindOf : ℓ → Option Kind) (world : S → S)
    (op : O → O) (raw : Agenda ⟨⟨O, A, Listener ℓ, T⟩, S, perform, turn⟩ σ) :
    AlikeButTyped kindOf world raw (raw.relabel world op (Listener.retype kindOf)) where
  world := rfl
  user := rfl
  idle := by simp only [Agenda.relabel, Agenda.isIdle, List.isEmpty_map]
  answers := by
    simp only [Agenda.relabel, List.filterMap_map]
    refine congrArg (List.filterMap · raw.history) (funext fun happening => ?_)
    cases happening <;> rfl
  history := rfl
  handed := by
    simp only [Agenda.relabel, List.filterMap_map, List.filterMap_filterMap]
    exact congrArg (List.filterMap · raw.history) (funext (handed_retyped kindOf))

end Histories

section Emission

variable {κ σ : Type} (h : Hub κ) (event : String) (params : Value)

theorem Hub.emit_calls : (h.perform (.emit event params)).2 =
    (.called (h.entries event).length, (h.entries event).map fun entry => .call entry.listener params) := by
  simp only [perform, take, calls, List.length_map, List.map_map]
  rfl

theorem Hub.emit_keeps (filed : Filed h.topics) :
    (h.perform (.emit event params)).1.entries event = (h.entries event).filter (!·.once) := by
  have kept := keeping_under (fun name entry => name ≠ event || !entry.once) h.topics event filed
  refine kept.trans (List.filter_congr fun entry _ => ?_)
  rw [decide_eq_false (not_not_intro rfl), Bool.false_or]

variable (callback : ℓ → Received → Program (Hub.interface (Listener ℓ)) σ) (hub : Hub (Listener ℓ))
  (user : σ) (l : Listener ℓ) (rest : List (Job (Hub.interface (Listener ℓ)) σ))
  (history : List (Happening (Hub.interface (Listener ℓ))))

theorem undecoded_passes (undecoded : l.form.receive? params = none) :
    Agenda.advanceBy (w := Hub.world (Listener ℓ)) (Listener.behave callback) 2
        ⟨hub, user, .errand (.call l params) :: rest, history⟩ =
      ⟨hub, user, rest, history ++ [.called l params]⟩ := by
  have silent : Listener.behave (w := Hub.world (Listener ℓ)) callback l params = .done := by
    rw [Listener.behave, undecoded]
  simp only [Agenda.advanceBy, Agenda.advance, silent]

end Emission

theorem typed_listeners_decode {σ : Type} (kindOf : ℓ → Option Kind) (user : σ) (steps : Nat) :
    (∀ (callback : ℓ → Received → Program (Session.interface (Listener ℓ)) σ)
        (program : Program (Session.interface (Listener ℓ)) σ) (s : Session (Listener ℓ)),
      AlikeButTyped kindOf (Session.relabel (Listener.retype kindOf))
        (Agenda.advanceBy (w := Session.world (Listener ℓ))
          (Listener.behave (Listener.decoding kindOf callback)) steps (.start s user program))
        (Agenda.advanceBy (w := Session.world (Listener ℓ))
          (Listener.behave fun label handed =>
            (callback label handed).relabel (Session.Op.relabel (Listener.retype kindOf)))
          steps (.start (s.relabel (Listener.retype kindOf)) user
            (program.relabel (Session.Op.relabel (Listener.retype kindOf)))))) ∧
    (∀ (callback : ℓ → Received → Program (Hub.interface (Listener ℓ)) σ)
        (program : Program (Hub.interface (Listener ℓ)) σ) (h : Hub (Listener ℓ)),
      AlikeButTyped kindOf (Hub.relabel (Listener.retype kindOf))
        (Agenda.advanceBy (w := Hub.world (Listener ℓ))
          (Listener.behave (Listener.decoding kindOf callback)) steps (.start h user program))
        (Agenda.advanceBy (w := Hub.world (Listener ℓ))
          (Listener.behave fun label handed =>
            (callback label handed).relabel (Hub.Op.relabel (Listener.retype kindOf)))
          steps (.start (h.relabel (Listener.retype kindOf)) user
            (program.relabel (Hub.Op.relabel (Listener.retype kindOf)))))) ∧
    ∀ (callback : ℓ → Received → Program (Hub.interface (Listener ℓ)) σ) (h : Hub (Listener ℓ))
        (event : String) (params : Value) (entry : Entry (Listener ℓ)), Hub.Filed h.topics →
      entry ∈ h.entries event → entry.listener.form.receive? params = none →
      (h.perform (.emit event params)).2 = (.called (h.entries event).length,
        (h.entries event).map fun waiting => .call waiting.listener params) ∧
      (entry ∈ (h.perform (.emit event params)).1.entries event ↔ entry.once = false) ∧
      ∀ after rest history, Agenda.advanceBy (w := Hub.world (Listener ℓ)) (Listener.behave callback) 2
          ⟨after, user, .errand (.call entry.listener params) :: rest, history⟩ =
        ⟨after, user, rest, history ++ [.called entry.listener params]⟩ := by
  refine ⟨fun callback program s => ?_, fun callback program h => ?_,
    fun callback h event params entry filed waits undecoded => ⟨?_, ?_, fun after rest history => ?_⟩⟩
  · have run := Session.run_relabelled (Listener.retype kindOf) _ _
      (Listener.behave_retyped kindOf Session.perform Session.turn Session.perform Session.turn _ callback)
      steps (.start s user program)
    exact run ▸ alike_but_typed kindOf _ _ _
  · have run := Hub.run_relabelled (Listener.retype kindOf) _ _
      (Listener.behave_retyped kindOf Hub.perform (fun h _ => (h, [])) Hub.perform (fun h _ => (h, [])) _
        callback) steps (.start h user program)
    exact run ▸ alike_but_typed kindOf _ _ _
  · exact Hub.emit_calls h event params
  · rw [Hub.emit_keeps h event params filed, List.mem_filter]
    simp [waits]
  · exact undecoded_passes params callback after user entry.listener rest history undecoded

-- Two callbacks that take addresses, the second one only once, and one that takes whatever comes.
def addressed (label : Nat) : Option Kind :=
  if label < 2 then some (.record .navigateParams) else none

def addressListeners : Hub (Listener Nat) :=
  ⟨3, [("moved", [⟨0, false, ⟨.raw, 0⟩⟩, ⟨1, true, ⟨.raw, 1⟩⟩, ⟨2, false, ⟨.raw, 2⟩⟩])]⟩

def addressOnce : Entry (Listener Nat) := ⟨1, true, ⟨.typed (.record .navigateParams), 1⟩⟩

def address : Value := .object [("url", .text "u")]

def movedTwice : Program (Hub.interface (Listener Nat)) Unit :=
  .ask (.emit "moved" .empty) fun _ => .ask (.emit "moved" address) fun _ => .done

theorem addresses_decoded :
    (∃ typed : Agenda (Hub.world (Listener Nat)) Unit, typed.isIdle = true ∧
      AlikeButTyped addressed (Hub.relabel (Listener.retype addressed))
        (Agenda.advanceBy (w := Hub.world (Listener Nat))
          (Listener.behave (Listener.decoding addressed fun _ _ => .done)) 20
          (.start addressListeners () movedTwice)) typed ∧
      typed.history.filterMap Happening.handed? =
        [(2, .value .empty), (0, .datum (.record [("url", .text "u")])), (2, .value address)]) ∧
    addressOnce ∈ (addressListeners.relabel (Listener.retype addressed)).entries "moved" ∧
    addressOnce.listener.form.receive? .empty = none ∧
    addressOnce ∉ ((addressListeners.relabel (Listener.retype addressed)).perform
      (.emit "moved" .empty)).1.entries "moved" := by
  obtain ⟨_, hubs, passes⟩ := typed_listeners_decode addressed () 20
  have alike := hubs (fun _ _ => .done) movedTwice addressListeners
  refine ⟨⟨_, rfl, alike, rfl⟩, ?_⟩
  have filed : Hub.Filed (addressListeners.relabel (Listener.retype addressed)).topics :=
    ⟨by decide, by simp [Hub.relabel, Hub.relabelTopics, addressListeners]⟩
  have waits : addressOnce ∈ (addressListeners.relabel (Listener.retype addressed)).entries "moved" := by
    decide
  have undecoded : addressOnce.listener.form.receive? .empty = none := rfl
  obtain ⟨_, stays, _⟩ := passes (fun _ _ => .done) _ "moved" .empty addressOnce filed waits undecoded
  exact ⟨waits, undecoded, fun there => Bool.noConfusion (stays.mp there)⟩

end ProtocolStubs
