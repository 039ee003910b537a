import Mathlib.Data.List.Nodup
import ProtocolStubs.Proofs.Hub.Filing
import ProtocolStubs.Proofs.Schema.NameOrder

set_option autoImplicit false

namespace ProtocolStubs

structure Subscribed (κ : Type) where
  id : Nat
  event : String
  once : Bool
  listener : κ
deriving DecidableEq, Repr

def Subscribed.entry {κ : Type} (s : Subscribed κ) : Entry κ := ⟨s.id, s.once, s.listener⟩

structure Log (κ : Type) where
  nextId : Nat
  live : List (Subscribed κ)
deriving DecidableEq, Repr

namespace Log

variable {κ : Type}

def empty : Log κ := ⟨0, []⟩

def add (l : Log κ) (event : String) (once : Bool) (listener : κ) : Log κ × Nat :=
  (⟨l.nextId + 1, l.live ++ [⟨l.nextId, event, once, listener⟩]⟩, l.nextId)

def off (l : Log κ) (id : Nat) : Log κ × Bool :=
  ({ l with live := l.live.filter fun s => s.id ≠ id }, l.live.any fun s => s.id == id)

def waiting (l : Log κ) (event : String) : List (Subscribed κ) :=
  l.live.filter fun s => s.event = event

-- Takes the sublist of the event. Its once entries leave the log, and then the listeners taken are to be
-- called in order.
def emit (l : Log κ) (event : String) (params : Value) : Log κ × Hub.Answer × List (κ × Value) :=
  ({ l with live := l.live.filter fun s => s.event ≠ event || !s.once },
    .called (l.waiting event).length, (l.waiting event).map fun s => (s.listener, params))

def route (l : Log κ) (domain : String) (m : Message) : Log κ × Hub.Answer × List (κ × Value) :=
  match m.eventFor? domain with
  | some event => l.emit event m.params
  | none => (l, .called 0, [])

def count (l : Log κ) (event : String) : Nat := (l.waiting event).length

def counts (l : Log κ) : List (String × Nat) :=
  (sortedNames (l.live.map Subscribed.event)).map fun event => (event, l.count event)

def perform (l : Log κ) : Hub.Op κ → Log κ × Hub.Answer × List (κ × Value)
  | .add event once listener =>
    let (l, id) := l.add event once listener
    (l, .listener id, [])
  | .off id =>
    let (l, was) := l.off id
    (l, .removed was, [])
  | .emit event params => l.emit event params
  | .route domain message => l.route domain message
  | .count event => (l, .count (l.count event), [])
  | .describe => (l, .text (Hub.describeCounts l.counts), [])

-- A run of a program, after the calls that are due before it. A called listener runs to its end, and with
-- it whatever it emits, before the next one is called.
inductive Runs {σ : Type} (behave : κ → Value → Program (Hub.interface κ) σ) :
    Log κ → σ → List (κ × Value) → Program (Hub.interface κ) σ →
      Log κ → σ → List (Happening (Hub.interface κ)) → Prop where
  | done {l user} : Runs behave l user [] .done l user []
  | look {l user next last after history} (rest : Runs behave l user [] (next user) last after history) :
      Runs behave l user [] (.look next) last after history
  | store {l user stored next last after history}
      (rest : Runs behave l stored [] next last after history) :
      Runs behave l user [] (.store stored next) last after history
  | ask {l user op next last after history}
      (rest : Runs behave (l.perform op).1 user (l.perform op).2.2 (next (l.perform op).2.1)
        last after history) :
      Runs behave l user [] (.ask op next) last after (.answered (l.perform op).2.1 :: history)
  | call {l user listener params between amid called due program last after later}
      (inner : Runs behave l user [] (behave listener params) between amid called)
      (rest : Runs behave between amid due program last after later) :
      Runs behave l user ((listener, params) :: due) program last after
        (.called listener params :: called ++ later)

def errand (call : κ × Value) : Errand κ Empty := .call call.1 call.2

abbrev world (κ : Type) : World where
  toInterface := Hub.interface κ
  State := Log κ
  perform := fun l op => ((l.perform op).1, (l.perform op).2.1, (l.perform op).2.2.map errand)
  turn := fun l _ => (l, [])

theorem waiting_add (l : Log κ) (event other : String) (once : Bool) (listener : κ) :
    (l.add event once listener).1.waiting other =
      if other = event then l.waiting other ++ [⟨l.nextId, event, once, listener⟩]
      else l.waiting other := by
  by_cases hit : other = event
  · simp [waiting, add, hit]
  · simp [waiting, add, hit, Ne.symm hit]

structure Numbered (l : Log κ) : Prop where
  ascending : l.live.Pairwise fun a b => a.id < b.id
  below : ∀ s ∈ l.live, s.id < l.nextId

theorem numbered_filter (l : Log κ) (keep : Subscribed κ → Bool) (numbered : Numbered l) :
    Numbered { l with live := l.live.filter keep } :=
  ⟨numbered.ascending.filter keep, fun s member => numbered.below s (List.mem_filter.mp member).1⟩

theorem numbered_add (l : Log κ) (event : String) (once : Bool) (listener : κ)
    (numbered : Numbered l) : Numbered (l.add event once listener).1 := by
  refine ⟨List.pairwise_append.mpr ⟨numbered.ascending, List.pairwise_singleton _ _, ?_⟩, ?_⟩
  · intro old member fresh isFresh
    rw [List.mem_singleton.mp isFresh]
    exact numbered.below old member
  · intro s member
    rcases List.mem_append.mp member with old | fresh
    · exact Nat.lt_succ_of_lt (numbered.below s old)
    · rw [List.mem_singleton.mp fresh]
      exact Nat.lt_succ_self l.nextId

theorem numbered_unique (l : Log κ) (numbered : Numbered l) (s t : Subscribed κ)
    (left : s ∈ l.live) (right : t ∈ l.live) (same : s.id = t.id) : s = t := by
  have ids : (l.live.map Subscribed.id).Nodup :=
    List.pairwise_map.mpr (numbered.ascending.imp Nat.ne_of_lt)
  exact List.inj_on_of_nodup_map ids left right same

end Log

namespace Hub

variable {κ : Type}

-- A hub reads as a log when it files, under each event, the entries of the log that wait for it.
structure Reads (h : Hub κ) (l : Log κ) : Prop where
  next : h.nextId = l.nextId
  entries : ∀ event, h.entries event = (l.waiting event).map Subscribed.entry
  filed : Filed h.topics
  numbered : l.Numbered

theorem empty_reads : Reads (Hub.empty : Hub κ) Log.empty :=
  ⟨rfl, fun _ => rfl, filed_nil, ⟨List.Pairwise.nil, by simp [Log.empty]⟩⟩

theorem add_reads (h : Hub κ) (l : Log κ) (event : String) (once : Bool) (listener : κ)
    (reads : Reads h l) :
    Reads (h.add event once listener).1 (l.add event once listener).1 ∧
      (h.add event once listener).2 = (l.add event once listener).2 := by
  refine ⟨⟨congrArg (· + 1) reads.next, fun other => ?_, file_filed _ _ _ reads.filed,
    Log.numbered_add l event once listener reads.numbered⟩, reads.next⟩
  have old := reads.entries other
  rw [entries_under] at old ⊢
  rw [Log.waiting_add]
  change under (file event ⟨h.nextId, once, listener⟩ h.topics) other = _
  rw [file_under, old, reads.next]
  by_cases hit : other = event
  · rw [if_pos hit, if_pos hit, List.map_append]
    rfl
  · rw [if_neg hit, if_neg hit]

theorem member_reads (h : Hub κ) (l : Log κ) (reads : Reads h l) (event : String) (entry : Entry κ) :
    entry ∈ h.entries event ↔ ∃ s ∈ l.live, s.event = event ∧ s.entry = entry := by
  rw [reads.entries event, List.mem_map]
  simp only [Log.waiting, List.mem_filter, decide_eq_true_eq, and_assoc]

theorem keeping_reads (h : Hub κ) (l : Log κ) (keep : String → Entry κ → Bool) (reads : Reads h l) :
    Reads { h with topics := keeping keep h.topics }
      { l with live := l.live.filter fun s => keep s.event s.entry } := by
  refine ⟨reads.next, fun event => ?_, keeping_filed keep h.topics reads.filed,
    Log.numbered_filter l _ reads.numbered⟩
  have old := reads.entries event
  rw [entries_under] at old
  change under (keeping keep h.topics) event =
    ((l.live.filter fun s => keep s.event s.entry).filter fun s => s.event = event).map _
  rw [keeping_under keep h.topics event reads.filed, old, List.filter_map, List.filter_filter,
    Log.waiting, List.filter_filter]
  congr 1
  apply List.filter_congr
  intro s _
  by_cases hit : s.event = event <;> simp [hit]

theorem off_reads (h : Hub κ) (l : Log κ) (id : Nat) (reads : Reads h l) :
    Reads (h.off id).1 (l.off id).1 ∧ (h.off id).2 = (l.off id).2 := by
  refine ⟨keeping_reads h l (fun _ entry => entry.id ≠ id) reads, ?_⟩
  rw [Bool.eq_iff_iff]
  simp only [off, Log.off, List.any_eq_true, beq_iff_eq]
  constructor
  · rintro ⟨topic, member, entry, inside, hit⟩
    have filed : entry ∈ h.entries topic.1 := by
      rw [entries_under, under_member h.topics topic reads.filed member]
      exact inside
    obtain ⟨s, live, _, same⟩ := (member_reads h l reads topic.1 entry).mp filed
    exact ⟨s, live, (congrArg Entry.id same).trans hit⟩
  · rintro ⟨s, live, hit⟩
    have filed : s.entry ∈ h.entries s.event :=
      (member_reads h l reads s.event s.entry).mpr ⟨s, live, rfl, rfl⟩
    exact ⟨_, member_under h.topics s.event s.entry filed, s.entry, filed, hit⟩

theorem take_reads (h : Hub κ) (l : Log κ) (event : String) (params : Value) (reads : Reads h l) :
    Reads (h.take event).1 (l.emit event params).1 ∧
      .called (h.take event).2.length = (l.emit event params).2.1 ∧
      calls (h.take event).2 params = (l.emit event params).2.2.map Log.errand := by
  refine ⟨keeping_reads h l (fun name entry => name ≠ event || !entry.once) reads, ?_, ?_⟩
  · change Answer.called ((h.entries event).map Entry.listener).length = .called (l.waiting event).length
    rw [reads.entries event, List.length_map, List.length_map]
  · change calls ((h.entries event).map Entry.listener) params = _
    rw [reads.entries event, calls, Log.emit, List.map_map, List.map_map, List.map_map]
    rfl

theorem route_reads (h : Hub κ) (l : Log κ) (domain : String) (m : Message) (reads : Reads h l) :
    Reads (h.route domain m).1 (l.route domain m).1 ∧
      .called (h.route domain m).2.length = (l.route domain m).2.1 ∧
      calls (h.route domain m).2 m.params = (l.route domain m).2.2.map Log.errand := by
  unfold route Log.route
  cases m.eventFor? domain with
  | none => exact ⟨reads, rfl, rfl⟩
  | some event => exact take_reads h l event m.params reads

theorem count_reads (h : Hub κ) (l : Log κ) (event : String) (reads : Reads h l) :
    h.count event = l.count event := by
  unfold count Log.count
  rw [reads.entries event, List.length_map]

end Hub

end ProtocolStubs
