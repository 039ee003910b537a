import Mathlib.Data.List.DropRight
import ProtocolStubs.Proofs.Session.Simulation

set_option autoImplicit false

namespace ProtocolStubs

namespace Job

variable {i : Interface} {σ : Type}

def errand? : Job i σ → Option (Errand i.Listener i.Turn)
  | .errand e => some e
  | .run _ => none

def isErrand (j : Job i σ) : Bool := j.errand?.isSome

end Job

namespace Agenda

variable {w : World} {σ : Type}

def above (k : Nat) (a : Agenda w σ) : List (Job w σ) := a.jobs.take (a.jobs.length - k)

def owed (k : Nat) (a : Agenda w σ) : List (Errand w.Listener w.Turn) :=
  ((a.above k).rtakeWhile Job.isErrand).filterMap Job.errand?

def next? (k : Nat) (a : Agenda w σ) : Option (Errand w.Listener w.Turn) :=
  if (a.above k).all Job.isErrand then (a.owed k).head? else none

-- The agendas that the first steps start from, as long as there is a job above the lowest k.
def moments (behave : w.Listener → Value → Program w σ) (k : Nat) : Nat → Agenda w σ →
    List (Agenda w σ)
  | 0, _ => []
  | n + 1, a => if k < a.jobs.length then a :: moments behave k n (a.advance behave) else []

def afterwards (behave : w.Listener → Value → Program w σ) (k : Nat) : Nat → Agenda w σ → Agenda w σ
  | 0, a => a
  | n + 1, a => if k < a.jobs.length then afterwards behave k n (a.advance behave) else a

-- A listener called for an errand has its own jobs on top of the rest. So at every moment the jobs
-- above the old ones are those of a listener, if one is running, and then the errands still owed.
structure Layered (nested : List (Job w σ)) (own : List (Errand w.Listener w.Turn))
    (below : List (Job w σ)) (a : Agenda w σ) : Prop where
  jobs : a.jobs = nested ++ own.map .errand ++ below
  running : nested = [] ∨ ∃ front program, nested = front ++ [.run program]

variable (behave : w.Listener → Value → Program w σ) (nested below : List (Job w σ))
  (own : List (Errand w.Listener w.Turn)) (a : Agenda w σ)

theorem errands_owed : (own.map (Job.errand (i := w) (σ := σ))).filterMap Job.errand? = own := by
  rw [List.filterMap_map]
  exact List.filterMap_some

theorem all_errands : ∀ job ∈ (own.map (Job.errand (i := w) (σ := σ))).reverse,
    Job.isErrand job = true := by
  intro job member
  obtain ⟨_, _, rfl⟩ := List.mem_map.mp (List.mem_reverse.mp member)
  rfl

theorem layered_above (layered : Layered nested own below a) :
    a.above below.length = nested ++ own.map .errand := by
  rw [above, layered.jobs, List.length_append, Nat.add_sub_cancel, List.take_left]

theorem layered_owed (layered : Layered nested own below a) : a.owed below.length = own := by
  rw [owed, layered_above nested below own a layered, List.rtakeWhile, List.reverse_append,
    List.takeWhile_append_of_pos (all_errands own)]
  have stops : nested.reverse.takeWhile Job.isErrand = [] := by
    rcases layered.running with rfl | ⟨front, program, rfl⟩
    · rfl
    · rw [List.reverse_append]
      rfl
  rw [stops, List.append_nil, List.reverse_reverse, errands_owed]

theorem layered_next (layered : Layered [] own below a) : a.next? below.length = own.head? := by
  have all : (a.above below.length).all Job.isErrand = true := by
    rw [layered_above [] below own a layered, List.nil_append, ← List.all_reverse, List.all_eq_true]
    exact all_errands own
  rw [next?, if_pos all, layered_owed [] below own a layered]

theorem nested_next (layered : Layered nested own below a) (runs : nested ≠ []) :
    a.next? below.length = none := by
  obtain ⟨front, program, rfl⟩ := layered.running.resolve_left runs
  have busy : ¬(a.above below.length).all Job.isErrand = true := by
    rw [layered_above _ below own a layered, List.all_eq_true]
    intro all
    exact absurd (all (.run program) (by simp)) (by simp [Job.isErrand, Job.errand?])
  rw [next?, if_neg busy]

theorem layered_length (layered : Layered nested own below a) :
    below.length < a.jobs.length ↔ nested ≠ [] ∨ own ≠ [] := by
  rw [layered.jobs, List.length_append, List.length_append, List.length_map]
  rw [← List.length_pos_iff, ← List.length_pos_iff]
  omega

theorem moments_busy (k steps : Nat) (busy : k < a.jobs.length) :
    moments behave k (steps + 1) a = a :: moments behave k steps (a.advance behave) :=
  if_pos busy

theorem moments_over (k steps : Nat) (ended : a.jobs.length ≤ k) : moments behave k steps a = [] := by
  cases steps with
  | zero => rfl
  | succ steps => exact if_neg (Nat.not_lt.mpr ended)

theorem afterwards_busy (k steps : Nat) (busy : k < a.jobs.length) :
    afterwards behave k (steps + 1) a = afterwards behave k steps (a.advance behave) :=
  if_pos busy

theorem afterwards_over (k steps : Nat) (ended : a.jobs.length ≤ k) :
    afterwards behave k steps a = a := by
  cases steps with
  | zero => rfl
  | succ steps => exact if_neg (Nat.not_lt.mpr ended)

-- A step puts what it makes in the place of the first job; a program that goes on stays lowest.
theorem advance_first (job : Job w σ) (rest : List (Job w σ)) (first : a.jobs = job :: rest) :
    ∃ made, (a.advance behave).jobs = made ++ rest ∧
      ∀ program, job = .run program → made = [] ∨ ∃ front later, made = front ++ [.run later] := by
  obtain ⟨world, user, jobs, history⟩ := a
  subst first
  cases job with
  | run program =>
    cases program with
    | done => exact ⟨[], rfl, fun _ _ => .inl rfl⟩
    | look next => exact ⟨[.run (next user)], rfl, fun _ _ => .inr ⟨[], _, rfl⟩⟩
    | store user next => exact ⟨[.run next], rfl, fun _ _ => .inr ⟨[], next, rfl⟩⟩
    | ask op next =>
      refine ⟨(w.perform world op).2.2.map .errand ++ [.run (next (w.perform world op).2.1)], ?_,
        fun _ _ => .inr ⟨_, _, rfl⟩⟩
      rw [List.append_assoc]
      rfl
  | errand e =>
    cases e with
    | call listener params =>
      exact ⟨[.run (behave listener params)], rfl, fun _ impossible => by cases impossible⟩
    | turn t =>
      exact ⟨(w.turn world t).2.map .errand, rfl, fun _ impossible => by cases impossible⟩

theorem nested_advance (layered : Layered nested own below a) (runs : nested ≠ []) :
    ∃ later, Layered later own below (a.advance behave) := by
  obtain ⟨front, program, rfl⟩ := layered.running.resolve_left runs
  have jobs := layered.jobs
  cases front with
  | nil =>
    obtain ⟨made, after, stays⟩ := advance_first behave a (.run program)
      (own.map .errand ++ below) (by simpa using jobs)
    exact ⟨made, by rw [after, List.append_assoc], stays program rfl⟩
  | cons job rest =>
    obtain ⟨made, after, _⟩ := advance_first behave a job
      (rest ++ [.run program] ++ own.map .errand ++ below) (by simpa using jobs)
    refine ⟨made ++ rest ++ [.run program], ?_, .inr ⟨made ++ rest, program, rfl⟩⟩
    rw [after]
    simp only [List.append_assoc]

theorem call_advance (listener : w.Listener) (params : Value)
    (layered : Layered [] (.call listener params :: own) below a) :
    Layered [.run (behave listener params)] own below (a.advance behave) ∧
      (a.advance behave).world = a.world := by
  obtain ⟨world, user, jobs, history⟩ := a
  obtain rfl : jobs = _ := layered.jobs
  exact ⟨⟨rfl, .inr ⟨[], _, rfl⟩⟩, rfl⟩

theorem turn_advance (t : w.Turn) (layered : Layered [] (.turn t :: own) below a) :
    Layered [] ((w.turn a.world t).2 ++ own) below (a.advance behave) ∧
      (a.advance behave).world = (w.turn a.world t).1 := by
  obtain ⟨world, user, jobs, history⟩ := a
  obtain rfl : jobs = _ := layered.jobs
  refine ⟨⟨?_, .inl rfl⟩, rfl⟩
  rw [List.map_append, List.nil_append]
  exact (List.append_assoc _ _ _).symm

end Agenda

end ProtocolStubs
