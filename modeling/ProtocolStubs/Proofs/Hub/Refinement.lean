import ProtocolStubs.Proofs.Hub.Log
import ProtocolStubs.Proofs.Session.Simulation

set_option autoImplicit false

namespace ProtocolStubs.Hub

variable {κ σ : Type}

theorem mem_counts (h : Hub κ) (count : String × Nat) (filed : Filed h.topics)
    (member : count ∈ h.counts) : count = (count.1, h.count count.1) := by
  obtain ⟨topic, inside, same⟩ := List.mem_map.mp (List.mem_mergeSort.mp member)
  subst same
  rw [Hub.count, entries_under, under_member h.topics topic filed inside]

theorem counts_names_perm (h : Hub κ) :
    (h.counts.map Prod.fst).Perm (h.topics.map Prod.fst) := by
  have sameNames : h.topics.map Prod.fst =
      (h.topics.map fun topic => (topic.1, topic.2.length)).map Prod.fst := by
    rw [List.map_map]
    rfl
  rw [sameNames]
  exact (List.mergeSort_perm _ _).map Prod.fst

theorem counts_ascending (h : Hub κ) (filed : Filed h.topics) :
    Ascending (h.counts.map Prod.fst) := by
  have sorted : h.counts.Pairwise fun a b => decide (a.1 ≤ b.1) = true := by
    apply List.pairwise_mergeSort
    · intro a b c first second
      exact decide_eq_true (String.le_trans (of_decide_eq_true first) (of_decide_eq_true second))
    · intro a b
      simpa using String.le_total a.1 b.1
  have distinct : h.counts.Pairwise fun a b => a.1 ≠ b.1 :=
    List.pairwise_map.mp ((counts_names_perm h).nodup_iff.mpr filed.names)
  apply List.pairwise_map.mpr
  refine List.Pairwise.imp₂ ?_ sorted distinct
  intro a b le different
  exact name_above b.1 a.1 (String.not_lt.mpr (of_decide_eq_true le)) (Ne.symm different)

theorem topic_names_reads (h : Hub κ) (l : Log κ) (reads : Reads h l) (name : String) :
    name ∈ h.topics.map Prod.fst ↔ name ∈ l.live.map Subscribed.event := by
  constructor
  · intro filed
    obtain ⟨topic, member, same⟩ := List.mem_map.mp filed
    obtain ⟨entry, inside⟩ := List.exists_mem_of_ne_nil topic.2 (reads.filed.occupied topic member)
    have stands : entry ∈ h.entries topic.1 := by
      rw [entries_under, under_member h.topics topic reads.filed member]
      exact inside
    obtain ⟨s, live, event, _⟩ := (member_reads h l reads topic.1 entry).mp stands
    exact List.mem_map.mpr ⟨s, live, event.trans same⟩
  · intro waits
    obtain ⟨s, live, same⟩ := List.mem_map.mp waits
    have stands : s.entry ∈ h.entries s.event :=
      (member_reads h l reads s.event s.entry).mpr ⟨s, live, rfl, rfl⟩
    exact List.mem_map.mpr ⟨_, member_under h.topics s.event s.entry stands, same⟩

theorem counts_reads (h : Hub κ) (l : Log κ) (reads : Reads h l) : h.counts = l.counts := by
  have counted : h.counts = (h.counts.map Prod.fst).map fun event => (event, h.count event) := by
    rw [List.map_map]
    conv_lhs => rw [← List.map_id h.counts]
    exact List.map_congr_left fun count member => mem_counts h count reads.filed member
  have names : h.counts.map Prod.fst = sortedNames (l.live.map Subscribed.event) := by
    apply ascending_unique _ _ (counts_ascending h reads.filed) (sorted_names_ascending _)
    intro name
    rw [mem_sortedNames, (counts_names_perm h).mem_iff]
    exact topic_names_reads h l reads name
  rw [counted, names, Log.counts]
  exact List.map_congr_left fun event _ => by rw [count_reads h l event reads]

theorem perform_reads (h : Hub κ) (l : Log κ) (op : Op κ) (reads : Reads h l) :
    Reads (h.perform op).1 (l.perform op).1 ∧ (h.perform op).2.1 = (l.perform op).2.1 ∧
      (h.perform op).2.2 = (l.perform op).2.2.map Log.errand := by
  cases op with
  | add event once listener =>
    obtain ⟨after, same⟩ := add_reads h l event once listener reads
    exact ⟨after, congrArg Answer.listener same, rfl⟩
  | off id =>
    obtain ⟨after, same⟩ := off_reads h l id reads
    exact ⟨after, congrArg Answer.removed same, rfl⟩
  | emit event params => exact take_reads h l event params reads
  | route domain message => exact route_reads h l domain message reads
  | count event => exact ⟨reads, congrArg Answer.count (count_reads h l event reads), rfl⟩
  | describe =>
    exact ⟨reads, congrArg (fun counts => Answer.text (describeCounts counts)) (counts_reads h l reads), rfl⟩

def Answer.issued : Answer → List Nat
  | .listener id => [id]
  | _ => []

def issuedIds (history : List (Happening (interface κ))) : List Nat :=
  history.flatMap fun
    | .answered answer => answer.issued
    | .called _ _ => []

theorem issued_append (history later : List (Happening (interface κ))) :
    issuedIds (history ++ later) = issuedIds history ++ issuedIds later :=
  List.flatMap_append

theorem perform_issues (h : Hub κ) (op : Op κ) :
    List.range (h.perform op).1.nextId = List.range h.nextId ++ (h.perform op).2.1.issued := by
  cases op with
  | add event once listener => exact List.range_succ
  | off id => exact (List.append_nil _).symm
  | emit event params => exact (List.append_nil _).symm
  | route domain message =>
    simp only [perform, route]
    split <;> exact (List.append_nil _).symm
  | count event => exact (List.append_nil _).symm
  | describe => exact (List.append_nil _).symm

theorem advance_issues (behave : κ → Value → Program (interface κ) σ) (a : Agenda (world κ) σ)
    (counted : issuedIds a.history = List.range a.world.nextId) :
    issuedIds (a.advance behave).history = List.range (a.advance behave).world.nextId := by
  obtain ⟨h, user, jobs, history⟩ := a
  cases jobs with
  | nil => exact counted
  | cons job rest =>
    cases job with
    | run program =>
      cases program with
      | done => exact counted
      | look next => exact counted
      | store user next => exact counted
      | ask op next =>
        change issuedIds (history ++ [.answered (h.perform op).2.1]) =
          List.range (h.perform op).1.nextId
        rw [issued_append, perform_issues]
        exact congrArg₂ (· ++ ·) counted (List.append_nil _)
    | errand e =>
      cases e with
      | call listener params =>
        change issuedIds (history ++ [.called listener params]) = List.range h.nextId
        rw [issued_append]
        exact (List.append_nil _).trans counted
      | turn t => exact t.elim

theorem live_filed_once (h : Hub κ) (l : Log κ) (reads : Reads h l) (s : Subscribed κ)
    (live : s ∈ l.live) (event : String) :
    s.id ∈ (h.entries event).map Entry.id ↔ event = s.event := by
  constructor
  · intro filed
    obtain ⟨entry, stands, sameId⟩ := List.mem_map.mp filed
    obtain ⟨t, alsoLive, sameEvent, sameEntry⟩ := (member_reads h l reads event entry).mp stands
    have ids : t.id = s.id := (congrArg Entry.id sameEntry).trans sameId
    rw [← Log.numbered_unique l reads.numbered t s alsoLive live ids, sameEvent]
  · intro same
    exact List.mem_map.mpr ⟨s.entry,
      (member_reads h l reads event s.entry).mpr ⟨s, live, same.symm, rfl⟩, rfl⟩

theorem run_reads (behave : κ → Value → Program (interface κ) σ) (program : Program (interface κ) σ)
    (user : σ) (steps : Nat) :
    Agenda.Alike Reads
      (Agenda.advanceBy behave steps (.start (w := world κ) Hub.empty user program))
      (Agenda.advanceBy behave steps (.start (w := Log.world κ) Log.empty user program)) := by
  apply Agenda.advance_by_alike
  · intro h l op reads
    obtain ⟨after, answer, errands⟩ := perform_reads h l op reads
    exact ⟨after, Prod.ext answer errands⟩
  · exact fun _ _ (turn : Empty) _ => turn.elim
  · exact ⟨empty_reads, rfl, rfl, rfl⟩

section Finished

variable (behave : κ → Value → Program (interface κ) σ)

inductive Finishes : Log κ → σ → List (Job (interface κ) σ) → Log κ → σ →
    List (Happening (interface κ)) → Prop where
  | nil {l user} : Finishes l user [] l user []
  | run {l user program between amid ran jobs last after later}
      (own : Log.Runs behave l user [] program between amid ran)
      (rest : Finishes between amid jobs last after later) :
      Finishes l user (.run program :: jobs) last after (ran ++ later)
  | call {l user listener params between amid called jobs last after later}
      (own : Log.Runs behave l user [] (behave listener params) between amid called)
      (rest : Finishes between amid jobs last after later) :
      Finishes l user (.errand (.call listener params) :: jobs) last after
        (.called listener params :: called ++ later)

def dueJobs (due : List (κ × Value)) : List (Job (interface κ) σ) :=
  (due.map Log.errand).map Job.errand

variable {behave}

theorem finishes_due {due : List (κ × Value)} {l last : Log κ} {user after : σ}
    {program : Program (interface κ) σ} {jobs : List (Job (interface κ) σ)}
    {history : List (Happening (interface κ))}
    (finishes : Finishes behave l user (dueJobs due ++ .run program :: jobs) last after history) :
    ∃ between amid ran later, Log.Runs behave l user due program between amid ran ∧
      Finishes behave between amid jobs last after later ∧ history = ran ++ later := by
  induction due generalizing l user history with
  | nil =>
    cases finishes with
    | run own rest => exact ⟨_, _, _, _, own, rest, rfl⟩
  | cons call due ih =>
    cases finishes with
    | call own rest =>
      obtain ⟨between, amid, ran, later, runs, jobs, rfl⟩ := ih rest
      exact ⟨between, amid, _, later, .call own runs, jobs, by simp⟩

-- One step backwards: what a step leaves to do is what there was, less what the step has done.
theorem advance_finishes (a : Agenda (Log.world κ) σ) (last : Log κ) (after : σ)
    (history : List (Happening (interface κ)))
    (finishes : Finishes behave (a.advance behave).world (a.advance behave).user
      (a.advance behave).jobs last after history) :
    ∃ whole, Finishes behave a.world a.user a.jobs last after whole ∧
      a.history ++ whole = (a.advance behave).history ++ history := by
  obtain ⟨l, user, jobs, past⟩ := a
  cases jobs with
  | nil => exact ⟨history, finishes, rfl⟩
  | cons job rest =>
    cases job with
    | run program =>
      cases program with
      | done => exact ⟨history, .run .done finishes, rfl⟩
      | look next =>
        cases finishes with
        | run own later => exact ⟨_, .run (.look own) later, rfl⟩
      | store stored next =>
        cases finishes with
        | run own later => exact ⟨_, .run (.store own) later, rfl⟩
      | ask op next =>
        obtain ⟨_, _, ran, later, runs, jobs, rfl⟩ := finishes_due finishes
        exact ⟨_, .run (.ask runs) jobs, by simp [Agenda.advance]⟩
    | errand e =>
      cases e with
      | call listener params =>
        cases finishes with
        | run own later => exact ⟨_, .call own later, by simp [Agenda.advance]⟩
      | turn t => exact t.elim

theorem idle_finished (steps : Nat) (a : Agenda (Log.world κ) σ)
    (idle : (a.advanceBy behave steps).jobs = []) :
    ∃ history, Finishes behave a.world a.user a.jobs (a.advanceBy behave steps).world
        (a.advanceBy behave steps).user history ∧
      (a.advanceBy behave steps).history = a.history ++ history := by
  induction steps generalizing a with
  | zero =>
    change a.jobs = [] at idle
    exact ⟨[], idle ▸ .nil, (List.append_nil _).symm⟩
  | succ steps ih =>
    obtain ⟨history, finishes, grown⟩ := ih (a.advance behave) idle
    obtain ⟨whole, all, same⟩ := advance_finishes a _ _ history finishes
    exact ⟨whole, all, grown.trans same.symm⟩

theorem run_finished (program : Program (interface κ) σ) (user : σ) (steps : Nat)
    (idle : (Agenda.advanceBy behave steps (.start (w := Log.world κ) Log.empty user program)).jobs = []) :
    let log := Agenda.advanceBy behave steps (.start (w := Log.world κ) Log.empty user program)
    Log.Runs behave Log.empty user [] program log.world log.user log.history := by
  intro log
  obtain ⟨history, finishes, grown⟩ := idle_finished steps _ idle
  rw [grown]
  cases finishes with
  | run own rest =>
    cases rest with
    | nil => simpa [log, Agenda.start] using own

theorem runs_reached {l last : Log κ} {user after : σ} {due : List (κ × Value)}
    {program : Program (interface κ) σ} {history : List (Happening (interface κ))}
    (runs : Log.Runs behave l user due program last after history) :
    ∀ (jobs : List (Job (interface κ) σ)) (past : List (Happening (interface κ))), ∃ steps,
      Agenda.advanceBy (w := Log.world κ) behave steps
        ⟨l, user, dueJobs due ++ .run program :: jobs, past⟩ = ⟨last, after, jobs, past ++ history⟩ := by
  induction runs with
  | done => exact fun jobs past => ⟨1, by rw [List.append_nil]; rfl⟩
  | look _ ih =>
    intro jobs past
    obtain ⟨steps, reached⟩ := ih jobs past
    exact ⟨steps + 1, reached⟩
  | store _ ih =>
    intro jobs past
    obtain ⟨steps, reached⟩ := ih jobs past
    exact ⟨steps + 1, reached⟩
  | @ask l user op next last after history _ ih =>
    intro jobs past
    obtain ⟨steps, reached⟩ := ih jobs (past ++ [.answered (l.perform op).2.1])
    exact ⟨steps + 1, reached.trans (by simp)⟩
  | @call l user listener params between amid called due program last after later _ _ inner rest =>
    intro jobs past
    obtain ⟨first, own⟩ := inner (dueJobs due ++ .run program :: jobs) (past ++ [.called listener params])
    obtain ⟨second, reached⟩ := rest jobs (past ++ [.called listener params] ++ called)
    refine ⟨first + second + 1, ?_⟩
    rw [Agenda.advance_by_succ, Agenda.advance_by_add]
    refine (congrArg (Agenda.advanceBy behave second) own).trans (reached.trans ?_)
    simp

end Finished

-- A hub's run and the log's, step by step beside each other.
structure Refines (hub : Agenda (world κ) σ) (log : Agenda (Log.world κ) σ) : Prop where
  history : hub.history = log.history
  user : hub.user = log.user
  idle : hub.isIdle = log.isIdle
  issued : issuedIds hub.history = List.range hub.world.nextId
  entries : ∀ event, hub.world.entries event = (log.world.waiting event).map Subscribed.entry
  filedOnce : ∀ s ∈ log.world.live, ∀ event,
    s.id ∈ (hub.world.entries event).map Entry.id ↔ event = s.event
  names : (hub.world.topics.map Prod.fst).Nodup
  occupied : ∀ topic ∈ hub.world.topics, topic.2 ≠ []

theorem hub_refines_log (behave : κ → Value → Program (interface κ) σ)
    (program : Program (interface κ) σ) (user : σ) :
    (∀ steps,
      let hub := Agenda.advanceBy behave steps (.start (w := world κ) Hub.empty user program)
      let log := Agenda.advanceBy behave steps (.start (w := Log.world κ) Log.empty user program)
      Refines hub log ∧ (hub.isIdle = true →
        Log.Runs behave Log.empty user [] program log.world hub.user hub.history)) ∧
    ∀ last after history, Log.Runs behave Log.empty user [] program last after history → ∃ steps,
      let hub := Agenda.advanceBy behave steps (.start (w := world κ) Hub.empty user program)
      hub.isIdle = true ∧ hub.user = after ∧ hub.history = history ∧
        ∀ event, hub.world.entries event = (last.waiting event).map Subscribed.entry := by
  constructor
  · intro steps hub log
    have alike : Agenda.Alike Reads hub log := run_reads behave program user steps
    have issued : issuedIds hub.history = List.range hub.world.nextId :=
      Agenda.advance_by_keeps (w := world κ) behave
        (fun a => issuedIds a.history = List.range a.world.nextId) (advance_issues behave) steps _ rfl
    refine ⟨⟨alike.history, alike.user, congrArg List.isEmpty alike.jobs, issued, alike.world.entries,
      fun s live event => live_filed_once hub.world log.world alike.world s live event,
      alike.world.filed.names, alike.world.filed.occupied⟩, fun idle => ?_⟩
    rw [alike.user, alike.history]
    exact run_finished program user steps (alike.jobs.symm.trans (List.isEmpty_iff.mp idle))
  · intro last after history runs
    obtain ⟨steps, reached⟩ := runs_reached runs [] []
    have alike := run_reads behave program user steps
    have same : Agenda.advanceBy behave steps (.start (w := Log.world κ) Log.empty user program) =
        ⟨last, after, [], history⟩ := reached
    rw [same] at alike
    exact ⟨steps, congrArg List.isEmpty alike.jobs, alike.user, alike.history, alike.world.entries⟩

end ProtocolStubs.Hub
