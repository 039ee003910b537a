import ProtocolStubs.Proofs.Hub.Chronicle

set_option autoImplicit false

namespace ProtocolStubs.Hub

variable {κ σ : Type}

def draw (h : Hub κ) : Hub κ × Nat := ({ h with nextId := h.nextId + 1 }, h.nextId)

def insert (h : Hub κ) (event : String) (s : Entry κ) : Hub κ :=
  { h with topics := file event s h.topics }

theorem add_halves (h : Hub κ) (event : String) (once : Bool) (listener : κ) :
    h.add event once listener = (h.draw.1.insert event ⟨h.draw.2, once, listener⟩, h.draw.2) := rfl

inductive Task (κ σ : Type) where
  | run (program : Program (interface κ) σ)
  -- A subscription whose number is drawn is still to be filed.
  | file (event : String) (entry : Entry κ) (next : Program (interface κ) σ)
  -- Those of a snapshot that are still to be called.
  | call (emission : Nat) (left : List (Entry κ)) (params : Value)

structure Stride (κ σ : Type) where
  hub : Hub κ
  user : σ
  tasks : List (Task κ σ)
  marks : List (Mark κ)

-- `now` is the place that the next mark will have in the chronicle.
def snapshot (h : Hub κ) (user : σ) (now : Nat) (event : String) (params : Value)
    (next : Answer → Program (interface κ) σ) : Stride κ σ :=
  ⟨(h.take event).1, user,
    [.call now (h.entries event) params, .run (next (.called (h.take event).2.length))],
    [.taken event (h.entries event)]⟩

def asked (h : Hub κ) (user : σ) (now : Nat) (next : Answer → Program (interface κ) σ) :
    Op κ → Stride κ σ
  | .add event once listener =>
    ⟨h.draw.1, user, [.file event ⟨h.draw.2, once, listener⟩ (next (.listener h.draw.2))], []⟩
  | .off id => ⟨(h.off id).1, user, [.run (next (.removed (h.off id).2))], [.off id (h.off id).2]⟩
  | .emit event params => h.snapshot user now event params next
  | .route domain message =>
    match message.eventFor? domain with
    | some event => h.snapshot user now event message.params next
    | none => ⟨h, user, [.run (next (.called 0))], []⟩
  | .count event => ⟨h, user, [.run (next (.count (h.count event)))], []⟩
  | .describe => ⟨h, user, [.run (next (.text h.describe))], []⟩

def stride (behave : κ → Value → Program (interface κ) σ) (h : Hub κ) (user : σ) (now : Nat) :
    Task κ σ → Stride κ σ
  | .run .done => ⟨h, user, [], []⟩
  | .run (.look next) => ⟨h, user, [.run (next user)], []⟩
  | .run (.store user next) => ⟨h, user, [.run next], []⟩
  | .run (.ask op next) => h.asked user now next op
  | .file event s next => ⟨h.insert event s, user, [.run next], [.filed event s]⟩
  | .call _ [] _ => ⟨h, user, [], []⟩
  | .call n (s :: left) params =>
    ⟨h, user, [.run (behave s.listener params), .call n left params], [.called n s]⟩

-- What needs the hub to itself is one step: drawing a number, filing a subscription, removing one, and
-- an emission's snapshot. The listeners of a snapshot are called one by one in later steps, and between
-- any two steps of one caller all the others may take theirs. One list of tasks for each caller, the
-- first task first.
structure Callers (κ σ : Type) where
  hub : Hub κ
  user : σ
  tasks : List (List (Task κ σ))
  chronicle : Chronicle κ

namespace Callers

def start (user : σ) (programs : List (Program (interface κ) σ)) : Callers κ σ :=
  ⟨empty, user, programs.map fun program => [.run program], []⟩

def step (behave : κ → Value → Program (interface κ) σ) (c : Callers κ σ) (who : Nat) :
    Callers κ σ :=
  match c.tasks[who]? with
  | some (task :: rest) =>
    let made := c.hub.stride behave c.user c.chronicle.length task
    ⟨made.hub, made.user, c.tasks.set who (made.tasks ++ rest), c.chronicle ++ made.marks⟩
  | _ => c

def run (behave : κ → Value → Program (interface κ) σ) (c : Callers κ σ) (schedule : List Nat) :
    Callers κ σ :=
  schedule.foldl (step behave) c

def isIdle (c : Callers κ σ) : Bool := c.tasks.all List.isEmpty

end Callers

-- A caller's step as the chronicle alone allows it, with no hub at hand: the task at its front, what is made
-- of the user's state, the tasks that come in its place, and the marks.
inductive Moves (behave : κ → Value → Program (interface κ) σ) (past : Chronicle κ) (user : σ) :
    Task κ σ → σ → List (Task κ σ) → List (Mark κ) → Prop where
  | done : Moves behave past user (.run .done) user [] []
  | look {next} : Moves behave past user (.run (.look next)) user [.run (next user)] []
  | store {stored next} : Moves behave past user (.run (.store stored next)) stored [.run next] []
  | add {event once listener next id} (fresh : ∀ name s, .filed name s ∈ past → s.id ≠ id) :
      Moves behave past user (.run (.ask (.add event once listener) next)) user
        [.file event ⟨id, once, listener⟩ (next (.listener id))] []
  | file {event s next} (follows : past.Follows (.filed event s)) :
      Moves behave past user (.file event s next) user [.run next] [.filed event s]
  | off {id was next} (follows : past.Follows (.off id was)) :
      Moves behave past user (.run (.ask (.off id) next)) user [.run (next (.removed was))] [.off id was]
  | emit {event params entries next} (follows : past.Follows (.taken event entries)) :
      Moves behave past user (.run (.ask (.emit event params) next)) user
        [.call past.length entries params, .run (next (.called entries.length))] [.taken event entries]
  | route {domain message event entries next} (meant : message.eventFor? domain = some event)
      (follows : past.Follows (.taken event entries)) :
      Moves behave past user (.run (.ask (.route domain message) next)) user
        [.call past.length entries message.params, .run (next (.called entries.length))]
        [.taken event entries]
  | ignore {domain message next} (meant : message.eventFor? domain = none) :
      Moves behave past user (.run (.ask (.route domain message) next)) user [.run (next (.called 0))] []
  | count {event entries next} (follows : past.Follows (.taken event entries)) :
      Moves behave past user (.run (.ask (.count event) next)) user
        [.run (next (.count entries.length))] []
  | describe {text next} :
      Moves behave past user (.run (.ask .describe next)) user [.run (next (.text text))] []
  | call {n s left params} (follows : past.Follows (.called n s)) :
      Moves behave past user (.call n (s :: left) params) user
        [.run (behave s.listener params), .call n left params] [.called n s]
  | calledAll {n params} : Moves behave past user (.call n [] params) user [] []

inductive Interleaved (behave : κ → Value → Program (interface κ) σ) (user : σ)
    (programs : List (Program (interface κ) σ)) :
    List Nat → σ → List (List (Task κ σ)) → Chronicle κ → Prop where
  | start : Interleaved behave user programs [] user (programs.map fun program => [.run program]) []
  | step {schedule state tasks past who task rest after made marks}
      (before : Interleaved behave user programs schedule state tasks past)
      (front : tasks[who]? = some (task :: rest)) (moves : Moves behave past state task after made marks) :
      Interleaved behave user programs (schedule ++ [who]) after (tasks.set who (made ++ rest))
        (past ++ marks)
  | idle {schedule state tasks past who}
      (before : Interleaved behave user programs schedule state tasks past)
      (nothing : ∀ task rest, tasks[who]? ≠ some (task :: rest)) :
      Interleaved behave user programs (schedule ++ [who]) state tasks past

end ProtocolStubs.Hub
