import ProtocolStubs.Json.Value

set_option autoImplicit false

namespace ProtocolStubs

inductive Errand (κ τ : Type) where
  | call (listener : κ) (params : Value)
  | turn (t : τ)
deriving Repr

-- What programs see of a world: what they may ask for, what they are answered, and whom they can
-- have called.
structure Interface where
  Op : Type
  Answer : Type
  Listener : Type
  Turn : Type

-- Operations on a state. Each is done in one step, as is each turn.
structure World extends Interface where
  State : Type
  perform : State → Op → State × Answer × List (Errand Listener Turn)
  turn : State → Turn → State × List (Errand Listener Turn)

instance : Coe World Interface := ⟨World.toInterface⟩

-- What a caller or a called listener does. Its own state is of type `σ`; how it goes on may depend
-- on that state and on every answer.
inductive Program (i : Interface) (σ : Type) where
  | done
  | look (next : σ → Program i σ)
  | store (user : σ) (next : Program i σ)
  | ask (op : i.Op) (next : i.Answer → Program i σ)

inductive Job (i : Interface) (σ : Type) where
  | run (program : Program i σ)
  | errand (e : Errand i.Listener i.Turn)

inductive Happening (i : Interface) where
  | answered (answer : i.Answer)
  | called (listener : i.Listener) (params : Value)

-- All that is still to do stands on one list. An operation may leave errands behind, above all calls of
-- listeners, and these are done before the program goes on; a called listener runs a program of its
-- own, whose errands come first again.
structure Agenda (w : World) (σ : Type) where
  world : w.State
  user : σ
  jobs : List (Job w σ)
  history : List (Happening w)

namespace Agenda

variable {w : World} {σ : Type}

def start (world : w.State) (user : σ) (program : Program w σ) : Agenda w σ :=
  ⟨world, user, [.run program], []⟩

def isIdle (a : Agenda w σ) : Bool := a.jobs.isEmpty

def advance (behave : w.Listener → Value → Program w σ) (a : Agenda w σ) : Agenda w σ :=
  match a.jobs with
  | [] => a
  | .run .done :: rest => { a with jobs := rest }
  | .run (.look next) :: rest => { a with jobs := .run (next a.user) :: rest }
  | .run (.store user next) :: rest => { a with user := user, jobs := .run next :: rest }
  | .run (.ask op next) :: rest =>
    let (world, answer, errands) := w.perform a.world op
    { a with
      world := world
      jobs := errands.map .errand ++ .run (next answer) :: rest
      history := a.history ++ [.answered answer] }
  | .errand (.call listener params) :: rest =>
    { a with
      jobs := .run (behave listener params) :: rest
      history := a.history ++ [.called listener params] }
  | .errand (.turn t) :: rest =>
    let (world, errands) := w.turn a.world t
    { a with world := world, jobs := errands.map .errand ++ rest }

def advanceBy (behave : w.Listener → Value → Program w σ) : Nat → Agenda w σ → Agenda w σ
  | 0, a => a
  | n + 1, a => advanceBy behave n (a.advance behave)

end Agenda

end ProtocolStubs
