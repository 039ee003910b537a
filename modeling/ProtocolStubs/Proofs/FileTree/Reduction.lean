import Mathlib.Data.List.Basic
import ProtocolStubs.FileTree.Tree
import ProtocolStubs.Proofs.Outcomes

set_option autoImplicit false

namespace ProtocolStubs

namespace Path

-- Takes in one more part; what is left of the parts before it stands last first.
def push (left : List String) (part : String) : List String :=
  if part = "" ∨ part = "." then left
  else if part = ".." ∧ left.head?.any isName = true then left.tail
  else part :: left

def reduced (path : String) : List String := (parts path).foldl push []

def isSpent (path : String) : Bool := !(reduced path).any isName

-- The parts left are names below some steps up from the origin.
structure Leads (origin : Location) (left : List String) (place : Location) : Prop where
  leads : ∃ names ups, left = names ++ List.replicate ups ".." ∧ (∀ name ∈ names, isName name = true) ∧
    place = origin.take (origin.length - ups) ++ names.reverse

theorem leads_start (origin : Location) : Leads origin [] origin :=
  ⟨[], 0, rfl, by simp, by simp⟩

theorem leads_down (origin place : Location) (left : List String) (name : String)
    (named : isName name = true) (leads : Leads origin left place) :
    Leads origin (push left name) (place ++ [name]) := by
  obtain ⟨names, ups, rfl, all, rfl⟩ := leads
  have pushed : push (names ++ List.replicate ups "..") name =
      name :: names ++ List.replicate ups ".." := by
    simp only [isName, Bool.and_eq_true, decide_eq_true_eq, ne_eq] at named
    simp [push, named]
  refine ⟨name :: names, ups, pushed, ?_, by simp⟩
  intro other member
  cases List.mem_cons.mp member with
  | inl same => exact same ▸ named
  | inr old => exact all other old

theorem leads_up (origin place : Location) (left : List String) (leads : Leads origin left place) :
    Leads origin (push left "..") place.dropLast := by
  obtain ⟨names, ups, rfl, all, rfl⟩ := leads
  cases names with
  | nil =>
    have pushed : push ([] ++ List.replicate ups "..") ".." = List.replicate (ups + 1) ".." := by
      cases ups with
      | zero => rfl
      | succ ups => rfl
    refine ⟨[], ups + 1, pushed, by simp, ?_⟩
    have shorter : min (min (origin.length - ups) origin.length - 1) (origin.length - ups) =
        origin.length - (ups + 1) := by omega
    rw [List.reverse_nil, List.append_nil, List.append_nil, List.dropLast_eq_take, List.take_take,
      List.length_take, shorter]
  | cons name names =>
    have pushed : push (name :: names ++ List.replicate ups "..") ".." =
        names ++ List.replicate ups ".." := by
      simp [push, all name List.mem_cons_self]
    refine ⟨names, ups, pushed, fun other member => all other (List.mem_cons_of_mem _ member), ?_⟩
    rw [List.reverse_cons, ← List.append_assoc, List.dropLast_concat]

theorem leads_spent (origin place : Location) (left : List String) (leads : Leads origin left place)
    (spent : left.any isName = false) : place <+: origin := by
  obtain ⟨names, ups, rfl, all, rfl⟩ := leads
  cases names with
  | nil => simpa using List.take_prefix _ origin
  | cons name names => simp [all name List.mem_cons_self] at spent

theorem push_nameless (left : List String) (part : String) (none_left : left.any isName = false)
    (nameless : isName part = false) : (push left part).any isName = false := by
  unfold push
  split
  · exact none_left
  · split
    · cases left with
      | nil => rfl
      | cons name below =>
        rw [List.any_cons, Bool.or_eq_false_iff] at none_left
        exact none_left.2
    · rw [List.any_cons, nameless, none_left, Bool.or_false]

theorem nameless_spent (path : String) (nameless : hasName path = false) : isSpent path = true := by
  have stays : ∀ (parts left : List String), parts.any isName = false → left.any isName = false →
      (parts.foldl push left).any isName = false := by
    intro parts
    induction parts with
    | nil => exact fun left _ none_left => none_left
    | cons part rest ih =>
      intro left none_coming none_left
      rw [List.any_cons, Bool.or_eq_false_iff] at none_coming
      exact ih _ none_coming.2 (push_nameless left part none_left none_coming.1)
  rw [isSpent, reduced, stays (parts path) [] nameless rfl, Bool.not_false]

end Path

namespace FileTree

variable (t : FileTree)

def pass (s : Standpoint) (part : String) : Except Fault Standpoint := do
  t.enter s
  if part = "" ∨ part = "." then return s
  else if part = ".." then return s.above
  else if s.lost = 0 then
    checkName part
    return ⟨s.location ++ [part], 0⟩
  else throw .missing

theorem walk_part (s : Standpoint) (part : String) (rest : List String) :
    t.walk s (part :: rest) = t.pass s part >>= fun next => t.walk next rest := by
  rw [walk, pass]
  cases t.enter s with
  | error fault => rfl
  | ok _ =>
    by_cases silent : part = "" ∨ part = "."
    · simp only [silent, if_true]
      rfl
    · by_cases up : part = ".."
      · subst up
        rfl
      · by_cases firm : s.lost = 0
        · simp only [silent, up, firm, if_true, if_false]
          cases checkName part <;> rfl
        · simp only [silent, up, firm, if_false]
          rfl

theorem walk_nil (s last : Standpoint) (walked : t.walk s [] = .ok last) : last = s := by
  rw [walk] at walked
  split at walked
  · cases walked
  · exact (Except.ok.inj walked).symm

theorem walk_cons (s last : Standpoint) (part : String) (rest : List String) :
    t.walk s (part :: rest) = .ok last ↔
      ∃ next, t.pass s part = .ok next ∧ t.walk next rest = .ok last := by
  rw [walk_part, bind_ok]

inductive Step (s : Standpoint) : String → Standpoint → Prop
  | silent (part : String) (quiet : part = "" ∨ part = ".") : Step s part s
  | up : Step s ".." s.above
  | down (name : String) (firm : s.lost = 0) (named : Path.isName name = true)
      (called : checkName name = .ok ()) : Step s name ⟨s.location ++ [name], 0⟩

theorem named_part (part : String) (plain : part ≠ "..") :
    Path.isName part = true ↔ ¬(part = "" ∨ part = ".") := by
  simp [Path.isName, plain]

theorem pass_step (s next : Standpoint) (part : String) :
    t.pass s part = .ok next ↔ t.enter s = .ok () ∧ Step s part next := by
  constructor
  · intro passed
    obtain ⟨_, entered, passed⟩ := (bind_ok _ _ _).mp passed
    refine ⟨entered, ?_⟩
    split at passed
    · rename_i quiet
      cases passed
      exact .silent part quiet
    · rename_i loud
      split at passed
      · rename_i up
        cases passed
        exact up ▸ .up
      · rename_i other
        split at passed
        · rename_i firm
          obtain ⟨_, called, same⟩ := (bind_ok _ _ _).mp passed
          cases same
          exact .down part firm ((named_part part other).mpr loud) called
        · cases passed
  · rintro ⟨entered, step⟩
    rw [pass, entered]
    cases step with
    | silent _ quiet => exact if_pos quiet
    | up => rfl
    | down _ firm named called =>
      simp only [Path.isName, Bool.and_eq_true, decide_eq_true_eq, ne_eq] at named
      simp [named, firm, called, bind, Except.bind, pure, Except.pure]

theorem pass_name (s next : Standpoint) (name : String) (named : Path.isName name = true)
    (passed : t.pass s name = .ok next) :
    s.lost = 0 ∧ checkName name = .ok () ∧ next = ⟨s.location ++ [name], 0⟩ := by
  cases ((t.pass_step s next name).mp passed).2 with
  | silent _ quiet => rcases quiet with rfl | rfl <;> cases named
  | up => cases named
  | down _ firm _ called => exact ⟨firm, called, rfl⟩

theorem pass_silent (s next : Standpoint) (part : String) (quiet : part = "" ∨ part = ".")
    (passed : t.pass s part = .ok next) : next = s := by
  cases ((t.pass_step s next part).mp passed).2 with
  | silent => rfl
  | up => simp at quiet
  | down _ _ named _ => rcases quiet with rfl | rfl <;> cases named

theorem walk_silent (silent : List String) (s last : Standpoint)
    (quiet : ∀ part ∈ silent, part = "" ∨ part = ".") (walked : t.walk s silent = .ok last) : last = s := by
  induction silent with
  | nil => exact walk_nil t s last walked
  | cons part rest ih =>
    obtain ⟨here, later⟩ := List.forall_mem_cons.mp quiet
    obtain ⟨next, passed, onward⟩ := (walk_cons t _ _ _ _).mp walked
    rw [pass_silent t s next part here passed] at onward
    exact ih later onward

theorem pass_leads (origin : Location) (left : List String) (s next : Standpoint) (part : String)
    (leads : Path.Leads origin left s.location) (passed : t.pass s part = .ok next) :
    Path.Leads origin (Path.push left part) next.location := by
  cases ((t.pass_step s next part).mp passed).2 with
  | silent _ quiet => rwa [Path.push, if_pos quiet]
  | up => exact Path.leads_up origin s.location left leads
  | down _ _ named _ => exact Path.leads_down origin s.location left part named leads

theorem walk_leads (origin : Location) (parts left : List String) (s last : Standpoint)
    (leads : Path.Leads origin left s.location) (walked : t.walk s parts = .ok last) :
    Path.Leads origin (parts.foldl Path.push left) last.location := by
  induction parts generalizing s left with
  | nil => exact walk_nil t s last walked ▸ leads
  | cons part rest ih =>
    obtain ⟨next, passed, walked⟩ := (walk_cons t _ _ _ _).mp walked
    exact ih _ next (pass_leads t origin left s next part leads passed) walked

theorem spent_walk (path : String) (s last : Standpoint) (spent : Path.isSpent path = true)
    (walked : t.walk s (Path.parts path) = .ok last) : last.location <+: s.location := by
  have leads := walk_leads t s.location _ [] s last (Path.leads_start s.location) walked
  have nothing : (Path.reduced path).any Path.isName = false := by
    rwa [Path.isSpent, Bool.not_eq_true'] at spent
  exact Path.leads_spent s.location last.location _ leads nothing

theorem find_checked (path : String) (s : Standpoint) : t.find path = .ok s ↔
    checkPath path = .ok () ∧ t.walk (t.origin path) (Path.parts path) = .ok s := by
  rw [find, bind_ok]
  exact ⟨fun ⟨_, checked, walked⟩ => ⟨checked, walked⟩, fun ⟨checked, walked⟩ => ⟨(), checked, walked⟩⟩

theorem find_walk (path : String) (s : Standpoint) (found : t.find path = .ok s) :
    t.walk (t.origin path) (Path.parts path) = .ok s :=
  ((find_checked t path s).mp found).2

theorem spent_find (path : String) (s : Standpoint) (spent : Path.isSpent path = true)
    (found : t.find path = .ok s) : s.location <+: (t.origin path).location :=
  spent_walk t path _ s spent (find_walk t path s found)

end FileTree

end ProtocolStubs
