import Mathlib.Logic.Function.Iterate
import Mathlib.Logic.Relation
import ProtocolStubs.Crate.TypeGraph

set_option autoImplicit false

namespace ProtocolStubs.Crate.TypeGraph

open Relation

def Leads (g : TypeGraph) (name target : String) : Prop :=
  ∃ next, g.targets? name = some next ∧ target ∈ next

def Open (g : TypeGraph) (goal : String) (pending : List String) : Prop :=
  ∃ name ∈ pending, ReflTransGen (Leads g) name goal

theorem open_cons (g : TypeGraph) (goal name : String) (rest : List String) :
    Open g goal (name :: rest) ↔ ReflTransGen (Leads g) name goal ∨ Open g goal rest := by
  simp only [Open, List.mem_cons, or_and_right, exists_or, exists_eq_left]

theorem open_append (g : TypeGraph) (goal : String) (pending later : List String) :
    Open g goal (pending ++ later) ↔ Open g goal pending ∨ Open g goal later := by
  constructor
  · rintro ⟨name, member, path⟩
    rcases List.mem_append.mp member with early | late
    · exact .inl ⟨name, early, path⟩
    · exact .inr ⟨name, late, path⟩
  · rintro (⟨name, member, path⟩ | ⟨name, member, path⟩)
    · exact ⟨name, List.mem_append_left _ member, path⟩
    · exact ⟨name, List.mem_append_right _ member, path⟩

-- The part of a graph below names that are not seen yet. A name that was followed once may be taken out
-- of the graph, since a path that comes through it again can be cut short; so each step of the search
-- makes the graph smaller.
def unseen (g : TypeGraph) (seen : List String) : TypeGraph := g.filter fun entry => entry.1 ∉ seen

theorem unseen_targets (g : TypeGraph) (seen : List String) (name : String) :
    targets? (unseen g seen) name = if name ∈ seen then none else targets? g name := by
  induction g with
  | nil => exact (ite_self none).symm
  | cons entry rest ih =>
    obtain ⟨key, next⟩ := entry
    unfold targets? unseen at ih ⊢
    rw [List.filter_cons, List.lookup_cons]
    by_cases same : name = key
    · subst name
      by_cases old : key ∈ seen
      · simpa [old] using ih
      · simp [old]
    · have different : (name == key) = false := beq_eq_false_iff_ne.mpr same
      rw [different]
      split
      · rw [List.lookup_cons, different]
        exact ih
      · exact ih

theorem unseen_cons (g : TypeGraph) (seen : List String) (name : String) :
    unseen g (name :: seen) = without (unseen g seen) name := by
  unfold unseen without
  rw [List.filter_filter]
  apply List.filter_congr
  intro entry _
  by_cases same : entry.1 = name
  · simp [same]
  · simp [same, Ne.symm same]

theorem unseen_nothing (g : TypeGraph) : unseen g [] = g := by
  simp [unseen]

theorem without_unseen (g : TypeGraph) (name : String) : without g name = unseen g [name] := by
  rw [unseen_cons, unseen_nothing]

theorem without_leads (g : TypeGraph) (name source target : String) :
    Leads (without g name) source target ↔ source ≠ name ∧ Leads g source target := by
  unfold Leads
  rw [without_unseen, unseen_targets]
  by_cases same : source = name
  · simp [same]
  · simp [same]

theorem without_reaches (g : TypeGraph) (name source goal : String)
    (path : ReflTransGen (Leads (without g name)) source goal) :
    ReflTransGen (Leads g) source goal :=
  ReflTransGen.mono (fun source target leads => ((without_leads g name source target).mp leads).2)
    _ _ path

-- A path either keeps clear of the name or leaves it for the last time.
theorem last_visit (g : TypeGraph) (name source goal : String) (next : List String)
    (found : targets? g name = some next) (path : ReflTransGen (Leads g) source goal) :
    ReflTransGen (Leads (without g name)) source goal ∨ Open (without g name) goal next := by
  induction path using ReflTransGen.head_induction_on with
  | refl => exact .inl .refl
  | @head source middle leads _ ih =>
    rcases ih with clear | visits
    · by_cases same : source = name
      · subst same
        obtain ⟨targets, sameTargets, member⟩ := leads
        rw [found] at sameTargets
        cases sameTargets
        exact .inr ⟨middle, member, clear⟩
      · exact .inl (.head ((without_leads g name source middle).mpr ⟨same, leads⟩) clear)
    · exact .inr visits

theorem follow_open (g : TypeGraph) (goal name : String) (next rest : List String)
    (other : name ≠ goal) (found : targets? g name = some next) :
    ReflTransGen (Leads g) name goal ∨ Open g goal rest ↔
      Open (without g name) goal next ∨ Open (without g name) goal rest := by
  constructor
  · rintro (path | ⟨source, member, path⟩)
    · rcases last_visit g name name goal next found path with clear | visits
      · rcases clear.cases_head with same | ⟨_, leads, _⟩
        · exact absurd same other
        · exact absurd rfl ((without_leads g name name _).mp leads).1
      · exact .inl visits
    · rcases last_visit g name source goal next found path with clear | visits
      · exact .inr ⟨source, member, clear⟩
      · exact .inl visits
  · rintro (⟨target, member, path⟩ | ⟨source, member, path⟩)
    · exact .inl (.head ⟨next, found, member⟩ (without_reaches g name target goal path))
    · exact .inr ⟨source, member, without_reaches g name source goal path⟩

theorem dead_reaches (g : TypeGraph) (goal name : String) (other : name ≠ goal)
    (unknown : targets? g name = none) : ¬ReflTransGen (Leads g) name goal := by
  intro path
  rcases path.cases_head with same | ⟨_, ⟨_, found, _⟩, _⟩
  · exact other same
  · rw [unknown] at found
    cases found

theorem leads_to_open (g : TypeGraph) (goal : String) (pending : List String) :
    leadsTo goal g pending = true ↔ Open g goal pending := by
  induction g, pending using leadsTo.induct goal with
  | case1 g => simp [leadsTo, Open]
  | case2 g rest =>
    rw [leadsTo, if_pos rfl]
    exact iff_of_true rfl ⟨goal, List.mem_cons_self, .refl⟩
  | case3 g name rest other unknown ih =>
    rw [leadsTo, if_neg other]
    split
    · rw [ih, open_cons]
      exact (or_iff_right (dead_reaches g goal name other unknown)).symm
    · rename_i found
      rw [unknown] at found
      cases found
  | case4 g name rest other next found ih =>
    rw [leadsTo, if_neg other]
    split
    · rename_i unknown
      rw [found] at unknown
      cases unknown
    · rename_i next' found'
      rw [found] at found'
      cases found'
      rw [ih, open_append, open_cons]
      exact (follow_open g goal name next rest other found).symm

theorem closes_cycle_reaches (g : TypeGraph) (owner : String) (target : TypeRef) :
    closesCycle g owner target = true ↔ ReflTransGen (Leads g) target.qualifiedName owner := by
  rw [closesCycle, leads_to_open, open_cons]
  exact or_iff_left (by simp [Open])

inductive Search where
  | looking (seen pending : List String)
  | answered (closes : Bool)
deriving DecidableEq, Repr

def Search.step (g : TypeGraph) (owner : String) : Search → Search
  | .answered closes => .answered closes
  | .looking seen pending =>
    match pending.getLast? with
    | none => .answered false
    | some name =>
      if name = owner then .answered true
      else
        match targets? g name with
        | none => .looking seen pending.dropLast
        | some next =>
          if name ∈ seen then .looking seen pending.dropLast
          else .looking (name :: seen) (pending.dropLast ++ next)

theorem step_name (g : TypeGraph) (owner name : String) (seen rest : List String) :
    Search.step g owner (.looking seen (rest ++ [name])) =
      if name = owner then .answered true
      else
        match targets? (unseen g seen) name with
        | none => .looking seen rest
        | some next => .looking (name :: seen) (rest ++ next) := by
  rw [Search.step, List.getLast?_append, List.dropLast_append_of_ne_nil (by simp), unseen_targets]
  simp only [List.getLast?_singleton, Option.some_or, List.dropLast_singleton, List.append_nil]
  split
  · rfl
  · by_cases old : name ∈ seen
    · rw [if_pos old]
      cases targets? g name with
      | none => rfl
      | some next => exact if_pos old
    · rw [if_neg old]
      cases targets? g name with
      | none => rfl
      | some next => exact if_neg old

-- A step uses up a pending name, and its references come out of the part that was not seen before.
theorem step_progress (g : TypeGraph) (owner name : String) (seen rest : List String)
    (other : name ≠ owner) :
    ∃ seen' pending', Search.step g owner (.looking seen (rest ++ [name])) = .looking seen' pending' ∧
      size (unseen g seen') + pending'.length < size (unseen g seen) + (rest ++ [name]).length ∧
      leadsTo owner (unseen g seen) (rest ++ [name]) = leadsTo owner (unseen g seen') pending' := by
  have open_rest := open_append (unseen g seen) owner rest [name]
  rw [open_cons, or_iff_left (show ¬Open (unseen g seen) owner [] by simp [Open])] at open_rest
  rw [step_name, if_neg other, List.length_append, List.length_singleton]
  cases found : targets? (unseen g seen) name with
  | none =>
    refine ⟨seen, rest, rfl, by omega, ?_⟩
    rw [Bool.eq_iff_iff, leads_to_open, leads_to_open, open_rest]
    exact or_iff_left (dead_reaches (unseen g seen) owner name other found)
  | some next =>
    have smaller := size_without_lt (unseen g seen) name next found
    refine ⟨name :: seen, rest ++ next, rfl, ?_, ?_⟩
    · rw [unseen_cons, List.length_append]
      omega
    · rw [Bool.eq_iff_iff, leads_to_open, leads_to_open, open_rest, or_comm,
        follow_open (unseen g seen) owner name next rest other found, open_append, unseen_cons,
        or_comm]

theorem search_answers (g : TypeGraph) (owner : String) (seen pending : List String) (bound : Nat)
    (enough : size (unseen g seen) + pending.length ≤ bound) :
    ∃ steps ≤ bound + 1, (Search.step g owner)^[steps] (.looking seen pending) =
      .answered (leadsTo owner (unseen g seen) pending) := by
  induction bound generalizing seen pending with
  | zero =>
    have empty : pending = [] := List.length_eq_zero_iff.mp (by omega)
    subst empty
    exact ⟨1, Nat.le_refl 1, by rw [leadsTo]; rfl⟩
  | succ bound ih =>
    rcases List.eq_nil_or_concat pending with empty | ⟨rest, name, last⟩
    · subst empty
      exact ⟨1, by omega, by rw [leadsTo]; rfl⟩
    · rw [List.concat_eq_append] at last
      subst last
      by_cases here : name = owner
      · have leads : leadsTo owner (unseen g seen) (rest ++ [name]) = true := by
          rw [leads_to_open]
          exact ⟨name, by simp, here ▸ .refl⟩
        exact ⟨1, by omega, by rw [leads, Function.iterate_one, step_name, if_pos here]⟩
      · obtain ⟨seen', pending', step, smaller, same⟩ := step_progress g owner name seen rest here
        obtain ⟨steps, within, answer⟩ := ih seen' pending' (by omega)
        refine ⟨steps + 1, by omega, ?_⟩
        rw [Function.iterate_succ_apply, step, same]
        exact answer

theorem search_halts (g : TypeGraph) (owner : String) (target : TypeRef) :
    ∃ steps ≤ size g + 2,
      (Search.step g owner)^[steps] (.looking [] [target.qualifiedName]) =
        .answered (closesCycle g owner target) := by
  have found := search_answers g owner [] [target.qualifiedName] (size g + 1)
    (by rw [unseen_nothing]; exact Nat.le_refl _)
  rw [unseen_nothing] at found
  exact found

end ProtocolStubs.Crate.TypeGraph
