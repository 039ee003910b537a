import ProtocolStubs.Generation.Output
import ProtocolStubs.Proofs.FileTree.Contents
import ProtocolStubs.Proofs.FileTree.Reduction

set_option autoImplicit false

namespace ProtocolStubs.OutputDirectory

open FileTree (Keeps HoldsOnly)

-- From a tree with the first property an action comes to one with the second, however it ends; and
-- what it fails with has to do with files.
def Ends {α : Type} (p q : FileTree → Prop) (action : ExceptT GenerationError (StateM FileTree) α) :
    Prop :=
  ∀ t, p t → q (action.run t).2 ∧ ∀ cause, (action.run t).1 = .error cause →
    ∃ path reason, cause = .files path reason

variable {α β : Type} (p q : FileTree → Prop)

theorem ends_pure (a : α) : Ends q q (pure a) := by
  refine fun t before => ⟨before, fun cause failed => ?_⟩
  cases failed

theorem ends_bind (first : ExceptT GenerationError (StateM FileTree) α)
    (next : α → ExceptT GenerationError (StateM FileTree) β) (begins : Ends p q first)
    (goes : ∀ a, Ends q q (next a)) : Ends p q (first >>= next) := by
  intro t before
  obtain ⟨holds, faults⟩ := begins t before
  rw [FileTree.run_bind]
  cases done : first.run t with
  | mk result after =>
    rw [done] at holds faults
    cases result with
    | ok a => exact goes a after holds
    | error cause =>
      refine ⟨holds, fun other failed => ?_⟩
      cases failed
      exact faults cause rfl

theorem fault_files (path : String) (result : Except Fault α) (cause : GenerationError)
    (failed : GenerationError.ofFault path result = .error cause) :
    ∃ path reason, cause = .files path reason := by
  cases result with
  | ok a => cases failed
  | error fault =>
    cases failed
    exact ⟨path, fault.message, rfl⟩

theorem ends_files (path : String) (action : StateM FileTree (Except Fault α))
    (comes : ∀ t, p t → q (action.run t).2) :
    Ends p q (ExceptT.mk (GenerationError.ofFault path <$> action)) :=
  fun t before => ⟨comes t before, fault_files path (action.run t).1⟩

theorem run_wipe (path : String) (t : FileTree) :
    (wipe FileTree.access path).run t =
      if t.holds path then (GenerationError.ofFault path (t.removeAll path).2, (t.removeAll path).1)
      else (.ok (), t) := by
  change (if t.holds path = true then _ else _ : ExceptT GenerationError (StateM FileTree) Unit).run t = _
  split <;> rfl

theorem wipe_ends (path : String)
    (removes : ∀ t, p t → t.holds path = true → q (t.removeAll path).1)
    (absent : ∀ t, p t → t.holds path = false → q t) : Ends p q (wipe FileTree.access path) := by
  intro t before
  rw [run_wipe]
  cases there : t.holds path with
  | true => exact ⟨removes t before there, fault_files path (t.removeAll path).2⟩
  | false =>
    refine ⟨absent t before there, fun cause failed => ?_⟩
    cases failed

theorem clean_ends (path : String) (named : Path.hasName path = true)
    (wiped : Ends p q (wipe FileTree.access path))
    (makes : ∀ path, Keeps q (FileTree.access.makeDirectory path)) :
    Ends p q (clean FileTree.access path) := by
  rw [clean, if_pos named]
  refine ends_bind p q _ _ wiped fun _ => ?_
  refine ends_bind q q _ _ ?_ fun _ => ends_pure q _
  exact ends_files q q path _ (FileTree.keeps_make_directories q makes path)

theorem clean_unnamed (path : String) (t : FileTree) (unnamed : Path.hasName path = false) :
    (clean FileTree.access path).run t = (.error (.unsafeDirectory path), t) := by
  rw [clean, if_neg (by simp [unnamed])]
  rfl

theorem clean_faults (path : String) (named : Path.hasName path = true) :
    Ends (fun _ => True) (fun _ => True) (clean FileTree.access path) :=
  clean_ends _ _ path named (wipe_ends _ _ path (fun _ _ _ => trivial) fun _ _ _ => trivial)
    fun _ _ _ => trivial

theorem clean_refused (path : String) (t : FileTree) :
    (clean FileTree.access path).run t = (.error (.unsafeDirectory path), t) ↔
      Path.hasName path = false := by
  constructor
  · intro refused
    cases named : Path.hasName path with
    | false => rfl
    | true =>
      obtain ⟨_, _, files⟩ := (clean_faults path named t trivial).2 (.unsafeDirectory path)
        (congrArg Prod.fst refused)
      cases files
  · exact clean_unnamed path t

-- No path is refused that still names something once its names are cancelled.
theorem refused_spent (path : String) (t : FileTree)
    (refused : (clean FileTree.access path).run t = (.error (.unsafeDirectory path), t)) :
    Path.isSpent path = true :=
  Path.nameless_spent path ((clean_refused path t).mp refused)

theorem clean_empties (kind : Node → Prop) (top : Location) (path : String)
    (named : Path.hasName path = true) (right : kind .directory) :
    Ends (fun t => t.find path = .ok ⟨top, 0⟩ ∧ t.isDirectoryAt top = true) (HoldsOnly kind top)
      (clean FileTree.access path) := by
  apply clean_ends _ _ path named
  · apply wipe_ends
    · intro t leads _
      exact FileTree.remove_all_empties kind top t path leads.1 leads.2
    · intro t leads absent
      rw [FileTree.holds, leads.1] at absent
      cases absent
  · exact fun other t only => FileTree.make_directory_only kind top t other right only

theorem spent_clean (t : FileTree) (path : String) (spent : Path.isSpent path = true) :
    let outcome := (clean FileTree.access path).run t
    (outcome = (.error (.unsafeDirectory path), t) ↔ Path.hasName path = false) ∧
      (Path.hasName path = true → ∀ other, outcome.1 ≠ .error (.unsafeDirectory other)) ∧
      ∀ top, t.find path = .ok ⟨top, 0⟩ → top <+: (t.origin path).location ∧
        (Path.hasName path = true → t.isDirectoryAt top = true →
          HoldsOnly (fun node => node = .directory) top outcome.2) := by
  intro outcome
  refine ⟨clean_refused path t, ?_, ?_⟩
  · intro named other refused
    obtain ⟨_, _, files⟩ := (clean_faults path named t trivial).2 _ refused
    cases files
  · intro top found
    refine ⟨FileTree.spent_find t path _ spent found, fun named stands => ?_⟩
    exact (clean_empties (fun node => node = .directory) top path named rfl t ⟨found, stands⟩).1

def working : FileTree :=
  ⟨[(["w"], .directory), (["w", "x"], .directory), (["w", "x", "a"], .file "t".toUTF8),
    (["w", "keep"], .file "k".toUTF8)], ⟨["w"], 0⟩⟩

theorem dots_refused : Path.isSpent "./.." = true ∧
    (clean FileTree.access "./..").run working = (.error (.unsafeDirectory "./.."), working) := by
  have spent : Path.isSpent "./.." = true := by decide
  exact ⟨spent, (spent_clean working "./.." spent).1.mpr (by decide)⟩

-- The working directory itself, by way of a directory in it: of all that it held only that is made again.
theorem cancelled_name_wipes : Path.isSpent "x/.." = true ∧
    (clean FileTree.access "x/..").run working =
      (.ok ⟨"x/.."⟩, ⟨[(["w"], .directory), (["w", "x"], .directory)], ⟨["w"], 0⟩⟩) :=
  ⟨by decide, rfl⟩

end ProtocolStubs.OutputDirectory
