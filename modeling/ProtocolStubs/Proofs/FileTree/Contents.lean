import ProtocolStubs.FileTree.Access

set_option autoImplicit false

namespace ProtocolStubs.FileTree

def HoldsOnly (kind : Node → Prop) (top : Location) (t : FileTree) : Prop :=
  ∀ spot node, (spot, node) ∈ t.nodes → isBelow top spot = true → kind node

variable (kind : Node → Prop) (top : Location) (t : FileTree)

theorem clear_only : HoldsOnly kind top (t.clear top) := by
  intro spot node member below
  have kept := (List.mem_filter.mp member).2
  simp [below] at kept

theorem remove_only (spot : Location) (only : HoldsOnly kind top t) :
    HoldsOnly kind top (t.remove spot) :=
  fun other node member below => only other node (List.mem_filter.mp member).1 below

theorem add_only (spot : Location) (node : Node) (right : kind node) (only : HoldsOnly kind top t) :
    HoldsOnly kind top (t.add spot node) := by
  intro other found member below
  cases List.mem_append.mp member with
  | inl old => exact only other found (List.mem_filter.mp old).1 below
  | inr new =>
    cases List.mem_singleton.mp new
    exact right

theorem remove_empty_only (path : String) (only : HoldsOnly kind top t) :
    HoldsOnly kind top (t.removeEmpty path).1 := by
  unfold removeEmpty
  split
  · exact only
  · exact only
  · exact remove_only kind top t _ only

-- Nothing of the directory's contents is left, whatever becomes of the directory itself.
theorem remove_all_empties (path : String) (found : t.find path = .ok ⟨top, 0⟩)
    (stands : t.isDirectoryAt top = true) : HoldsOnly kind top (t.removeAll path).1 := by
  have emptied := remove_empty_only kind top (t.clear top) path (clear_only kind top t)
  simp only [removeAll, found, stands]
  simp only [ne_eq, not_true_eq_false, if_false, if_true]
  split
  · rename_i same
    rw [same] at emptied
    exact emptied
  · exact emptied

theorem make_directory_cases (path : String) : (∃ fault, t.makeDirectory path = (t, .error fault)) ∨
    ∃ directory name, t.place path = .ok (directory, some name) ∧ t.node? (directory ++ [name]) = none ∧
      t.makeDirectory path = (t.add (directory ++ [name]) .directory, .ok ()) := by
  rw [makeDirectory]
  cases placed : t.place path with
  | error fault => exact .inl ⟨fault, rfl⟩
  | ok place =>
    obtain ⟨directory, _ | name⟩ := place
    · exact .inl ⟨.present, rfl⟩
    · dsimp only
      split
      · exact .inl ⟨.present, rfl⟩
      · rename_i absent
        exact .inr ⟨directory, name, rfl, by simpa using absent, rfl⟩

theorem write_cases (path : String) (contents : ByteArray) :
    (∃ fault, t.write path contents = (t, .error fault)) ∨
      ∃ directory name, Text.endsWith path '/' = false ∧ t.place path = .ok (directory, some name) ∧
        t.node? (directory ++ [name]) ≠ some .directory ∧
        t.write path contents = (t.add (directory ++ [name]) (.file contents), .ok ()) := by
  rw [write]
  split
  · exact .inl ⟨.isDirectory, rfl⟩
  · rename_i ends
    cases placed : t.place path with
    | error fault => exact .inl ⟨fault, rfl⟩
    | ok place =>
      obtain ⟨directory, _ | name⟩ := place
      · exact .inl ⟨.isDirectory, rfl⟩
      · dsimp only
        split
        · exact .inl ⟨.isDirectory, rfl⟩
        · rename_i free
          exact .inr ⟨directory, name, by simpa using ends, rfl, by simpa [isDirectoryAt] using free, rfl⟩

theorem make_directory_only (path : String) (right : kind .directory) (only : HoldsOnly kind top t) :
    HoldsOnly kind top (t.makeDirectory path).1 := by
  rcases t.make_directory_cases path with ⟨_, same⟩ | ⟨_, _, _, _, made⟩
  · exact same ▸ only
  · exact made ▸ add_only kind top t _ _ right only

theorem write_only (path : String) (contents : ByteArray) (right : kind (.file contents))
    (only : HoldsOnly kind top t) : HoldsOnly kind top (t.write path contents).1 := by
  rcases t.write_cases path contents with ⟨_, same⟩ | ⟨_, _, _, _, _, written⟩
  · exact same ▸ only
  · exact written ▸ add_only kind top t _ _ right only

-- From a tree with the first property an action comes to an answer and a tree with the second.
def Yields {α : Type} (p : FileTree → Prop) (q : α → FileTree → Prop) (action : StateM FileTree α) :
    Prop :=
  ∀ t, p t → q (action.run t).1 (action.run t).2

theorem yields_bind {α β : Type} (p : FileTree → Prop) (q : α → FileTree → Prop)
    (r : β → FileTree → Prop) (first : StateM FileTree α) (next : α → StateM FileTree β)
    (begins : Yields p q first) (goes : ∀ a, Yields (q a) r (next a)) : Yields p r (first >>= next) :=
  fun t before => goes _ _ (begins t before)

-- What making one directory may come to: what an attempt comes to, what a fault is settled as, and what is
-- given up on.
structure Attempts (p : FileTree → Prop) (q : String → Except Fault Unit → FileTree → Prop)
    (path : String) : Prop where
  made : Yields p (q path) (access.makeDirectory path)
  settled : ∀ fault, Yields p (q path) (access.settle path fault)
  held : ∀ result t, q path result t → p t
  failed : ∀ fault t, p t → q path (.error fault) t

section Attempts

variable (p : FileTree → Prop) (q : String → Except Fault Unit → FileTree → Prop) (path : String)

theorem attempts_last (attempts : Attempts p q path) : Yields p (q path) (access.makeWith path []) := by
  refine yields_bind _ _ _ _ _ attempts.made fun result => ?_
  cases result with
  | ok _ => exact fun _ made => made
  | error fault => exact fun after left => attempts.settled fault after (attempts.held _ _ left)

theorem attempts_with (above : List String) (each : ∀ other ∈ path :: above, Attempts p q other) :
    Yields p (q path) (access.makeWith path above) := by
  induction above generalizing path with
  | nil => exact attempts_last p q path (each path List.mem_cons_self)
  | cons nearest further ih =>
    obtain ⟨own, others⟩ := List.forall_mem_cons.mp each
    refine yields_bind _ _ _ _ _ own.made fun result => ?_
    cases result with
    | ok _ => exact fun _ made => made
    | error fault =>
      cases fault with
      | other reason => exact fun after left => own.settled _ after (own.held _ _ left)
      | missing =>
        have first := others nearest List.mem_cons_self
        refine yields_bind _ (q nearest) _ _ _ (fun after left => ih nearest others _ (own.held _ _ left))
          fun result => ?_
        cases result with
        | ok _ => exact fun after made => attempts_last p q path own _ (first.held _ _ made)
        | error fault => exact fun after left => own.failed _ _ (first.held _ _ left)

end Attempts

def Keeps {α : Type} (p : FileTree → Prop) (action : StateM FileTree α) : Prop :=
  ∀ t, p t → p (action.run t).2

section Keeps

variable {α β : Type} (p : FileTree → Prop)

theorem keeps_pure (a : α) : Keeps p (pure a : StateM FileTree α) := fun _ before => before

theorem keeps_bind (first : StateM FileTree α) (next : α → StateM FileTree β)
    (kept : Keeps p first) (after : ∀ a, Keeps p (next a)) : Keeps p (first >>= next) :=
  fun t before => after _ _ (kept t before)

theorem attempts_keep (made : ∀ path, Keeps p (access.makeDirectory path)) (path : String) :
    Attempts p (fun _ _ => p) path where
  made := made path
  settled _ _ before := before
  held _ _ kept := kept
  failed _ _ kept := kept

theorem keeps_make_directories (made : ∀ path, Keeps p (access.makeDirectory path))
    (path : String) : Keeps p (access.makeDirectories path) := by
  unfold FileAccess.makeDirectories
  split
  · exact keeps_pure p _
  · exact attempts_with p _ path _ fun other _ => attempts_keep p made other

end Keeps

theorem bind_apply {α β : Type} (first : StateM FileTree α) (next : α → StateM FileTree β)
    (t : FileTree) : (first >>= next) t = next (first t).1 (first t).2 :=
  rfl

theorem run_bind {ε α β : Type} (first : ExceptT ε (StateM FileTree) α)
    (next : α → ExceptT ε (StateM FileTree) β) (t : FileTree) :
    (first >>= next).run t = match first.run t with
      | (.ok a, after) => (next a).run after
      | (.error cause, after) => (.error cause, after) := by
  change ExceptT.bindCont next (first.run t).1 (first.run t).2 = _
  cases first.run t with
  | mk result after =>
    cases result with
    | ok a => rfl
    | error cause => rfl

end ProtocolStubs.FileTree
