import ProtocolStubs.Proofs.FileTree.PlainPaths
import ProtocolStubs.Proofs.Lookup

set_option autoImplicit false

namespace ProtocolStubs.FileTree

def Closed (t : FileTree) : Prop :=
  ∀ spot name, t.node? (spot ++ [name]) ≠ none → t.node? spot = some .directory

def spot (t : FileTree) (path : String) : Location := (t.origin path).location ++ Path.names path

structure Walkable (path : String) : Prop where
  checked : checkPath path = .ok ()
  named : ∀ name ∈ Path.names path, checkName name = .ok ()

variable (t : FileTree)

theorem closed_of_listed (listed : ∀ entry ∈ t.nodes, t.node? entry.1.dropLast = some .directory) :
    t.Closed := by
  intro spot name there
  rw [node?, if_neg (by simp)] at there
  obtain ⟨node, found⟩ := Option.ne_none_iff_exists'.mp there
  have parent := listed _ (lookup_mem _ _ _ found)
  rwa [List.dropLast_concat] at parent

theorem closed_way (closed : t.Closed) (top spot : Location) (way : top <+: spot) (apart : top ≠ spot)
    (there : t.node? spot ≠ none) : t.node? top = some .directory := by
  obtain ⟨rest, rfl⟩ := way
  induction rest using List.reverseRecOn with
  | nil => exact absurd (List.append_nil top).symm apart
  | append_singleton rest last ih =>
    rw [← List.append_assoc] at there
    have parent := closed _ _ there
    by_cases alone : rest = []
    · rwa [alone, List.append_nil] at parent
    · exact ih (by simpa using alone) (by rw [parent]; exact Option.some_ne_none _)

theorem closed_directory (closed : t.Closed) (top spot : Location) (way : top <+: spot)
    (there : t.node? spot = some .directory) : t.node? top = some .directory := by
  by_cases same : top = spot
  · rwa [same]
  · exact closed_way t closed top spot way same (by rw [there]; exact Option.some_ne_none _)

theorem enter_firm (base : Location) :
    t.enter ⟨base, 0⟩ = .ok () ↔ t.node? base = some .directory := by
  rw [enter, if_pos rfl]
  cases t.node? base with
  | none => simp
  | some node => cases node <;> simp

theorem pass_plain (base : Location) (part : String) (next : Standpoint) (plain : part ≠ "..") :
    t.pass ⟨base, 0⟩ part = .ok next ↔ t.node? base = some .directory ∧
      (∀ name ∈ [part].filter Path.isName, checkName name = .ok ()) ∧
      next = ⟨base ++ [part].filter Path.isName, 0⟩ := by
  rw [pass_step, enter_firm]
  refine and_congr_right fun _ => ?_
  cases named : Path.isName part with
  | false =>
    have quiet : part = "" ∨ part = "." := by
      by_contra loud
      exact absurd ((named_part part plain).mpr loud) (by simp [named])
    rw [List.filter_cons_of_neg (by simp [named]), List.filter_nil, List.append_nil]
    constructor
    · intro step
      refine ⟨List.forall_mem_nil _, ?_⟩
      cases step with
      | silent => rfl
      | up => exact absurd rfl plain
      | down _ _ other _ => cases named.symm.trans other
    · rintro ⟨_, rfl⟩
      exact .silent part quiet
  | true =>
    rw [List.filter_cons_of_pos named, List.filter_nil, List.forall_mem_singleton]
    constructor
    · intro step
      cases step with
      | silent _ quiet => exact absurd quiet ((named_part part plain).mp named)
      | up => exact absurd rfl plain
      | down _ _ _ called => exact ⟨called, rfl⟩
    · rintro ⟨called, rfl⟩
      exact .down part rfl named called

theorem names_cons (part : String) (rest : List String) :
    (part :: rest).filter Path.isName = [part].filter Path.isName ++ rest.filter Path.isName :=
  List.filter_append [part] rest

theorem walk_plain (base : Location) (parts : List String) (last : Standpoint) (plain : ".." ∉ parts)
    (walked : t.walk ⟨base, 0⟩ parts = .ok last) :
    last = ⟨base ++ parts.filter Path.isName, 0⟩ ∧ t.node? last.location ≠ none ∧
      ∀ name ∈ parts.filter Path.isName, checkName name = .ok () := by
  induction parts generalizing base with
  | nil =>
    rw [walk] at walked
    split at walked
    · cases walked
    · rename_i there
      cases walked
      simpa using there
  | cons part rest ih =>
    rw [List.mem_cons, not_or] at plain
    obtain ⟨next, passed, walked⟩ := (walk_cons t _ _ _ _).mp walked
    obtain ⟨_, fine, rfl⟩ := (pass_plain t base part next (Ne.symm plain.1)).mp passed
    obtain ⟨rfl, there, further⟩ := ih _ plain.2 walked
    rw [names_cons part rest]
    exact ⟨by rw [List.append_assoc], there, List.forall_mem_append.mpr ⟨fine, further⟩⟩

theorem walk_through (closed : t.Closed) (base : Location) (parts : List String) (plain : ".." ∉ parts)
    (fine : ∀ name ∈ parts.filter Path.isName, checkName name = .ok ())
    (there : t.node? (base ++ parts.filter Path.isName) = some .directory) :
    t.walk ⟨base, 0⟩ parts = .ok ⟨base ++ parts.filter Path.isName, 0⟩ := by
  induction parts generalizing base with
  | nil =>
    rw [List.filter_nil, List.append_nil] at there
    simp [walk, there]
  | cons part rest ih =>
    rw [List.mem_cons, not_or] at plain
    rw [names_cons part rest] at fine there ⊢
    rw [← List.append_assoc] at there ⊢
    obtain ⟨here, later⟩ := List.forall_mem_append.mp fine
    have stands : t.node? base = some .directory :=
      closed_directory t closed base _ (List.append_assoc _ _ _ ▸ List.prefix_append _ _) there
    rw [walk_part, (pass_plain t base part _ (Ne.symm plain.1)).mpr ⟨stands, here, rfl⟩]
    exact ih _ plain.2 later there

theorem no_slashes (reversed : List String)
    (other : ∀ next rest, reversed = "" :: next :: rest → False) : dropSlashes reversed = reversed := by
  rw [dropSlashes]
  exact other

theorem slashes_dropped (reversed : List String) :
    ∃ count, reversed = List.replicate count "" ++ dropSlashes reversed := by
  induction reversed using dropSlashes.induct with
  | case1 next rest ih =>
    obtain ⟨count, whole⟩ := ih
    refine ⟨count + 1, ?_⟩
    rw [dropSlashes, List.replicate_succ, List.cons_append, ← whole]
  | case2 reversed other => exact ⟨0, by rw [no_slashes reversed other]; rfl⟩

theorem parts_at_place (path last : String) (above : List String)
    (shape : dropSlashes (Path.parts path).reverse = last :: above) :
    ∃ count, Path.parts path = above.reverse ++ last :: List.replicate count "" := by
  obtain ⟨count, whole⟩ := slashes_dropped (Path.parts path).reverse
  refine ⟨count, ?_⟩
  rw [shape] at whole
  simpa using congrArg List.reverse whole

theorem place_named (path : String) (directory : Location) (name : String)
    (placed : t.place path = .ok (directory, some name)) :
    ∃ above count, Path.parts path = above ++ name :: List.replicate count "" ∧
      checkPath path = .ok () ∧ t.walk (t.origin path) above = .ok ⟨directory, 0⟩ ∧
      t.node? directory = some .directory ∧ Path.isName name = true ∧ checkName name = .ok () := by
  obtain ⟨_, checked, placed⟩ := (bind_ok _ _ _).mp placed
  split at placed
  · cases placed
  · rename_i last above shape
    obtain ⟨⟨location, lost⟩, walked, placed⟩ := (bind_ok _ _ _).mp placed
    obtain ⟨_, entered, placed⟩ := (bind_ok _ _ _).mp placed
    split at placed
    · rename_i named
      split at placed
      · cases placed
      · rename_i held
        obtain rfl : lost = 0 := not_not.mp held
        obtain ⟨_, called, placed⟩ := (bind_ok _ _ _).mp placed
        cases placed
        obtain ⟨count, whole⟩ := parts_at_place path name above shape
        exact ⟨above.reverse, count, whole, checked, walked, (enter_firm t _).mp entered, named, called⟩
    · cases placed

section Found

variable (path : String) (o : Location) (plain : Path.IsPlain path) (origin : t.origin path = ⟨o, 0⟩)

include plain origin

theorem find_plain (s : Standpoint) (found : t.find path = .ok s) :
    s = ⟨o ++ Path.names path, 0⟩ ∧ t.node? (o ++ Path.names path) ≠ none ∧ Walkable path := by
  obtain ⟨checked, walked⟩ := (find_checked t path s).mp found
  rw [origin] at walked
  obtain ⟨rfl, there, fine⟩ := walk_plain t o _ s plain walked
  exact ⟨rfl, there, checked, fine⟩

theorem directory_held (closed : t.Closed) (walkable : Walkable path)
    (there : t.node? (o ++ Path.names path) = some .directory) : t.holds path = true := by
  have walked := walk_through t closed o _ plain walkable.named there
  rw [holds, find, walkable.checked, origin]
  change (t.walk ⟨o, 0⟩ (Path.parts path)).toBool = true
  rw [walked]
  rfl

theorem directory_plain (is : t.isDirectory path = true) :
    t.node? (o ++ Path.names path) = some .directory ∧ Walkable path := by
  rw [isDirectory] at is
  split at is
  · rename_i s found
    obtain ⟨rfl, _, walkable⟩ := find_plain t path o plain origin s found
    exact ⟨by simpa [isDirectoryAt] using is, walkable⟩
  · cases is

theorem place_plain (directory : Location) (name : String)
    (placed : t.place path = .ok (directory, some name)) :
    directory ++ [name] = o ++ Path.names path ∧ t.node? directory = some .directory ∧
      Walkable path := by
  obtain ⟨above, count, whole, checked, walked, stands, named, called⟩ :=
    place_named t path directory name placed
  have within : ".." ∉ above := fun up => plain (whole ▸ List.mem_append_left _ up)
  rw [origin] at walked
  obtain ⟨same, _, fine⟩ := walk_plain t o above _ within walked
  have silent : (List.replicate count "").filter Path.isName = [] :=
    List.filter_replicate_of_neg (by decide)
  have names : Path.names path = above.filter Path.isName ++ [name] := by
    rw [Path.names, whole, List.filter_append, List.filter_cons_of_pos named, silent]
  rw [names, (Standpoint.mk.inj same).1]
  refine ⟨List.append_assoc _ _ _, (Standpoint.mk.inj same).1 ▸ stands, checked, ?_⟩
  rw [names]
  exact List.forall_mem_append.mpr ⟨fine, List.forall_mem_singleton.mpr called⟩

end Found

end ProtocolStubs.FileTree
