import ProtocolStubs.Proofs.FileTree.Alterations

set_option autoImplicit false

namespace ProtocolStubs.FileTree

variable (t : FileTree)

theorem walk_append (before after : List String) (s : Standpoint) :
    t.walk s (before ++ after) = t.walk s before >>= fun middle => t.walk middle after := by
  induction before generalizing s with
  | nil =>
    by_cases nowhere : (s.lost = 0 && (t.node? s.location).isNone) = true
    · obtain ⟨firm, absent⟩ : s.lost = 0 ∧ t.node? s.location = none := by simpa using nowhere
      cases after with
      | nil => simp [walk, nowhere, bind, Except.bind]
      | cons part rest => simp [walk, enter, firm, absent, bind, Except.bind]
    · have stays : t.walk s [] = .ok s := by rw [walk, if_neg nowhere]
      rw [stays]
      rfl
  | cons part rest ih =>
    rw [List.cons_append, walk_part, walk_part]
    cases t.pass s part with
    | error fault => rfl
    | ok next => exact ih next

section Added

variable (spot : Location) (node : Node) (deep : spot ≠ [])
  (free : t.node? spot ≠ some .directory)

include deep free

theorem added_enter (s : Standpoint) (entered : t.enter s = .ok ()) :
    (t.add spot node).enter s = .ok () := by
  obtain ⟨location, lost⟩ := s
  by_cases firm : lost = 0
  · subst firm
    have stands := (enter_firm t location).mp entered
    have other : location ≠ spot := fun same => free (same ▸ stands)
    rw [enter_firm, added_node t spot location node deep, if_neg other, stands]
  · simp [enter, firm]

theorem added_walk (parts : List String) (s last : Standpoint) (walked : t.walk s parts = .ok last) :
    (t.add spot node).walk s parts = .ok last := by
  induction parts generalizing s with
  | nil =>
    rw [walk] at walked ⊢
    split at walked
    · cases walked
    · rename_i there
      rw [if_neg, walked]
      rw [added_node t spot s.location node deep]
      split
      · simp
      · exact there
  | cons part rest ih =>
    obtain ⟨next, passed, walked⟩ := (walk_cons t _ _ _ _).mp walked
    obtain ⟨entered, step⟩ := (pass_step t s next part).mp passed
    have still := added_enter t spot node deep free s entered
    exact (walk_cons _ _ _ _ _).mpr ⟨next, (pass_step _ s next part).mpr ⟨still, step⟩, ih next walked⟩

end Added

theorem pass_named (s : Standpoint) (name : String) (firm : s.lost = 0)
    (stands : t.node? s.location = some .directory) (named : Path.isName name = true)
    (called : checkName name = .ok ()) : t.pass s name = .ok ⟨s.location ++ [name], 0⟩ := by
  obtain ⟨location, lost⟩ := s
  obtain rfl : lost = 0 := firm
  exact (pass_step t _ _ name).mpr ⟨(enter_firm t location).mpr stands, .down name rfl named called⟩

theorem pass_lost (s next : Standpoint) (part : String) (passed : t.pass s part = .ok next) :
    next.lost ≤ s.lost := by
  cases ((pass_step t s next part).mp passed).2 with
  | silent => exact Nat.le_refl _
  | up => exact Nat.sub_le _ _
  | down => exact Nat.zero_le _

theorem walk_lost (parts : List String) (s last : Standpoint) (walked : t.walk s parts = .ok last) :
    last.lost ≤ s.lost := by
  induction parts generalizing s with
  | nil => rw [walk_nil t s last walked]
  | cons part rest ih =>
    obtain ⟨next, passed, walked⟩ := (walk_cons t _ _ _ _).mp walked
    exact (ih next walked).trans (pass_lost t s next part passed)

-- Only where nothing is lost can a name be followed.
theorem walk_named (parts : List String) (s last : Standpoint) (named : parts.any Path.isName = true)
    (walked : t.walk s parts = .ok last) : last.lost = 0 := by
  induction parts generalizing s with
  | nil => cases named
  | cons part rest ih =>
    obtain ⟨next, passed, walked⟩ := (walk_cons t _ _ _ _).mp walked
    cases own : Path.isName part with
    | true =>
      obtain ⟨_, _, rfl⟩ := pass_name t s next part own passed
      exact Nat.le_zero.mp (walk_lost t rest _ last walked)
    | false =>
      rw [List.any_cons, own, Bool.false_or] at named
      exact ih next named walked

theorem walk_directory_parts (location : Location) (count : Nat)
    (stands : t.node? location = some .directory) :
    t.walk ⟨location, 0⟩ (List.replicate count "") = .ok ⟨location, 0⟩ := by
  induction count with
  | zero => simp [walk, stands]
  | succ count ih =>
    rw [List.replicate_succ, walk_part, pass, (enter_firm t location).mpr stands]
    exact ih

structure LeadsTo (path : String) (top : Location) : Prop where
  walked : t.walk (t.origin path) (Path.parts path) = .ok ⟨top, 0⟩
  stands : t.node? top = some .directory

theorem leads_find (path : String) (top : Location) (leads : LeadsTo t path top)
    (checked : checkPath path = .ok ()) : t.find path = .ok ⟨top, 0⟩ := by
  rw [find, checked]
  exact leads.walked

theorem directory_leads (path : String) (named : Path.hasName path = true)
    (is : t.isDirectory path = true) : ∃ top, LeadsTo t path top := by
  rw [isDirectory] at is
  split at is
  · rename_i s found
    have walked := find_walk t path s found
    obtain ⟨location, lost⟩ := s
    obtain rfl : lost = 0 := walk_named t _ _ _ named walked
    exact ⟨location, walked, by simpa [isDirectoryAt] using is⟩
  · cases is

theorem added_leads (path : String) (directory : Location) (name : String)
    (placed : t.place path = .ok (directory, some name))
    (free : t.node? (directory ++ [name]) ≠ some .directory) :
    LeadsTo (t.add (directory ++ [name]) .directory) path (directory ++ [name]) := by
  have deep : directory ++ [name] ≠ [] := by simp
  obtain ⟨above, count, whole, _, walked, stands, named, called⟩ := place_named t path directory name placed
  have before := added_walk t _ .directory deep free _ _ _ walked
  have still : (t.add (directory ++ [name]) .directory).node? directory = some .directory := by
    rw [added_node t _ _ _ deep, if_neg (by simp), stands]
  have own : (t.add (directory ++ [name]) .directory).node? (directory ++ [name]) = some .directory := by
    rw [added_node t _ _ _ deep, if_pos rfl]
  refine ⟨?_, own⟩
  change FileTree.walk _ (t.origin path) _ = _
  rw [whole, walk_append, before]
  change FileTree.walk _ ⟨directory, 0⟩ (name :: List.replicate count "") = _
  rw [walk_part, pass_named _ _ name rfl still named called]
  exact walk_directory_parts _ _ count own

theorem make_directory_found (path : String) (made : (t.makeDirectory path).2 = .ok ()) :
    (t.makeDirectory path).1.isDirectory path = true := by
  rcases t.make_directory_cases path with ⟨fault, refused⟩ | ⟨directory, name, placed, absent, put⟩
  · rw [refused] at made
    cases made
  · have leads := added_leads t path directory name placed (by rw [absent]; exact nofun)
    obtain ⟨_, _, _, checked, _⟩ := place_named t path directory name placed
    rw [put, isDirectory, leads_find _ path _ leads checked]
    simp [isDirectoryAt, leads.stands]

theorem settle_found (path : String) (fault : Fault)
    (fine : (access.settle path fault t).1 = .ok ()) : t.isDirectory path = true := by
  change (if t.isDirectory path = true then .ok () else .error fault : Except Fault Unit) = .ok () at fine
  by_contra other
  rw [if_neg other] at fine
  cases fine

def Found (path : String) (result : Except Fault Unit) (after : FileTree) : Prop :=
  result = .ok () → after.isDirectory path = true

theorem attempts_found (path : String) : Attempts (fun _ => True) Found path where
  made before _ := make_directory_found before path
  settled fault before _ := settle_found before path fault
  held _ _ _ := trivial
  failed _ _ _ := nofun

theorem make_directories_found (path : String) (inked : path ≠ "")
    (made : (access.makeDirectories path t).1 = .ok ()) :
    (access.makeDirectories path t).2.isDirectory path = true := by
  rw [FileAccess.makeDirectories, if_neg inked] at made ⊢
  exact attempts_with _ Found path _ (fun other _ => attempts_found other) t trivial made

theorem some_kept (reversed : List String) (some_ : reversed ≠ []) : dropSlashes reversed ≠ [] := by
  induction reversed using dropSlashes.induct with
  | case1 next rest ih =>
    rw [dropSlashes]
    exact ih (List.cons_ne_nil _ _)
  | case2 reversed other => rwa [no_slashes reversed other]

theorem leads_place (path : String) (top : Location) (leads : LeadsTo t path top)
    (checked : checkPath path = .ok ()) :
    ∃ directory name?, t.place path = .ok (directory, name?) ∧
      ∀ name, name? = some name → directory ++ [name] = top := by
  have parted : Path.parts path ≠ [] := Text.splitFrom_ne_nil '/' [] path.toList
  obtain ⟨last, above, shape⟩ := List.exists_cons_of_ne_nil
    (some_kept (Path.parts path).reverse (by simpa using parted))
  obtain ⟨count, whole⟩ := parts_at_place path last above shape
  have walked := leads.walked
  rw [whole, walk_append] at walked
  obtain ⟨s, before, walked⟩ := (bind_ok _ _ _).mp walked
  obtain ⟨next, passed, walked⟩ := (walk_cons t _ _ _ _).mp walked
  have ends := walk_silent t _ next _ (fun part empty => .inl (List.eq_of_mem_replicate empty)) walked
  rw [place, checked, shape]
  dsimp only [bind, Except.bind]
  rw [before]
  dsimp only
  rw [((pass_step t s next last).mp passed).1]
  cases named : Path.isName last with
  | false => exact ⟨s.location, none, rfl, by rintro _ ⟨⟩⟩
  | true =>
    obtain ⟨firm, called, rfl⟩ := pass_name t s next last named passed
    refine ⟨s.location, some last, by simp [firm, called, pure, Except.pure], ?_⟩
    rintro _ ⟨⟩
    exact (congrArg Standpoint.location ends).symm

theorem leads_taken (path : String) (top : Location) (leads : LeadsTo t path top) (inked : path ≠ "") :
    ∃ fault, t.makeDirectory path = (t, .error fault) ∧ fault ≠ .missing := by
  rw [makeDirectory]
  cases checked : checkPath path with
  | error fault =>
    have placed : t.place path = .error fault := by
      rw [place, checked]
      rfl
    rw [placed]
    refine ⟨fault, rfl, ?_⟩
    rw [checkPath, if_neg inked] at checked
    split at checked
    · cases checked
      rintro ⟨⟩
    · split at checked
      · cases checked
        rintro ⟨⟩
      · cases checked
  | ok _ =>
    obtain ⟨directory, name?, placed, same⟩ := leads_place t path top leads checked
    rw [placed]
    refine ⟨.present, ?_, by rintro ⟨⟩⟩
    cases name? with
    | none => rfl
    | some name =>
      dsimp only
      rw [same name rfl, leads.stands]
      rfl

theorem leads_made (path : String) (top : Location) (leads : LeadsTo t path top) :
    (access.makeDirectories path t).2 = t := by
  rw [FileAccess.makeDirectories]
  split
  · rfl
  · rename_i inked
    obtain ⟨fault, taken, other⟩ := leads_taken t path top leads inked
    have first : access.makeDirectory path t = (.error fault, t) := by
      change ((t.makeDirectory path).2, (t.makeDirectory path).1) = _
      rw [taken]
    cases Path.ancestors path with
    | nil =>
      rw [FileAccess.makeWith, bind_apply, first]
      rfl
    | cons above further =>
      rw [FileAccess.makeWith, bind_apply, first]
      cases fault with
      | missing => exact absurd rfl other
      | other reason => rfl

end ProtocolStubs.FileTree
