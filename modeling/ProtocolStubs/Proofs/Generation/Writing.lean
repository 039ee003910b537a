import ProtocolStubs.Proofs.FileTree.Alterations
import ProtocolStubs.Proofs.Generation.Cleaning

set_option autoImplicit false

namespace ProtocolStubs

structure FileTree.HoldsExactly (t : FileTree) (top : Location) (files : List GeneratedFile) : Prop where
  stands : t.node? top = some .directory
  each : ∀ file ∈ files, t.node? (top ++ Path.names file.path) = some (.file file.contents.toUTF8)
  only : ∀ spot, isBelow top spot = true → t.node? spot ≠ none →
    ∃ file ∈ files, spot <+: top ++ Path.names file.path

namespace OutputDirectory

open FileTree (Alters Ready Emptied Made Attempted Yields HoldsExactly isBelow)

-- If it goes well, an action leads from a tree with the first property to one with the second.
def Brings {α : Type} (p : FileTree → Prop) (q : α → FileTree → Prop)
    (action : ExceptT GenerationError (StateM FileTree) α) : Prop :=
  ∀ t, p t → ∀ a, (action.run t).1 = .ok a → q a (action.run t).2

section Brings

variable {α β : Type} (p : FileTree → Prop) (q : α → FileTree → Prop) (r : β → FileTree → Prop)

theorem brings_pure (a : α) (stays : ∀ t, p t → q a t) : Brings p q (pure a) := by
  intro t before b same
  cases same
  exact stays t before

theorem brings_bind (first : ExceptT GenerationError (StateM FileTree) α)
    (next : α → ExceptT GenerationError (StateM FileTree) β) (begins : Brings p q first)
    (goes : ∀ a, Brings (q a) r (next a)) : Brings p r (first >>= next) := by
  intro t before b fine
  have middle := begins t before
  rw [FileTree.run_bind] at fine ⊢
  cases done : first.run t with
  | mk result after =>
    rw [done] at middle fine
    cases result with
    | ok a => exact goes a after (middle a rfl) b fine
    | error cause => cases fine

theorem brings_files (path : String) (action : StateM FileTree (Except Fault α))
    (yields : Yields p (fun result after => ∀ a, result = .ok a → q a after) action) :
    Brings p q (ExceptT.mk (GenerationError.ofFault path <$> action)) := by
  intro t before a fine
  refine yields t before a ?_
  change GenerationError.ofFault path (action.run t).1 = .ok a at fine
  cases result : (action.run t).1 with
  | ok b =>
    rw [result] at fine
    cases fine
    rfl
  | error fault =>
    rw [result] at fine
    cases fine

end Brings

section Output

variable (path : String) (o : Location) (t : FileTree)

-- How far the output has come: these files are there, at the place that a path names from its origin.
structure Filled (files : List GeneratedFile) (after : FileTree) : Prop where
  ready : Ready path o after
  nodes : Alters (o ++ Path.names path <+: ·) (· <+: o ++ Path.names path) t after
  holds : after.HoldsExactly (o ++ Path.names path) files

def Wiped (middle : FileTree) : Prop :=
  Emptied path o (o ++ Path.names path) t middle ∨ middle = t ∧ t.holds path = false

theorem wipe_brings (plain : Path.IsPlain path) (named : Path.names path ≠ []) (ready : Ready path o t) :
    Brings (· = t) (fun _ => Wiped path o t) (wipe FileTree.access path) := by
  rintro before rfl _ fine
  rw [run_wipe] at fine ⊢
  by_cases there : before.holds path = true
  · rw [if_pos there] at fine ⊢
    refine .inl (FileTree.removal_empties path o before plain named ready ?_)
    cases done : (before.removeAll path).2 with
    | ok _ => rfl
    | error fault =>
      rw [done] at fine
      cases fine
  · rw [if_neg there]
    exact .inr ⟨rfl, by simpa using there⟩

theorem wiped_ready (middle : FileTree) (ready : Ready path o t) (wiped : Wiped path o t middle) :
    Ready path o middle := by
  rcases wiped with emptied | ⟨rfl, _⟩
  · exact emptied.ready
  · exact ready

-- If the path led nowhere at first, but can be walked now that its directory is made, then no directory was
-- there before, and nothing below it.
theorem wiped_nothing (middle after : FileTree) (plain : Path.IsPlain path) (ready : Ready path o t)
    (wiped : Wiped path o t middle) (attempted : Attempted path o middle path (.ok ()) after) :
    ∀ spot, isBelow (o ++ Path.names path) spot = true → middle.node? spot = none := by
  rcases wiped with emptied | ⟨rfl, absent⟩
  · exact emptied.nothing
  · obtain ⟨stands, walkable⟩ := attempted.stands rfl
    have free : middle.node? (o ++ Path.names path) ≠ some .directory := by
      intro there
      have held := FileTree.directory_held middle path o plain ready.origin ready.closed walkable there
      rw [absent] at held
      cases held
    intro spot below
    obtain ⟨way, other⟩ := (FileTree.below_iff _ _).mp below
    by_contra there
    exact free (FileTree.closed_way middle ready.closed _ spot way (Ne.symm other) there)

theorem made_empty (middle after : FileTree) (plain : Path.IsPlain path) (ready : Ready path o t)
    (wiped : Wiped path o t middle) (attempted : Attempted path o middle path (.ok ()) after) :
    Filled path o t [] after := by
  have nothing := wiped_nothing path o t middle after plain ready wiped attempted
  refine ⟨attempted.made.ready, ?_, (attempted.stands rfl).1, List.forall_mem_nil _, ?_⟩
  · refine FileTree.alters_next _ _ t middle after ?_ ?_
    · rcases wiped with emptied | ⟨rfl, _⟩
      · exact FileTree.alters_wider _ _ t _ _ middle emptied.nodes (fun _ => id) fun _ => False.elim
      · exact FileTree.alters_self _ _ middle
    · exact FileTree.alters_wider _ _ middle _ _ after attempted.made.nodes (fun _ => False.elim)
        fun _ => .inr
  · intro spot below there
    obtain ⟨way, other⟩ := (FileTree.below_iff _ _).mp below
    rcases attempted.made.nodes spot with within | same | ⟨back, _⟩
    · exact within.elim
    · exact absurd (same.trans (nothing spot below)) there
    · exact absurd (back.eq_of_length_le way.length_le) other

theorem clean_brings (plain : Path.IsPlain path) (named : Path.names path ≠ []) (ready : Ready path o t) :
    Brings (· = t) (fun out after => out = ⟨path⟩ ∧ Filled path o t [] after)
      (clean FileTree.access path) := by
  rw [clean, if_pos ((Path.names_some path).mp named)]
  refine brings_bind _ _ _ _ _ (wipe_brings path o t plain named ready) fun _ => ?_
  refine brings_bind _ (fun _ => Filled path o t []) _ _ _ ?_ fun _ =>
    brings_pure _ _ _ fun _ filled => ⟨rfl, filled⟩
  refine brings_files _ _ path _ fun middle wiped _ fine => ?_
  have made := FileTree.made_self path o middle (wiped_ready path o t middle ready wiped)
  have attempted := FileTree.make_directories_yields path o middle plain path named
    (Path.on_way_self path) middle made
  rw [fine] at attempted
  exact made_empty path o t middle _ plain ready wiped attempted

structure Fits (file : GeneratedFile) : Prop where
  plain : Path.IsPlain file.path
  relative : Path.isAbsolute file.path = false
  named : Path.names file.path ≠ []

def Apart (a b : GeneratedFile) : Prop :=
  ¬Path.names a.path <+: Path.names b.path ∧ ¬Path.names b.path <+: Path.names a.path

section File

variable (file : GeneratedFile) (done : List GeneratedFile) (fits : Fits file)
  (apart : ∀ other ∈ done, Apart other file)

-- On the way to a place below a directory one is on the way to that directory, or in it.
theorem way_below (top names spot : Location) (way : spot <+: top ++ names) : top <+: spot ∨ spot <+: top :=
  List.prefix_or_prefix_of_prefix (List.prefix_append top names) way

include fits apart

theorem written_holds (before middle after : FileTree)
    (held : before.HoldsExactly (o ++ Path.names path) done)
    (made : Made (Path.join path file.path) o before middle)
    (added : ∀ spot, after.node? spot = if spot = o ++ Path.names (Path.join path file.path) then
      some (.file file.contents.toUTF8) else middle.node? spot) :
    after.HoldsExactly (o ++ Path.names path) (done ++ [file]) := by
  have names := Path.join_names path file.path fits.relative
  have kept := FileTree.made_keeps (Path.join path file.path) o before middle made
  have nodes := made.nodes
  rw [names, ← List.append_assoc] at added nodes
  refine ⟨?_, List.forall_mem_append.mpr ⟨fun old member => ?_, ?_⟩, fun spot below there => ?_⟩
  · have other : o ++ Path.names path ≠ o ++ Path.names path ++ Path.names file.path := by
      simp [fits.named]
    rw [added, if_neg other, kept _ (by rw [held.stands]; exact Option.some_ne_none _), held.stands]
  · have other : o ++ Path.names path ++ Path.names old.path ≠
        o ++ Path.names path ++ Path.names file.path := by
      intro same
      have clash : Path.names old.path = Path.names file.path := List.append_cancel_left same
      exact (apart old member).1 (clash ▸ List.prefix_refl _)
    rw [added, if_neg other, kept _ (by rw [held.each old member]; exact Option.some_ne_none _),
      held.each old member]
  · exact List.forall_mem_singleton.mpr (by rw [added, if_pos rfl])
  · have own : file ∈ done ++ [file] := List.mem_append_right _ (List.mem_singleton.mpr rfl)
    rw [added] at there
    split at there
    · rename_i same
      exact ⟨file, own, same ▸ List.prefix_refl _⟩
    · rcases nodes spot with within | same | ⟨way, _⟩
      · exact within.elim
      · rw [same] at there
        obtain ⟨old, member, way⟩ := held.only spot below there
        exact ⟨old, List.mem_append_left _ member, way⟩
      · exact ⟨file, own, way⟩

theorem written_filled (before middle after : FileTree) (filled : Filled path o t done before)
    (made : Made (Path.join path file.path) o before middle)
    (ready : Ready (Path.join path file.path) o after)
    (added : ∀ spot, after.node? spot = if spot = o ++ Path.names (Path.join path file.path) then
      some (.file file.contents.toUTF8) else middle.node? spot) :
    Filled path o t (done ++ [file]) after := by
  have names := Path.join_names path file.path fits.relative
  refine ⟨?_, ?_, written_holds path o file done fits apart before middle after filled.holds made added⟩
  · exact FileTree.ready_alike _ path o after (Path.join_absolute path file.path fits.relative) ready
  · have nodes := made.nodes
    rw [names, ← List.append_assoc] at added nodes
    refine FileTree.alters_next _ _ t before after filled.nodes ?_
    refine FileTree.alters_next _ _ before middle after ?_ fun spot => ?_
    · exact FileTree.alters_wider _ _ before _ _ middle nodes (fun _ => False.elim) fun spot =>
        way_below _ _ spot
    · rw [added]
      split
      · rename_i same
        exact .inl (same ▸ List.prefix_append _ _)
      · exact .inr (.inl rfl)

theorem write_file_brings (plain : Path.IsPlain path) (named : Path.names path ≠ []) :
    Brings (Filled path o t done) (fun _ => Filled path o t (done ++ [file]))
      (writeFile FileTree.access ⟨path⟩ file) := by
  have names := Path.join_names path file.path fits.relative
  have absolute := Path.join_absolute path file.path fits.relative
  have full := Path.join_plain path file.path plain fits.plain
  let coming := fun middle => ∃ before, Filled path o t done before ∧
    Made (Path.join path file.path) o before middle
  have begins : ∀ before, Filled path o t done before →
      Made (Path.join path file.path) o before before := fun before filled =>
    FileTree.made_self _ o before (FileTree.ready_alike path _ o before absolute.symm filled.ready)
  have written : Brings coming (fun _ => Filled path o t (done ++ [file]))
      (ExceptT.mk (GenerationError.ofFault (Path.join path file.path) <$>
        FileTree.access.write (Path.join path file.path) file.contents)) := by
    refine brings_files _ _ _ _ ?_
    rintro middle ⟨before, filled, made⟩ _ fine
    obtain ⟨ready, added⟩ := FileTree.write_adds (Path.join path file.path) o file.contents.toUTF8 middle
      full made.ready fine
    exact written_filled path o t file done fits apart before middle _ filled made ready added
  unfold OutputDirectory.writeFile
  dsimp only
  split
  · rename_i parent is
    have deep : 2 ≤ (Path.names (Path.join path file.path)).length := by
      have above := List.length_pos_of_ne_nil named
      have below := List.length_pos_of_ne_nil fits.named
      rw [names, List.length_append]
      omega
    obtain ⟨way, all⟩ := Path.parent_names _ parent full deep is
    refine brings_bind _ (fun _ => coming) _ _ _ (brings_files _ _ parent _ ?_) fun _ => written
    intro before filled _ fine
    have parentNamed : Path.names parent ≠ [] := by
      intro none_
      rw [none_] at all
      have short := congrArg List.length all
      rw [List.length_nil, List.length_dropLast] at short
      omega
    exact ⟨before, filled, (FileTree.make_directories_yields _ o before full parent parentNamed way before
      (begins before filled)).made⟩
  · exact fun before filled => written before ⟨before, filled, begins before filled⟩

end File

theorem write_all_brings (files done : List GeneratedFile) (plain : Path.IsPlain path)
    (named : Path.names path ≠ []) (fits : ∀ file ∈ files, Fits file)
    (apart : (done ++ files).Pairwise Apart) :
    Brings (Filled path o t done) (fun _ => Filled path o t (done ++ files))
      (writeAll FileTree.access ⟨path⟩ files) := by
  induction files generalizing done with
  | nil => exact brings_pure _ _ _ fun _ filled => (List.append_nil done).symm ▸ filled
  | cons file rest ih =>
    obtain ⟨here, later⟩ := List.forall_mem_cons.mp fits
    refine brings_bind _ (fun _ => Filled path o t (done ++ [file])) _ _ _ ?_ fun _ => ?_
    · refine write_file_brings path o t file done here (fun other member => ?_) plain named
      exact (List.pairwise_append.mp apart).2.2 other member file List.mem_cons_self
    · have whole : done ++ file :: rest = done ++ [file] ++ rest := by simp
      rw [whole] at apart ⊢
      exact ih (done ++ [file]) later apart

end Output

end OutputDirectory

end ProtocolStubs
