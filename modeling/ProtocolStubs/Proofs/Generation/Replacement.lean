import ProtocolStubs.Proofs.FileTree.Directories
import ProtocolStubs.Proofs.Generation.Writing

set_option autoImplicit false

namespace ProtocolStubs

namespace Text

theorem split_from_last (separator : Char) (held rest : List Char)
    (last : (splitFrom separator held rest).getLast? = some "") :
    (held = [] ∧ rest = []) ∨ rest.getLast? = some separator := by
  induction rest generalizing held with
  | nil =>
    rw [splitFrom, List.getLast?_singleton, Option.some.injEq, ← String.toList_eq_nil_iff,
      String.toList_ofList, List.reverse_eq_nil_iff] at last
    exact .inl ⟨last, rfl⟩
  | cons c rest ih =>
    rw [splitFrom] at last
    right
    split at last
    · rename_i same
      obtain ⟨next, further, there⟩ := List.exists_cons_of_ne_nil (splitFrom_ne_nil separator [] rest)
      rw [there, List.getLast?_cons_cons, ← there] at last
      rcases ih [] last with ⟨_, rfl⟩ | slash
      · simp [same]
      · rw [List.getLast?_cons, slash]
        rfl
    · rcases ih (c :: held) last with ⟨begun, _⟩ | slash
      · cases begun
      · rw [List.getLast?_cons, slash]
        rfl

end Text

namespace FileTree

variable (t : FileTree)

theorem written_named (path : String) (contents : ByteArray)
    (done : (t.write path contents).2 = .ok ()) :
    ∃ above name, Path.parts path = above ++ [name] ∧ Path.isName name = true := by
  rcases t.write_cases path contents with ⟨fault, refused⟩ | ⟨directory, name, open_, placed, _⟩
  · rw [refused] at done
    cases done
  · obtain ⟨above, count, whole, _, _, _, named, _⟩ := place_named t path directory name placed
    cases count with
    | zero => exact ⟨above, name, whole, named⟩
    | succ count =>
      have last : (Path.parts path).getLast? = some "" := by
        rw [whole, List.replicate_succ', ← List.cons_append, ← List.append_assoc, List.getLast?_concat]
      rcases Text.split_from_last '/' [] path.toList last with ⟨_, nothing⟩ | slash
      · rw [Path.parts, Text.split, nothing] at whole
        have long := congrArg List.length whole
        rw [List.length_append, List.length_cons, List.length_replicate] at long
        change 1 = _ at long
        omega
      · cases (beq_iff_eq.mpr slash).symm.trans open_

section Lost

variable (path : String) (plain : Path.IsPlain path) (named : Path.names path ≠ [])
  (lost : (t.origin path).lost ≠ 0)

-- Without two dots there is no way back.
theorem walk_astray (parts : List String) (s last : Standpoint) (plain : ".." ∉ parts) (lost : s.lost ≠ 0)
    (walked : t.walk s parts = .ok last) : last = s := by
  induction parts with
  | nil => exact walk_nil t s last walked
  | cons part rest ih =>
    rw [List.mem_cons, not_or] at plain
    obtain ⟨next, passed, walked⟩ := (walk_cons t _ _ _ _).mp walked
    have stays : next = s := by
      cases ((pass_step t s next part).mp passed).2 with
      | silent => rfl
      | up => exact absurd rfl plain.1
      | down _ firm _ _ => exact absurd firm lost
    exact ih plain.2 (stays ▸ walked)

include plain named lost

theorem nothing_found (s : Standpoint) : t.find path ≠ .ok s := by
  intro found
  have walked := find_walk t path s found
  have firm := walk_named t _ _ s ((Path.names_some path).mp named) walked
  rw [walk_astray t _ _ s plain lost walked] at firm
  exact lost firm

theorem nothing_held : t.holds path = false ∧ t.isDirectory path = false := by
  rw [holds, isDirectory]
  cases found : t.find path with
  | error fault => exact ⟨rfl, rfl⟩
  | ok s => exact absurd found (nothing_found t path plain named lost s)

end Lost

-- The tree below a place, told by the files that stand there: nothing else is below it but their directories.
structure HoldsTree (top : Location) (files : List GeneratedFile) : Prop where
  stands : t.node? top = some .directory
  below : ∀ spot node, isBelow top spot = true → (t.node? spot = some node ↔ ∃ file ∈ files,
    (spot = top ++ Path.names file.path ∧ node = .file file.contents.toUTF8) ∨
    (spot <+: top ++ Path.names file.path ∧ spot ≠ top ++ Path.names file.path ∧ node = .directory))

theorem holds_tree (top : Location) (files : List GeneratedFile) (closed : t.Closed)
    (exactly : t.HoldsExactly top files) : t.HoldsTree top files := by
  refine ⟨exactly.stands, fun spot node below => ⟨fun there => ?_, ?_⟩⟩
  · obtain ⟨file, member, way⟩ := exactly.only spot below (by rw [there]; exact Option.some_ne_none _)
    refine ⟨file, member, ?_⟩
    by_cases own : spot = top ++ Path.names file.path
    · rw [own, exactly.each file member] at there
      exact .inl ⟨own, (Option.some.inj there).symm⟩
    · have directory := closed_way t closed spot _ way own
        (by rw [exactly.each file member]; exact Option.some_ne_none _)
      rw [directory] at there
      exact .inr ⟨way, own, (Option.some.inj there).symm⟩
  · rintro ⟨file, member, ⟨rfl, rfl⟩ | ⟨way, own, rfl⟩⟩
    · exact exactly.each file member
    · exact closed_way t closed spot _ way own
        (by rw [exactly.each file member]; exact Option.some_ne_none _)

-- Elsewhere nothing has changed, but that the directories that lead to the place are all there.
structure SpareOutside (top : Location) (after : FileTree) : Prop where
  way : ∀ spot, spot <+: top → after.node? spot = some .directory ∧
    (spot ≠ top → t.node? spot = none ∨ t.node? spot = some .directory)
  rest : ∀ spot, ¬top <+: spot → ¬spot <+: top → after.node? spot = t.node? spot

theorem spare_outside (top : Location) (after : FileTree) (closed : after.Closed)
    (stands : after.node? top = some .directory)
    (alters : Alters (top <+: ·) (· <+: top) t after) : SpareOutside t top after := by
  refine ⟨fun spot way => ?_, fun spot apart off => ?_⟩
  · have there := closed_directory after closed spot top way stands
    refine ⟨there, fun other => ?_⟩
    rcases alters spot with inside | same | ⟨_, absent, _⟩
    · exact absurd (way.eq_of_length_le inside.length_le) other
    · exact .inr (same ▸ there)
    · exact .inl absent
  · rcases alters spot with inside | same | ⟨on, _⟩
    · exact absurd inside apart
    · exact same
    · exact absurd on off

end FileTree

namespace OutputDirectory

open FileTree (Yields Closed Ready)

theorem keeps_here (path : String) (here : Standpoint) :
    FileTree.Keeps (fun after => after.here = here) (FileTree.access.makeDirectory path) := by
  intro t same
  change (t.makeDirectory path).1.here = here
  rcases t.make_directory_cases path with ⟨_, kept⟩ | ⟨_, _, _, _, made⟩
  · rwa [kept]
  · rwa [made]

theorem lost_clean (t : FileTree) (path : String) (plain : Path.IsPlain path)
    (named : Path.names path ≠ []) (lost : (t.origin path).lost ≠ 0) :
    Brings (· = t) (fun _ _ => False) (clean FileTree.access path) := by
  have nothing := FileTree.nothing_held t path plain named lost
  have inked : path ≠ "" := by
    rintro rfl
    exact named rfl
  rw [clean, if_pos ((Path.names_some path).mp named)]
  refine brings_bind _ (fun _ after => after = t) _ _ _ ?_ fun _ => ?_
  · rintro before rfl _ _
    rw [run_wipe, nothing.1]
    rfl
  · refine brings_bind _ (fun _ _ => False) _ _ _ ?_ fun _ _ impossible => impossible.elim
    refine brings_files _ _ path _ ?_
    rintro before rfl _ fine
    let after := (FileTree.access.makeDirectories path before).2
    have here : after.here = before.here :=
      FileTree.keeps_make_directories (fun after => after.here = before.here)
        (fun other => keeps_here other before.here) path before rfl
    have origin : after.origin path = before.origin path := by
      rw [FileTree.origin, FileTree.origin, here]
    have absent := (FileTree.nothing_held after path plain named (by rwa [origin])).2
    have found := FileTree.make_directories_found before path inked fine
    rw [absent] at found
    cases found

theorem write_file_named (path : String) (file : GeneratedFile) (inked : path ≠ "")
    (relative : Path.isAbsolute file.path = false) :
    Brings (fun _ => True) (fun _ _ => Path.names file.path ≠ [])
      (writeFile FileTree.access ⟨path⟩ file) := by
  have written : Brings (fun _ => True) (fun _ _ => Path.names file.path ≠ [])
      (ExceptT.mk (GenerationError.ofFault (Path.join path file.path) <$>
        FileTree.access.write (Path.join path file.path) file.contents)) := by
    refine brings_files _ _ _ _ fun before _ _ fine => ?_
    obtain ⟨above, name, whole, named⟩ := FileTree.written_named before _ _ fine
    obtain ⟨front, ending, _, _, joined⟩ := Path.join_parts path file.path relative inked
    have own : name ∈ Path.parts file.path := by
      have last := congrArg List.getLast? (joined.symm.trans whole)
      have parted : Path.parts file.path ≠ [] := Text.splitFrom_ne_nil '/' [] file.path.toList
      rw [List.getLast?_concat, List.getLast?_append_of_ne_nil _ parted] at last
      exact List.mem_of_getLast? last
    exact List.ne_nil_of_mem (List.mem_filter.mpr ⟨own, named⟩)
  unfold writeFile
  dsimp only
  split
  · exact brings_bind _ (fun _ _ => True) _ _ _ (fun _ _ _ _ => trivial) fun _ => written
  · exact written

theorem write_all_named (path : String) (files : List GeneratedFile) (inked : path ≠ "")
    (relative : ∀ file ∈ files, Path.isAbsolute file.path = false) :
    Brings (fun _ => True) (fun _ _ => ∀ file ∈ files, Path.names file.path ≠ [])
      (writeAll FileTree.access ⟨path⟩ files) := by
  induction files with
  | nil => exact brings_pure _ _ _ fun _ _ => List.forall_mem_nil _
  | cons file rest ih =>
    obtain ⟨here, later⟩ := List.forall_mem_cons.mp relative
    refine brings_bind _ (fun _ _ => Path.names file.path ≠ []) _ _ _
      (write_file_named path file inked here) fun _ before named done fine => ?_
    exact List.forall_mem_cons.mpr ⟨named, ih later before trivial done fine⟩

theorem clean_write_exact (t : FileTree) (path : String) (files : List GeneratedFile) :
    (∀ refused cleaned,
      (clean FileTree.access path).run t = (.error (.unsafeDirectory refused), cleaned) → cleaned = t) ∧
    ∀ out cleaned after, t.Closed → Path.IsPlain path →
      (∀ file ∈ files, Path.IsPlain file.path ∧ Path.isAbsolute file.path = false) →
      files.Pairwise Apart → (clean FileTree.access path).run t = (.ok out, cleaned) →
      (writeAll FileTree.access out files).run cleaned = (.ok (), after) →
      after.HoldsTree (t.spot path) files ∧ t.SpareOutside (t.spot path) after := by
  constructor
  · intro refused cleaned failed
    cases named : Path.hasName path with
    | true =>
      obtain ⟨_, _, files⟩ := (clean_faults path named t trivial).2 (.unsafeDirectory refused)
        (congrArg Prod.fst failed)
      cases files
    | false =>
      rw [clean_unnamed path t named] at failed
      exact (congrArg Prod.snd failed).symm
  · intro out cleaned after closed plain fits apart done written
    have named : Path.names path ≠ [] := by
      rw [ne_eq, ← ne_eq, Path.names_some]
      cases named : Path.hasName path with
      | true => rfl
      | false =>
        rw [clean_unnamed path t named] at done
        cases done
    have inked : path ≠ "" := by
      rintro rfl
      exact named rfl
    cases origin : t.origin path with
    | mk o lost =>
      by_cases firm : lost = 0
      · subst firm
        have place : t.spot path = o ++ Path.names path := by rw [FileTree.spot, origin]
        have cleans := clean_brings path o t plain named ⟨closed, origin⟩ t rfl out
        rw [done] at cleans
        obtain ⟨rfl, filled⟩ := cleans rfl
        have relative := fun file member => (fits file member).2
        have names := write_all_named path files inked relative cleaned trivial ()
        rw [written] at names
        have fit : ∀ file ∈ files, Fits file := fun file member =>
          ⟨(fits file member).1, relative file member, names rfl file member⟩
        have writes := write_all_brings path o t files [] plain named fit apart cleaned filled ()
        rw [written] at writes
        have full := writes rfl
        rw [place]
        exact ⟨FileTree.holds_tree after _ files full.ready.closed full.holds,
          FileTree.spare_outside t _ after full.ready.closed full.holds.stands full.nodes⟩
      · have never := lost_clean t path plain named (by rwa [origin]) t rfl out
        rw [done] at never
        exact (never rfl).elim

def stale : FileTree :=
  ⟨[(["w"], .directory), (["w", "keep"], .file "k".toUTF8), (["w", "out"], .directory),
    (["w", "out", "old.rs"], .file "o".toUTF8)], ⟨["w"], 0⟩⟩

def nested : List GeneratedFile := [⟨"index.ts", "i"⟩, ⟨"nested/page.rs", "p"⟩]

theorem stale_replaced :
    ∃ cleaned after, stale.Closed ∧ Path.IsPlain "out" ∧
      (∀ file ∈ nested, Path.IsPlain file.path ∧ Path.isAbsolute file.path = false) ∧
      nested.Pairwise Apart ∧
      (clean FileTree.access "out").run stale = (.ok ⟨"out"⟩, cleaned) ∧
      (writeAll FileTree.access ⟨"out"⟩ nested).run cleaned = (.ok (), after) ∧
      after.HoldsTree ["w", "out"] nested ∧ stale.SpareOutside ["w", "out"] after := by
  have closed : stale.Closed := FileTree.closed_of_listed stale (by decide)
  have plain : Path.IsPlain "out" := by decide
  have fits : ∀ file ∈ nested, Path.IsPlain file.path ∧ Path.isAbsolute file.path = false := by decide
  have apart : nested.Pairwise Apart := by
    rw [nested, List.pairwise_pair, Apart]
    decide
  have done : (clean FileTree.access "out").run stale =
      (.ok ⟨"out"⟩, ⟨[(["w"], .directory), (["w", "keep"], .file "k".toUTF8), (["w", "out"], .directory)],
        ⟨["w"], 0⟩⟩) := rfl
  have written : ∃ after, (writeAll FileTree.access ⟨"out"⟩ nested).run
      ⟨[(["w"], .directory), (["w", "keep"], .file "k".toUTF8), (["w", "out"], .directory)], ⟨["w"], 0⟩⟩ =
        (.ok (), after) := ⟨_, rfl⟩
  obtain ⟨after, written⟩ := written
  exact ⟨_, after, closed, plain, fits, apart, done, written,
    (clean_write_exact stale "out" nested).2 _ _ after closed plain fits apart done written⟩

end OutputDirectory

end ProtocolStubs
