import ProtocolStubs.Proofs.FileTree.Directories
import ProtocolStubs.Proofs.Generation.FilePaths
import ProtocolStubs.Proofs.Generation.Writing

set_option autoImplicit false

namespace ProtocolStubs

namespace Path

def IsSingle (path : String) : Prop := isName path = true ∧ '/' ∉ path.toList

instance (path : String) : Decidable (IsSingle path) :=
  inferInstanceAs (Decidable (isName path = true ∧ '/' ∉ path.toList))

theorem single_parts (path : String) (single : IsSingle path) : parts path = [path] :=
  parts_single path single.2

theorem single_relative (path : String) (single : IsSingle path) : isAbsolute path = false := by
  cases absolute : isAbsolute path with
  | false => rfl
  | true =>
    obtain ⟨next, rest, two⟩ := (absolute_parts path).mp absolute
    rw [single_parts path single] at two
    cases (List.cons.inj two).2

theorem extended_single (stem extension : String) (long : 3 ≤ extension.length)
    (free : '/' ∉ extension.toList) : IsSingle (stem ++ extension) ↔ '/' ∉ stem.toList := by
  have named : isName (stem ++ extension) = true := by
    have length : ∀ other : String, other.length < 3 → stem ++ extension ≠ other := by
      rintro other short same
      have whole := congrArg String.length same
      rw [String.length_append] at whole
      omega
    simp [isName, length "" (by decide), length "." (by decide), length ".." (by decide)]
  simp [IsSingle, named, String.toList_append, free]

theorem significant_split (reversed : List String) :
    ∃ silent, reversed = silent ++ significant reversed ∧ ∀ part ∈ silent, part = "" ∨ part = "." := by
  induction reversed using significant.induct with
  | case1 => exact ⟨[], rfl, List.forall_mem_nil _⟩
  | case2 first => exact ⟨[], rfl, List.forall_mem_nil _⟩
  | case3 last next rest silent ih =>
    obtain ⟨more, whole, all⟩ := ih
    refine ⟨last :: more, ?_, List.forall_mem_cons.mpr ⟨silent, all⟩⟩
    rw [significant, if_pos silent, List.cons_append, ← whole]
  | case4 last next rest loud =>
    exact ⟨[], by rw [significant, if_neg loud]; rfl, List.forall_mem_nil _⟩

theorem parent_text (path parent name : String) (above : List String) (single : IsSingle name)
    (deep : above ≠ []) (whole : parts path = above ++ [name]) (is : parent? path = some parent) :
    parent = ofReversed (significant above.reverse) := by
  have loud : ¬(name = "" ∨ name = ".") := by
    have is := single.1
    simp only [isName, Bool.and_eq_true, decide_eq_true_eq, ne_eq] at is
    exact not_or.mpr is.1
  obtain ⟨next, rest, there⟩ := List.exists_cons_of_ne_nil (List.reverse_eq_nil_iff.not.mpr deep)
  have shape : significant (parts path).reverse = name :: next :: rest := by
    rw [whole, List.reverse_append, List.reverse_singleton, List.singleton_append, there, significant,
      if_neg loud]
  rw [parent?, shape] at is
  simpa [there, eq_comm] using is

-- The parent of a path to a name is spelled like what stands before the name, but for parts at its end.
theorem parent_parts (path parent name : String) (above : List String) (single : IsSingle name)
    (named : above.any isName = true) (whole : parts path = above ++ [name])
    (is : parent? path = some parent) :
    isAbsolute parent = isAbsolute path ∧
      ∃ silent, above = parts parent ++ silent ∧ ∀ part ∈ silent, part = "" ∨ part = "." := by
  obtain ⟨silent, split, quiet⟩ := significant_split above.reverse
  have deep : above ≠ [] := by
    rintro rfl
    cases named
  have kept : (significant above.reverse).any isName = true := by
    rw [significant_named, List.any_reverse, named]
  have free : ∀ part ∈ significant above.reverse, '/' ∉ part.toList := by
    intro part member
    refine parts_free path part ?_
    rw [whole, List.reverse_append, List.reverse_singleton]
    exact List.mem_cons_of_mem _ ((significant_suffix _).subset member)
  have own : parts parent = (significant above.reverse).reverse := by
    rw [parent_text path parent name above single deep whole is]
    exact named_reversed_parts _ kept free
  have apart : above = parts parent ++ silent.reverse := by
    rw [own, ← List.reverse_append, ← split, List.reverse_reverse]
  refine ⟨(on_way_of_parts parent path ?_ ?_).absolute, silent.reverse, apart, ?_⟩
  · rw [whole, apart, List.append_assoc]
    exact List.prefix_append _ _
  · rintro alone
    rw [own, List.reverse_eq_iff] at alone
    rw [alone] at kept
    cases kept
  · simpa using quiet

end Path

namespace FileTree

variable (t : FileTree)

theorem walk_cut (above silent : List String) (s last : Standpoint)
    (quiet : ∀ part ∈ silent, part = "" ∨ part = ".") (walked : t.walk s (above ++ silent) = .ok last) :
    t.walk s above = .ok last := by
  rw [walk_append] at walked
  obtain ⟨middle, before, walked⟩ := (bind_ok _ _ _).mp walked
  rw [before, walk_silent t silent middle last quiet walked]

structure Beneath (path name joined : String) (top : Location) (above : List String) : Prop where
  absolute : Path.isAbsolute joined = Path.isAbsolute path
  whole : Path.parts joined = above ++ [name]
  named : above.any Path.isName = true
  walked : t.walk (t.origin path) above = .ok ⟨top, 0⟩

theorem join_beneath (path name : String) (top : Location) (single : Path.IsSingle name)
    (named : Path.hasName path = true) (leads : LeadsTo t path top) :
    ∃ above, Beneath t path name (Path.join path name) top above := by
  have relative := Path.single_relative name single
  have based : path ≠ "" := by
    rintro rfl
    cases named
  obtain ⟨above, ending, silent, own, joined⟩ := Path.join_parts path name relative based
  refine ⟨above, Path.join_absolute path name relative, ?_, ?_, ?_⟩
  · rw [joined, Path.single_parts name single]
  · rw [Path.hasName, own, List.any_append] at named
    rcases silent with rfl | rfl
    · simpa using named
    · simpa [Path.isName] using named
  · exact walk_cut t above ending _ _ (Path.silent_parts ending silent) (own ▸ leads.walked)

section Beneath

variable (path joined : String) (name : String) (top : Location) (above : List String)
  (beneath : Beneath t path name joined top above)

include beneath

theorem origin_beneath (other : String) (absolute : Path.isAbsolute other = Path.isAbsolute joined) :
    t.origin other = t.origin path := by
  rw [origin, origin, absolute, beneath.absolute]

variable (single : Path.IsSingle name)

include single

theorem parent_stands (parent : String) (is : Path.parent? joined = some parent)
    (stands : t.node? top = some .directory) : (access.makeDirectories parent t).2 = t := by
  obtain ⟨absolute, silent, whole, quiet⟩ :=
    Path.parent_parts joined parent name above single beneath.named beneath.whole is
  refine leads_made t parent top ⟨?_, stands⟩
  rw [origin_beneath t path joined name top above beneath parent absolute]
  exact walk_cut t _ silent _ _ quiet (whole ▸ beneath.walked)

theorem placed_beneath (directory : Location) (last : String)
    (placed : t.place joined = .ok (directory, some last)) : directory ++ [last] = top ++ [name] := by
  obtain ⟨before, count, whole, _, walked, _⟩ := place_named t joined directory last placed
  have inked : name ≠ "" := by
    rintro rfl
    cases single.1
  cases count with
  | succ count =>
    rw [beneath.whole, List.replicate_succ', ← List.cons_append, ← List.append_assoc] at whole
    exact absurd (List.cons.inj (List.append_inj' whole rfl).2).1 inked
  | zero =>
    obtain ⟨rfl, same⟩ := List.append_inj' (beneath.whole.symm.trans whole) rfl
    obtain rfl := (List.cons.inj same).1
    rw [origin_beneath t path joined name top above beneath joined rfl, beneath.walked] at walked
    cases walked
    rfl

theorem write_beneath (contents : ByteArray) (leads : LeadsTo t path top) :
    LeadsTo (t.write joined contents).1 path top ∧
      ∀ spot, spot ≠ top ++ [name] → (t.write joined contents).1.node? spot = t.node? spot := by
  rcases t.write_cases joined contents with ⟨fault, refused⟩ | ⟨directory, last, _, placed, free, put⟩
  · rw [refused]
    exact ⟨leads, fun _ _ => rfl⟩
  · rw [placed_beneath t path joined name top above beneath single directory last placed] at free put
    have deep : top ++ [name] ≠ [] := by simp
    rw [put]
    refine ⟨⟨added_walk t _ _ deep free _ _ _ leads.walked, ?_⟩, fun spot other => ?_⟩
    · rw [added_node t _ _ _ deep, if_neg (by simp), leads.stands]
    · rw [added_node t _ _ _ deep, if_neg other]

end Beneath

end FileTree

namespace OutputDirectory

open FileTree (LeadsTo)

-- What writing into a directory leaves: the directory itself, and all but the places of the files.
structure Contained (t : FileTree) (path : String) (top : Location) (files : List GeneratedFile)
    (after : FileTree) : Prop where
  leads : LeadsTo after path top
  nodes : ∀ spot, (∀ file ∈ files, spot ≠ top ++ [file.path]) → after.node? spot = t.node? spot

section Writing

variable (t : FileTree) (path : String) (top : Location) (files : List GeneratedFile)
  (named : Path.hasName path = true)

include named

theorem write_file_contained (file : GeneratedFile) (member : file ∈ files)
    (single : Path.IsSingle file.path) :
    Ends (Contained t path top files) (Contained t path top files)
      (writeFile FileTree.access ⟨path⟩ file) := by
  let kept := Contained t path top files
  have written : Ends kept kept (ExceptT.mk (GenerationError.ofFault (Path.join path file.path) <$>
      FileTree.access.write (Path.join path file.path) file.contents)) := by
    refine ends_files kept kept _ _ fun before contained => ?_
    obtain ⟨above, beneath⟩ := FileTree.join_beneath before path file.path top single named contained.leads
    obtain ⟨leads, nodes⟩ := FileTree.write_beneath before path _ file.path top above beneath single
      file.contents.toUTF8 contained.leads
    exact ⟨leads, fun spot apart => (nodes spot (apart file member)).trans (contained.nodes spot apart)⟩
  unfold writeFile
  dsimp only
  split
  · rename_i parent is
    refine ends_bind kept kept _ _ (ends_files kept kept parent _ fun before contained => ?_) fun _ => written
    obtain ⟨above, beneath⟩ := FileTree.join_beneath before path file.path top single named contained.leads
    have same := FileTree.parent_stands before path _ file.path top above beneath single parent is
      contained.leads.stands
    change kept (FileTree.access.makeDirectories parent before).2
    rwa [same]
  · exact written

theorem write_all_contained (written : List GeneratedFile) (among : ∀ file ∈ written, file ∈ files)
    (single : ∀ file ∈ written, Path.IsSingle file.path) :
    Ends (Contained t path top files) (Contained t path top files)
      (writeAll FileTree.access ⟨path⟩ written) := by
  induction written with
  | nil => exact ends_pure _ _
  | cons file rest ih =>
    obtain ⟨member, others⟩ := List.forall_mem_cons.mp among
    obtain ⟨own, further⟩ := List.forall_mem_cons.mp single
    exact ends_bind _ _ _ _ (write_file_contained t path top files named file member own) fun _ =>
      ih others further

end Writing

theorem clean_leads (path : String) :
    Brings (fun _ => True) (fun out after => out = ⟨path⟩ ∧ Path.hasName path = true ∧
      ∃ top, LeadsTo after path top) (clean FileTree.access path) := by
  rw [clean]
  split
  · rename_i named
    have inked : path ≠ "" := by
      rintro rfl
      cases named
    refine brings_bind _ (fun _ _ => True) _ _ _ (fun _ _ _ _ => trivial) fun _ => ?_
    refine brings_bind _ (fun _ after => ∃ top, LeadsTo after path top) _ _ _ ?_ fun _ =>
      brings_pure _ _ _ fun _ leads => ⟨rfl, named, leads⟩
    refine brings_files _ _ path _ fun before _ _ fine => ?_
    exact FileTree.directory_leads _ path named (FileTree.make_directories_found before path inked fine)
  · intro t _ out fine
    cases fine

end OutputDirectory

def Document.NamesFiles (doc : Document) : Target → Prop
  | .typeScript => ∀ d ∈ doc.domains, '/' ∉ d.name.toList
  | .rust => True

theorem paths_single (domains : List Domain) (stem : Domain → String) (extension first second : String)
    (long : 3 ≤ extension.length) (free : '/' ∉ extension.toList) (fixed : '/' ∉ first.toList)
    (further : '/' ∉ second.toList) :
    (∀ path ∈ (domains.map fun d => stem d ++ extension) ++ [first ++ extension, second ++ extension],
      Path.IsSingle path) ↔ ∀ d ∈ domains, '/' ∉ (stem d).toList := by
  have each := fun stem => Path.extended_single stem extension long free
  rw [List.forall_mem_append, List.forall_mem_map]
  simp [each, fixed, further]

theorem files_single (doc : Document) (options : Options) (files : List GeneratedFile)
    (generated : doc.generate options = .ok files) :
    (∀ file ∈ files, Path.IsSingle file.path) ↔ doc.NamesFiles options.target := by
  have paths : (∀ file ∈ files, Path.IsSingle file.path) ↔
      ∀ path ∈ files.map GeneratedFile.path, Path.IsSingle path := List.forall_mem_map.symm
  rw [Document.generate] at generated
  cases target : options.target with
  | typeScript =>
    rw [target] at generated
    rw [paths, ← Except.ok.inj generated, Script.files_paths,
      paths_single _ (fun d => d.name) _ _ _ (by decide) (by decide) (by decide) (by decide),
      filtered_each doc _ fun name => '/' ∉ name.toList]
    rfl
  | rust =>
    rw [target] at generated
    rw [paths, Crate.files_paths _ options files generated,
      paths_single _ (fun d => Crate.identifier d.name) _ _ _ (by decide) (by decide) (by decide) (by decide)]
    exact iff_true_intro fun d _ => Crate.identifier_slashless d.name

theorem files_contained (doc : Document) (options : Options) (files : List GeneratedFile)
    (generated : doc.generate options = .ok files) :
    ((∀ file ∈ files, Path.IsSingle file.path) ↔ doc.NamesFiles options.target) ∧
      (doc.NamesFiles options.target → ∀ (t cleaned : FileTree) (path : String) (out : OutputDirectory),
        (OutputDirectory.clean FileTree.access path).run t = (.ok out, cleaned) →
        ∃ top, cleaned.LeadsTo path top ∧ ∀ spot, (∀ file ∈ files, spot ≠ top ++ [file.path]) →
          ((OutputDirectory.writeAll FileTree.access out files).run cleaned).2.node? spot =
            cleaned.node? spot) := by
  have single := files_single doc options files generated
  refine ⟨single, fun names t cleaned path out done => ?_⟩
  have brought := OutputDirectory.clean_leads path t trivial out
  rw [done] at brought
  obtain ⟨rfl, named, top, leads⟩ := brought rfl
  have contained := OutputDirectory.write_all_contained cleaned path top files named files
    (fun _ => id) (single.mpr names) cleaned ⟨leads, fun _ _ => rfl⟩
  exact ⟨top, leads, contained.1.nodes⟩

def bareTree : FileTree := ⟨[(["w"], .directory)], ⟨["w"], 0⟩⟩

def cleanedTree : FileTree := ⟨[(["w"], .directory), (["w", "out"], .directory)], ⟨["w"], 0⟩⟩

theorem bare_output_contained :
    ∃ files, caseTwins.generate { target := .typeScript } = .ok files ∧
      (OutputDirectory.clean FileTree.access "out").run bareTree = (.ok ⟨"out"⟩, cleanedTree) ∧
      (∀ file ∈ files, Path.IsSingle file.path) ∧
      ∀ spot, (∀ file ∈ files, spot ≠ ["w", "out"] ++ [file.path]) →
        ((OutputDirectory.writeAll FileTree.access ⟨"out"⟩ files).run cleanedTree).2.node? spot =
          cleanedTree.node? spot := by
  obtain ⟨files, generated⟩ : ∃ files, caseTwins.generate { target := .typeScript } = .ok files := ⟨_, rfl⟩
  have done : (OutputDirectory.clean FileTree.access "out").run bareTree = (.ok ⟨"out"⟩, cleanedTree) := rfl
  obtain ⟨single, inside⟩ := files_contained caseTwins _ files generated
  have names : caseTwins.NamesFiles .typeScript := by
    rw [Document.NamesFiles]
    decide
  obtain ⟨top, leads, kept⟩ := inside names _ _ _ _ done
  have walked : cleanedTree.walk (cleanedTree.origin "out") (Path.parts "out") = .ok ⟨["w", "out"], 0⟩ := rfl
  rw [leads.walked] at walked
  cases walked
  exact ⟨files, generated, done, single.mpr names, kept⟩

theorem run_files {α : Type} (path : String) (action : StateM FileTree (Except Fault α)) (t : FileTree) :
    (ExceptT.mk (GenerationError.ofFault path <$> action)).run t =
      (GenerationError.ofFault path (action t).1, (action t).2) :=
  rfl

def rootedDomain : Document := ⟨none, [bareDomain "/x"]⟩

theorem rooted_file_written (contents : String) :
    (OutputDirectory.writeFile FileTree.access ⟨"out"⟩ ⟨"/x.ts", contents⟩).run cleanedTree =
      (.ok (), { cleanedTree with nodes := cleanedTree.nodes ++ [(["x.ts"], .file contents.toUTF8)] }) := by
  have parent : Path.parent? (Path.join "out" "/x.ts") = some "/" := rfl
  have made : FileTree.access.makeDirectories "/" cleanedTree = (.ok (), cleanedTree) := rfl
  have written : FileTree.access.write (Path.join "out" "/x.ts") contents cleanedTree =
      (.ok (), { cleanedTree with nodes := cleanedTree.nodes ++ [(["x.ts"], .file contents.toUTF8)] }) := rfl
  unfold OutputDirectory.writeFile
  dsimp only
  rw [parent]
  dsimp only
  rw [FileTree.run_bind, run_files, made]
  dsimp only [GenerationError.ofFault]
  rw [run_files, written]
  rfl

theorem rooted_domain_escapes :
    ∃ files, rootedDomain.generate { target := .typeScript } = .ok files ∧
      files.map GeneratedFile.path = ["/x.ts", "index.ts", "ProtocolError.ts"] ∧
      ¬(∀ file ∈ files, Path.IsSingle file.path) ∧
      (OutputDirectory.clean FileTree.access "out").run bareTree = (.ok ⟨"out"⟩, cleanedTree) ∧
      cleanedTree.node? ["x.ts"] = none ∧
      ((OutputDirectory.writeAll FileTree.access ⟨"out"⟩ files).run cleanedTree).2.node? ["x.ts"] ≠
        none := by
  obtain ⟨own, index, error, generated⟩ : ∃ own index error,
      rootedDomain.generate { target := .typeScript } =
        .ok [⟨"/x.ts", own⟩, ⟨"index.ts", index⟩, ⟨"ProtocolError.ts", error⟩] := ⟨_, _, _, rfl⟩
  refine ⟨_, generated, rfl, ?_, rfl, rfl, ?_⟩
  · rw [files_single rootedDomain _ _ generated, Document.NamesFiles]
    decide
  · let rest : List GeneratedFile := [⟨"index.ts", index⟩, ⟨"ProtocolError.ts", error⟩]
    let written : FileTree :=
      { cleanedTree with nodes := cleanedTree.nodes ++ [(["x.ts"], .file own.toUTF8)] }
    have single : ∀ file ∈ rest, Path.IsSingle file.path := by
      simp only [rest, List.forall_mem_cons]
      decide
    have kept := OutputDirectory.write_all_contained written "out" ["w", "out"] rest (by decide) rest
      (fun _ => id) single written ⟨⟨rfl, rfl⟩, fun _ _ => rfl⟩
    have stays := kept.1.nodes ["x.ts"] (by simp)
    rw [OutputDirectory.writeAll, FileTree.run_bind, rooted_file_written]
    exact fun gone => Option.some_ne_none _ (stays.symm.trans gone)

end ProtocolStubs
