import ProtocolStubs.Proofs.CommandLine.OutputGuard
import ProtocolStubs.Proofs.Generation.Writing
import ProtocolStubs.Proofs.Schema.Loading

set_option autoImplicit false

namespace ProtocolStubs

namespace FileTree

theorem held_apart (t after : FileTree) (top : Location) (files : List GeneratedFile)
    (inside way : Location → Prop) (held : t.HoldsExactly top files) (alters : Alters inside way t after)
    (elsewhere : ∀ spot, top <+: spot → ¬inside spot ∧ ¬way spot) : after.HoldsExactly top files := by
  have same : ∀ spot, top <+: spot → after.node? spot = t.node? spot := by
    intro spot below
    obtain ⟨outside, off⟩ := elsewhere spot below
    rcases alters spot with within | same | ⟨on, _⟩
    · exact absurd within outside
    · exact same
    · exact absurd on off
  refine ⟨?_, fun file member => ?_, fun spot below there => ?_⟩
  · rw [same top (List.prefix_refl _), held.stands]
  · rw [same _ (List.prefix_append _ _), held.each file member]
  · rw [same spot ((below_iff top spot).mp below).1] at there
    exact held.only spot below there

end FileTree

namespace CommandLine

open Document (Reads)
open FileTree (Alters Ready run_bind)
open OutputDirectory (Brings Filled Fits Apart brings_bind Ends)

section Loading

variable (t : FileTree) (root : String) (i : Invocation)

theorem run_load_schemas (some_ : i.schemaNames ≠ []) :
    (loadSchemas FileTree.access root i).run t =
      match (Document.loadInto FileTree.access .empty (i.schemaNames.map (Path.join root))).run t with
      | (.error cause, after) => (.error (.schema cause), after)
      | (.ok doc, after) => (.ok doc, after) := by
  unfold loadSchemas
  dsimp only
  split
  · rename_i none_
    exact absurd (by simpa using none_) some_
  · refine (FileTree.bind_apply (Document.loadAll FileTree.access _) _ t).trans ?_
    change _ = match Document.loadAll FileTree.access (i.schemaNames.map (Path.join root)) t with
      | (.error _, _) => _
      | (.ok _, _) => _
    rcases Document.loadAll FileTree.access (i.schemaNames.map (Path.join root)) t with ⟨_ | _, _⟩ <;> rfl

theorem load_schemas_reads (docs : List Document) (some_ : i.schemaNames ≠ [])
    (reads : List.Forall₂ (fun name => Reads t (Path.join root name)) i.schemaNames docs) :
    (loadSchemas FileTree.access root i).run t = (.ok (docs.foldl Document.merge .empty), t) := by
  have paths : List.Forall₂ (Reads t) (i.schemaNames.map (Path.join root)) docs := by
    rwa [List.forall₂_map_left_iff]
  rw [run_load_schemas t root i some_, Document.load_into_reads t _ docs .empty paths]

theorem load_schemas_fails (unreadable : i.schemaNames = [] ∨
      ∃ name ∈ i.schemaNames, ∀ doc, ¬Reads t (Path.join root name) doc) :
    ∃ cause, (loadSchemas FileTree.access root i).run t = (.error cause, t) := by
  by_cases none_ : i.schemaNames = []
  · rw [loadSchemas, none_]
    exact ⟨.noSchema, rfl⟩
  · obtain ⟨name, member, never⟩ := unreadable.resolve_left none_
    obtain ⟨cause, fails⟩ := Document.load_into_fails t (i.schemaNames.map (Path.join root)) .empty
      ⟨_, List.mem_map_of_mem member, never⟩
    rw [run_load_schemas t root i none_, fails]
    exact ⟨.schema cause, rfl⟩

end Loading

section Places

def SideBySide (files : List GeneratedFile) : Prop :=
  (files.map GeneratedFile.path).Nodup ∧
    ∀ path ∈ files.map GeneratedFile.path, Path.isName path = true ∧ '/' ∉ path.toList

instance (files : List GeneratedFile) : Decidable (SideBySide files) :=
  inferInstanceAs (Decidable ((files.map GeneratedFile.path).Nodup ∧
    ∀ path ∈ files.map GeneratedFile.path, Path.isName path = true ∧ '/' ∉ path.toList))

theorem side_names (files : List GeneratedFile) (beside : SideBySide files) :
    ∀ file ∈ files, Path.parts file.path = [file.path] ∧ Path.names file.path = [file.path] := by
  intro file member
  obtain ⟨named, free⟩ := beside.2 file.path (List.mem_map_of_mem member)
  have single := Path.parts_single file.path free
  exact ⟨single, by rw [Path.names, single, List.filter_cons_of_pos named]; rfl⟩

theorem side_fits (files : List GeneratedFile) (beside : SideBySide files) :
    (∀ file ∈ files, Fits file) ∧ files.Pairwise Apart := by
  have names := side_names files beside
  refine ⟨fun file member => ?_, ?_⟩
  · obtain ⟨named, free⟩ := beside.2 file.path (List.mem_map_of_mem member)
    obtain ⟨parts, single⟩ := names file member
    refine ⟨?_, ?_, by simp [single]⟩
    · rw [Path.IsPlain, parts, List.mem_singleton]
      intro up
      rw [← up] at named
      cases named
    · cases absolute : Path.isAbsolute file.path with
      | false => rfl
      | true =>
        obtain ⟨next, rest, two⟩ := (Path.absolute_parts file.path).mp absolute
        rw [parts] at two
        cases (List.cons.inj two).2
  · have distinct := List.pairwise_map.mp beside.1
    refine distinct.imp_of_mem fun first second other => ?_
    rw [Apart, (names _ first).2, (names _ second).2]
    simp [other, Ne.symm other]

variable (t : FileTree) (root : String) (i : Invocation)

def Invocation.place : Location :=
  let out := i.out.getD "generated"
  if Path.isAbsolute out then Path.names out else t.spot root ++ Path.names out

def Invocation.places : List (Target × Location) :=
  match i.typeScript, i.rust with
  | true, false => [(.typeScript, i.place t root)]
  | false, true => [(.rust, i.place t root)]
  | _, _ => [(.typeScript, i.place t root ++ ["typescript"]), (.rust, i.place t root ++ ["rust"])]

-- A workspace stands in the tree: its path leads down from somewhere that is still there.
structure Settled : Prop where
  closed : t.Closed
  firm : (t.origin root).lost = 0
  plain : Path.IsPlain root

def Invocation.start : Location :=
  if Path.isAbsolute (i.out.getD "generated") then [] else (t.origin root).location

theorem out_path_ready (settled : Settled t root) : Ready (i.outPath root) (i.start t root) t := by
  refine ⟨settled.closed, ?_⟩
  rw [Invocation.outPath, Invocation.start]
  cases absolute : Path.isAbsolute (i.out.getD "generated") with
  | true =>
    rw [Path.join, if_pos absolute, FileTree.origin, if_pos absolute]
    rfl
  | false =>
    rw [FileTree.origin_join t root _ absolute]
    cases origin : t.origin root with
    | mk location lost =>
      obtain rfl : lost = 0 := by simpa [origin] using settled.firm
      rfl

theorem out_path_place : i.start t root ++ Path.names (i.outPath root) = i.place t root := by
  rw [Invocation.start, Invocation.outPath, Invocation.place]
  cases absolute : Path.isAbsolute (i.out.getD "generated") with
  | true => simp [Path.join, absolute]
  | false => simp [Path.join_names root _ absolute, FileTree.spot]

theorem out_path_named (outside : ¬i.place t root <+: t.spot root) : Path.names (i.outPath root) ≠ [] := by
  intro none_
  refine outside ?_
  rw [Invocation.outPath] at none_
  rw [Invocation.place]
  cases absolute : Path.isAbsolute (i.out.getD "generated") with
  | true =>
    rw [Path.join, if_pos absolute] at none_
    simp [none_]
  | false =>
    rw [Path.join_names root _ absolute, List.append_eq_nil_iff] at none_
    simp [none_.2]

structure Aimed (base path : String) : Prop where
  plain : Path.IsPlain path
  absolute : Path.isAbsolute path = Path.isAbsolute base
  named : Path.names path ≠ []

theorem joined_aimed (base name : String) (aimed : Aimed base base) (plain : Path.IsPlain name)
    (relative : Path.isAbsolute name = false) : Aimed base (Path.join base name) :=
  ⟨Path.join_plain base name aimed.plain plain, Path.join_absolute base name relative,
    by simp [Path.join_names base name relative, aimed.named]⟩

theorem targets_aimed (aimed : Aimed (i.outPath root) (i.outPath root)) :
    ∀ target ∈ i.targets root, Aimed (i.outPath root) target.2 := by
  have script := joined_aimed (i.outPath root) "typescript" aimed (by decide) (by decide)
  have crate := joined_aimed (i.outPath root) "rust" aimed (by decide) (by decide)
  rw [Invocation.targets]
  split
  · exact List.forall_mem_singleton.mpr aimed
  · exact List.forall_mem_singleton.mpr aimed
  · exact List.forall_mem_cons.mpr ⟨script, List.forall_mem_singleton.mpr crate⟩

theorem targets_places :
    (i.targets root).map (fun target => (target.1, i.start t root ++ Path.names target.2)) =
      i.places t root := by
  have below : ∀ name, Path.isAbsolute name = false → i.start t root ++
      Path.names (Path.join (i.outPath root) name) = i.place t root ++ Path.names name := by
    intro name relative
    rw [Path.join_names _ name relative, ← List.append_assoc, out_path_place]
  have single := out_path_place t root i
  rw [Invocation.targets, Invocation.places]
  rcases i.typeScript with _ | _ <;> rcases i.rust with _ | _ <;>
    simp only [List.map_cons, List.map_nil, single, below "typescript" (by decide), below "rust" (by decide)]
  · rfl
  · rfl

theorem places_apart : (i.places t root).Pairwise fun a b => ¬a.2 <+: b.2 ∧ ¬b.2 <+: a.2 := by
  rw [Invocation.places]
  split <;> simp [List.prefix_append_right_inj]

end Places

section Filling

theorem emit_brings (path : String) (o : Location) (t : FileTree) (files : List GeneratedFile)
    (plain : Path.IsPlain path) (named : Path.names path ≠ []) (ready : Ready path o t)
    (beside : SideBySide files) :
    Brings (· = t) (fun _ => Filled path o t files) (emit FileTree.access path files) := by
  obtain ⟨fits, apart⟩ := side_fits files beside
  refine brings_bind _ _ _ _ _ (OutputDirectory.clean_brings path o t plain named ready) fun out => ?_
  rintro after ⟨rfl, filled⟩
  exact OutputDirectory.write_all_brings path o t files [] plain named fits apart after filled

variable (doc : Document) (options : Options) (filesOf : Target → List GeneratedFile)

def Generates (target : Target) : Prop :=
  doc.generate { options with target } = .ok (filesOf target) ∧ SideBySide (filesOf target)

theorem generate_all_faults (targets : List (Target × String)) (t : FileTree) (cause : RunError)
    (generates : ∀ target ∈ targets, Generates doc options filesOf target.1)
    (named : ∀ target ∈ targets, Path.hasName target.2 = true)
    (failed : ((generateAll FileTree.access doc options targets).run t).1 = .error cause) :
    ∃ path reason, cause = .generation (.files path reason) := by
  induction targets generalizing t with
  | nil => cases failed
  | cons target rest ih =>
    obtain ⟨⟨generated, _⟩, later⟩ := List.forall_mem_cons.mp generates
    obtain ⟨has, further⟩ := List.forall_mem_cons.mp named
    have faults := emit_faults t target.2 (filesOf target.1) has
    rw [generateAll, run_bind, run_into t doc options target (filesOf target.1) generated] at failed
    rcases done : (emit FileTree.access target.2 (filesOf target.1)).run t with ⟨other | _, middle⟩
    · rw [done] at failed faults
      obtain ⟨path, reason, rfl⟩ := faults other rfl
      cases failed
      exact ⟨path, reason, rfl⟩
    · rw [done] at failed
      exact ih middle later further failed

variable (base : String) (o : Location)

theorem generate_all_fills (targets : List (Target × String)) (t after : FileTree)
    (ready : Ready base o t) (aimed : ∀ target ∈ targets, Aimed base target.2)
    (generates : ∀ target ∈ targets, Generates doc options filesOf target.1)
    (apart : targets.Pairwise fun a b => ¬o ++ Path.names a.2 <+: o ++ Path.names b.2 ∧
      ¬o ++ Path.names b.2 <+: o ++ Path.names a.2)
    (fine : (generateAll FileTree.access doc options targets).run t = (.ok (), after)) :
    (∀ target ∈ targets, after.HoldsExactly (o ++ Path.names target.2) (filesOf target.1)) ∧
      Alters (fun spot => ∃ target ∈ targets, o ++ Path.names target.2 <+: spot)
        (fun spot => ∃ target ∈ targets, spot <+: o ++ Path.names target.2) t after := by
  induction targets generalizing t with
  | nil =>
    cases fine
    exact ⟨List.forall_mem_nil _, FileTree.alters_self _ _ _⟩
  | cons target rest ih =>
    obtain ⟨⟨generated, beside⟩, laterGenerates⟩ := List.forall_mem_cons.mp generates
    obtain ⟨aim, laterAimed⟩ := List.forall_mem_cons.mp aimed
    obtain ⟨others, laterApart⟩ := List.pairwise_cons.mp apart
    have own := FileTree.ready_alike base target.2 o t aim.absolute.symm ready
    have brings := emit_brings target.2 o t (filesOf target.1) aim.plain aim.named own beside t rfl ()
    rw [generateAll, run_bind, run_into t doc options target (filesOf target.1) generated] at fine
    rcases done : (emit FileTree.access target.2 (filesOf target.1)).run t with ⟨cause | _, middle⟩
    · rw [done] at fine
      cases fine
    · rw [done] at fine brings
      have filled := brings rfl
      have still := FileTree.ready_alike target.2 base o middle aim.absolute filled.ready
      obtain ⟨held, alters⟩ := ih middle still laterAimed laterGenerates laterApart fine
      refine ⟨List.forall_mem_cons.mpr ⟨?_, held⟩, ?_⟩
      · refine FileTree.held_apart middle after _ _ _ _ filled.holds alters fun spot below => ⟨?_, ?_⟩
        · rintro ⟨other, member, inside⟩
          rcases List.prefix_or_prefix_of_prefix below inside with way | way
          · exact (others other member).1 way
          · exact (others other member).2 way
        · rintro ⟨other, member, way⟩
          exact (others other member).1 (below.trans way)
      · refine FileTree.alters_next _ _ t middle after ?_ ?_
        · exact FileTree.alters_wider _ _ t _ _ middle filled.nodes
            (fun _ inside => ⟨target, List.mem_cons_self, inside⟩)
            fun _ way => .inr ⟨target, List.mem_cons_self, way⟩
        · refine FileTree.alters_wider _ _ middle _ _ after alters ?_ ?_
          · rintro spot ⟨other, member, inside⟩
            exact ⟨other, List.mem_cons_of_mem _ member, inside⟩
          · rintro spot ⟨other, member, way⟩
            exact .inr ⟨other, List.mem_cons_of_mem _ member, way⟩

end Filling

section Whole

variable (t : FileTree) (root : String) (i : Invocation)

def Invocation.LacksSchema : Prop :=
  i.schemaNames = [] ∨ ∃ name ∈ i.schemaNames, ∀ doc, ¬Reads t (Path.join root name) doc

-- What a run needs to go well, if the files of the machine do not fail it.
structure Deliverable (docs : List Document) (filesOf : Target → List GeneratedFile) : Prop where
  listed : i.schemaNames ≠ []
  reads : List.Forall₂ (fun name => Reads t (Path.join root name)) i.schemaNames docs
  generates : ∀ place ∈ i.places t root,
    Generates (docs.foldl Document.merge .empty) i.options filesOf place.1
  settled : Settled t root
  plain : Path.IsPlain (i.out.getD "generated")
  outside : ¬i.place t root <+: t.spot root

-- Each target has its place to itself, and no other place has changed.
structure Delivered (filesOf : Target → List GeneratedFile) (after : FileTree) : Prop where
  filled : ∀ place ∈ i.places t root, after.HoldsExactly place.2 (filesOf place.1)
  elsewhere : Alters (fun spot => ∃ place ∈ i.places t root, place.2 <+: spot)
    (fun spot => ∃ place ∈ i.places t root, spot <+: place.2) t after

theorem codegen_delivers (docs : List Document) (filesOf : Target → List GeneratedFile)
    (deliverable : Deliverable t root i docs filesOf)
    (sound : ∀ path reason,
      ((codegen FileTree.access root i).run t).1 ≠ .error (.generation (.files path reason))) :
    ((codegen FileTree.access root i).run t).1 = .ok () ∧
      Delivered t root i filesOf ((codegen FileTree.access root i).run t).2 := by
  obtain ⟨listed, reads, generates, settled, plain, outside⟩ := deliverable
  have aimed := targets_aimed root i
    ⟨Path.join_plain root _ settled.plain plain, rfl, out_path_named t root i outside⟩
  have places := targets_places t root i
  have ready := out_path_ready t root i settled
  have apart := places_apart t root i
  rw [← places, List.pairwise_map] at apart
  rw [codegen, run_bind, load_schemas_reads t root i docs listed reads] at sound ⊢
  dsimp only at sound ⊢
  rw [← places] at generates
  have each := List.forall_mem_map.mp generates
  rcases done : (generateAll FileTree.access (docs.foldl Document.merge .empty) i.options
    (i.targets root)).run t with ⟨cause | _, after⟩
  · have named : ∀ target ∈ i.targets root, Path.hasName target.2 = true := fun target member =>
      (Path.names_some target.2).mp (aimed target member).named
    obtain ⟨path, reason, rfl⟩ :=
      generate_all_faults _ _ filesOf (i.targets root) t cause each named (congrArg Prod.fst done)
    exact absurd (congrArg Prod.fst done) (sound path reason)
  · obtain ⟨filled, elsewhere⟩ := generate_all_fills _ _ filesOf (i.outPath root) (i.start t root)
      (i.targets root) t after ready aimed each apart done
    refine ⟨rfl, ?_, ?_⟩
    · rw [← places]
      exact List.forall_mem_map.mpr filled
    · rw [← places]
      simpa only [List.mem_map, exists_exists_and_eq_and] using elsewhere

end Whole

-- The workspace with what an earlier run has left behind.
def littered : FileTree :=
  { workspace with nodes := workspace.nodes ++
    [(["ws", "gen"], .directory), (["ws", "gen", "rust"], .directory),
      (["ws", "gen", "rust", "gone.rs"], .file "old".toUTF8)] }

def askingBoth : List String := ["codegen", "--schema", "p.json", "--out", "gen"]

def both : Invocation := ⟨"p.json", some "gen", false, false, {}⟩

theorem littered_settled : Settled littered "/ws" :=
  ⟨FileTree.closed_of_listed littered (by decide), rfl, by decide⟩

theorem littered_reads : Reads littered "/ws/p.json" widgets := by
  refine ⟨"[\x7b\"domain\":\"Widget\",\"commands\":[\x7b\"name\":\"ping\"\x7d]\x7d]", ?_, ?_⟩
  · exact of_option _ _ (by decide)
  · decide +kernel

end CommandLine

end ProtocolStubs
