import ProtocolStubs.CommandLine.Run
import ProtocolStubs.Proofs.FileTree.Joining
import ProtocolStubs.Proofs.Generation.Cleaning

set_option autoImplicit false

namespace ProtocolStubs

namespace OutputDirectory

open FileTree (Keeps HoldsOnly)

variable (q : FileTree → Prop)

theorem write_file_ends (out : OutputDirectory) (file : GeneratedFile)
    (makes : ∀ path, Keeps q (FileTree.access.makeDirectory path))
    (writes : ∀ path, Keeps q (FileTree.access.write path file.contents)) :
    Ends q q (writeFile FileTree.access out file) := by
  have written := ends_files q q (Path.join out.path file.path) _ (writes (Path.join out.path file.path))
  unfold OutputDirectory.writeFile
  dsimp only
  split
  · have made := fun parent =>
      ends_files q q parent _ (FileTree.keeps_make_directories q makes parent)
    exact ends_bind q q _ _ (made _) fun _ => written
  · exact written

theorem write_all_ends (out : OutputDirectory) (files : List GeneratedFile)
    (makes : ∀ path, Keeps q (FileTree.access.makeDirectory path))
    (writes : ∀ file ∈ files, ∀ path, Keeps q (FileTree.access.write path file.contents)) :
    Ends q q (writeAll FileTree.access out files) := by
  induction files with
  | nil => exact ends_pure q ()
  | cons file rest ih =>
    refine ends_bind q q _ _ ?_ fun _ => ?_
    · exact write_file_ends q out file makes (writes file List.mem_cons_self)
    · exact ih fun other member => writes other (List.mem_cons_of_mem _ member)

end OutputDirectory

namespace CommandLine

open FileTree (Keeps HoldsOnly run_bind)
open OutputDirectory (Ends ends_bind)

theorem keeps_load_into (p : FileTree → Prop) (doc : Document) (paths : List String) :
    Keeps p (Document.loadInto FileTree.access doc paths) := by
  induction paths generalizing doc with
  | nil => exact FileTree.keeps_pure p _
  | cons path rest ih =>
    have loads : Keeps p (Document.load FileTree.access path) := by
      refine FileTree.keeps_bind p _ _ (fun _ before => before) fun result => ?_
      cases result with
      | ok text => exact FileTree.keeps_pure p _
      | error fault => exact FileTree.keeps_pure p _
    refine FileTree.keeps_bind p _ _ loads fun result => ?_
    cases result with
    | ok next => exact ih (doc.merge next)
    | error cause => exact FileTree.keeps_pure p _

variable (t : FileTree) (root : String) (i : Invocation)

theorem load_keeps (p : FileTree → Prop) : Keeps p (loadSchemas FileTree.access root i).run := by
  have loads : Keeps p (Document.loadAll FileTree.access (i.schemaNames.map (Path.join root))) :=
    keeps_load_into p _ _
  unfold loadSchemas
  dsimp only
  split
  · exact fun _ before => before
  · refine FileTree.keeps_bind p _ _ loads fun result => ?_
    cases result with
    | ok doc => exact FileTree.keeps_pure p _
    | error cause => exact FileTree.keeps_pure p _

theorem load_unchanged : ((loadSchemas FileTree.access root i).run t).2 = t :=
  load_keeps root i (fun after => after = t) t rfl

def Invocation.target : Target := if i.rust then .rust else .typeScript

theorem single_target (single : i.typeScript ≠ i.rust) :
    i.targets root = [(i.target, i.outPath root)] := by
  rw [Invocation.targets, Invocation.target]
  cases script : i.typeScript with
  | false =>
    cases crate : i.rust with
    | false => exact absurd (script.trans crate.symm) single
    | true => rfl
  | true =>
    cases crate : i.rust with
    | false => rfl
    | true => exact absurd (script.trans crate.symm) single

theorem emit_refused (path : String) (generated : List GeneratedFile)
    (unnamed : Path.hasName path = false) :
    (emit FileTree.access path generated).run t = (.error (.unsafeDirectory path), t) := by
  rw [emit, run_bind, OutputDirectory.clean_unnamed path t unnamed]

theorem emit_ends (p q : FileTree → Prop) (path : String) (generated : List GeneratedFile)
    (cleans : Ends p q (OutputDirectory.clean FileTree.access path))
    (makes : ∀ path, Keeps q (FileTree.access.makeDirectory path))
    (writes : ∀ file ∈ generated, ∀ path, Keeps q (FileTree.access.write path file.contents)) :
    Ends p q (emit FileTree.access path generated) :=
  ends_bind p q _ _ cleans fun out => OutputDirectory.write_all_ends q out generated makes writes

theorem emit_faults (path : String) (generated : List GeneratedFile) (named : Path.hasName path = true)
    (cause : GenerationError)
    (failed : ((emit FileTree.access path generated).run t).1 = .error cause) :
    ∃ path reason, cause = .files path reason :=
  (emit_ends (fun _ => True) (fun _ => True) path generated (OutputDirectory.clean_faults path named)
    (fun _ _ _ => trivial) (fun _ _ _ _ _ => trivial) t trivial).2 cause failed

theorem emit_guarded (path : String) (generated : List GeneratedFile) :
    (emit FileTree.access path generated).run t = (.error (.unsafeDirectory path), t) ↔
      Path.hasName path = false := by
  constructor
  · intro refused
    cases named : Path.hasName path with
    | false => rfl
    | true =>
      obtain ⟨_, _, files⟩ := emit_faults t path generated named (.unsafeDirectory path)
        (congrArg Prod.fst refused)
      cases files
  · exact emit_refused t path generated

def IsFresh (generated : List GeneratedFile) (node : Node) : Prop :=
  node = .directory ∨ ∃ file ∈ generated, node = .file file.contents.toUTF8

theorem emit_empties (top : Location) (path : String) (generated : List GeneratedFile)
    (named : Path.hasName path = true) (found : t.find path = .ok ⟨top, 0⟩)
    (stands : t.isDirectoryAt top = true) :
    HoldsOnly (IsFresh generated) top ((emit FileTree.access path generated).run t).2 := by
  have ends := emit_ends _ (HoldsOnly (IsFresh generated) top) path generated
    (OutputDirectory.clean_empties (IsFresh generated) top path named (.inl rfl))
    (fun other after only => FileTree.make_directory_only _ top after other (.inl rfl) only)
    (fun file member other after only =>
      FileTree.write_only _ top after other _ (.inr ⟨file, member, rfl⟩) only)
  exact (ends t ⟨found, stands⟩).1

def generationEnd (ended : Except GenerationError Unit × FileTree) : Except RunError Unit × FileTree :=
  (ended.1.mapError .generation, ended.2)

theorem end_tree (ended : Except GenerationError Unit × FileTree) : (generationEnd ended).2 = ended.2 :=
  rfl

theorem end_refused (ended : Except GenerationError Unit × FileTree) (cause : GenerationError) :
    generationEnd ended = (.error (.generation cause), t) ↔ ended = (.error cause, t) := by
  obtain ⟨result, after⟩ := ended
  cases result with
  | ok _ => simp [generationEnd, Except.mapError]
  | error other => simp [generationEnd, Except.mapError]

theorem run_into (doc : Document) (options : Options) (target : Target × String)
    (generated : List GeneratedFile)
    (generates : doc.generate { options with target := target.1 } = .ok generated) :
    (generateInto FileTree.access doc options target).run t =
      generationEnd ((emit FileTree.access target.2 generated).run t) := by
  rw [generateInto, generates]
  refine (FileTree.bind_apply (emit FileTree.access target.2 generated).run _ t).trans ?_
  cases (emit FileTree.access target.2 generated).run t with
  | mk result after =>
    cases result with
    | ok _ => rfl
    | error cause => rfl

theorem run_single (arguments : List String) (doc : Document) (readable : read arguments = .ok i)
    (single : i.typeScript ≠ i.rust)
    (loaded : ((loadSchemas FileTree.access root i).run t).1 = .ok doc) :
    (run FileTree.access root arguments).run t =
      match doc.generate { i.options with target := i.target } with
      | .error cause => (.error (.item cause), t)
      | .ok generated => generationEnd ((emit FileTree.access (i.outPath root) generated).run t) := by
  have unchanged := load_unchanged t root i
  rw [run, readable]
  dsimp only
  rw [codegen, run_bind, single_target root i single]
  cases loads : (loadSchemas FileTree.access root i).run t with
  | mk result after =>
    rw [loads] at loaded unchanged
    dsimp only at loaded unchanged
    subst loaded unchanged
    dsimp only
    rw [generateAll, run_bind]
    cases generates : doc.generate { i.options with target := i.target } with
    | error cause =>
      rw [generateInto, generates]
      rfl
    | ok generated =>
      rw [run_into after doc i.options (i.target, i.outPath root) generated generates]
      dsimp only
      cases (emit FileTree.access (i.outPath root) generated).run after with
      | mk result last =>
        cases result with
        | ok _ => rfl
        | error cause => rfl

theorem out_path_name : Path.hasName (i.outPath root) = false ↔
    Path.hasName (i.out.getD "generated") = false ∧
      (Path.isAbsolute (i.out.getD "generated") = true ∨ Path.hasName root = false) := by
  rw [Invocation.outPath, Path.join_name]
  cases Path.hasName (i.out.getD "generated") <;>
    cases Path.isAbsolute (i.out.getD "generated") <;>
    cases Path.hasName root <;> simp

-- A value that cancels out names the workspace's root or a directory above it.
theorem out_path_above (base place : Standpoint) (spent : Path.isSpent (i.out.getD "generated") = true)
    (found : t.find root = .ok base) (onward : t.find (i.outPath root) = .ok place) :
    place.location <+: base.location := by
  cases absolute : Path.isAbsolute (i.out.getD "generated") with
  | false => exact FileTree.join_spent t root _ base place absolute spent found onward
  | true =>
    have same : i.outPath root = i.out.getD "generated" := by
      rw [Invocation.outPath, Path.join, if_pos absolute]
    rw [same] at onward
    have above := FileTree.spent_find t _ place spent onward
    rw [FileTree.origin, if_pos absolute] at above
    rw [List.prefix_nil.mp above]
    exact List.nil_prefix

theorem output_guard_exact (arguments : List String) (doc : Document) (readable : read arguments = .ok i)
    (single : i.typeScript ≠ i.rust)
    (loaded : ((loadSchemas FileTree.access root i).run t).1 = .ok doc) :
    let out := i.out.getD "generated"
    let outcome := (run FileTree.access root arguments).run t
    match doc.generate { i.options with target := i.target } with
    | .error cause => outcome = (.error (.item cause), t)
    | .ok generated =>
      (outcome = (.error (.generation (.unsafeDirectory (i.outPath root))), t) ↔
        (OutputDirectory.clean FileTree.access out).run t = (.error (.unsafeDirectory out), t) ∧
          (Path.isAbsolute out = true ∨ Path.hasName root = false)) ∧
      ∀ top, t.find (i.outPath root) = .ok ⟨top, 0⟩ →
        (Path.isSpent out = true → ∀ base, t.find root = .ok base → top <+: base.location) ∧
        (Path.hasName (i.outPath root) = true → t.isDirectoryAt top = true →
          HoldsOnly (IsFresh generated) top outcome.2) := by
  intro out outcome
  have ended : outcome = _ := run_single t root i arguments doc readable single loaded
  generalize outcome = outcome at ended
  cases generates : doc.generate { i.options with target := i.target } with
  | error cause =>
    rw [generates] at ended
    exact ended
  | ok generated =>
    rw [generates] at ended
    dsimp only at ended ⊢
    subst ended
    refine ⟨?_, fun top found => ⟨fun spent base there => ?_, fun named stands => ?_⟩⟩
    · rw [end_refused, emit_guarded, out_path_name, OutputDirectory.clean_refused]
    · exact out_path_above t root i base ⟨top, 0⟩ spent there found
    · rw [end_tree]
      exact emit_empties t top (i.outPath root) generated named found stands

def workspace : FileTree :=
  ⟨[(["ws"], .directory), (["ws", "p.json"],
    .file "[\x7b\"domain\":\"Widget\",\"commands\":[\x7b\"name\":\"ping\"\x7d]\x7d]".toUTF8)],
    ⟨["ws"], 0⟩⟩

def widgets : Document :=
  ⟨none, [⟨"Widget", none, none, none, none, none, [⟨"ping", none, none, none, none, none, none⟩], none⟩]⟩

def asking (out : String) : List String :=
  ["codegen", "--schema", "p.json", "--typescript", "--out", out]

theorem of_option {ε α : Type} (result : Except ε α) (a : α) (there : result.toOption = some a) :
    result = .ok a := by
  cases result with
  | error cause => cases there
  | ok _ =>
    cases there
    rfl

theorem loaded_widgets (out : String) :
    ((loadSchemas FileTree.access "/ws" ⟨"p.json", some out, true, false, {}⟩).run workspace).1 =
      .ok widgets := by
  apply of_option
  change ((loadSchemas FileTree.access "/ws" ⟨"p.json", none, true, false, {}⟩).run
    workspace).1.toOption = some widgets
  decide +kernel

theorem root_value_refused :
    read (asking "/") = .ok ⟨"p.json", some "/", true, false, {}⟩ ∧
      ((loadSchemas FileTree.access "/ws" ⟨"p.json", some "/", true, false, {}⟩).run workspace).1 =
        .ok widgets ∧
      (run FileTree.access "/ws" (asking "/")).run workspace =
        (.error (.generation (.unsafeDirectory "/")), workspace) := by
  have readable : read (asking "/") = .ok ⟨"p.json", some "/", true, false, {}⟩ := rfl
  have met : _ ∧ _ := output_guard_exact workspace "/ws" ⟨"p.json", some "/", true, false, {}⟩
    (asking "/") widgets readable (by decide) (loaded_widgets "/")
  exact ⟨readable, loaded_widgets "/", met.1.mpr ⟨rfl, by decide⟩⟩

-- The empty value names the root of the workspace, and alone it is refused; a run with it goes well, and
-- the protocol file that it was made from is gone.
theorem empty_value_wipes :
    workspace.find (Path.join "/ws" "") = workspace.find "/ws" ∧
      (OutputDirectory.clean FileTree.access "").run workspace =
        (.error (.unsafeDirectory ""), workspace) ∧
      ((run FileTree.access "/ws" (asking "")).run workspace).1.isOk = true ∧
      ((run FileTree.access "/ws" (asking "")).run workspace).2.holds "/ws/p.json" = false :=
  ⟨rfl, rfl, by decide +kernel, by decide +kernel⟩

end CommandLine

end ProtocolStubs
