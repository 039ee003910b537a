import Mathlib.Data.List.Forall2
import ProtocolStubs.Proofs.FileTree.Contents
import ProtocolStubs.Schema.Loading

set_option autoImplicit false

namespace ProtocolStubs.Document

variable (t : FileTree)

section Single

variable (path : String)

def Reads (path : String) (doc : Document) : Prop :=
  ∃ text, t.readText path = .ok text ∧ parse? text = some doc

-- Why a file has nothing to say. The error tells which file it is.
inductive Refused : SchemaError → Prop where
  | unreadable (fault : Fault) (failed : t.readText path = .error fault) :
    Refused (.unreadable path fault.message)
  | malformed (text reason : String) (read : t.readText path = .ok text) (unparsed : parse? text = none) :
    Refused (.malformed path reason)

def loaded : Except SchemaError Document := ((load FileTree.access path).run t).1

theorem run_load :
    (load FileTree.access path).run t =
      match t.readText path with
      | .error fault => (.error (.unreadable path fault.message), t)
      | .ok text => (parse path text, t) := by
  refine (FileTree.bind_apply (FileTree.access.readText path) _ t).trans ?_
  change (match t.readText path with | .error _ => _ | .ok _ => _ : StateM FileTree _).run t = _
  cases t.readText path <;> rfl

theorem load_stays : (load FileTree.access path).run t = (loaded t path, t) := by
  rw [loaded, run_load]
  cases t.readText path <;> dsimp only

theorem loaded_either :
    (∃ doc, Reads t path doc ∧ loaded t path = .ok doc) ∨
      ∃ cause, Refused t path cause ∧ loaded t path = .error cause := by
  rw [loaded, run_load]
  cases read : t.readText path with
  | error fault => exact .inr ⟨_, .unreadable fault read, rfl⟩
  | ok text =>
    dsimp only [parse]
    cases parsed : parse? text with
    | none => exact .inr ⟨_, .malformed text _ read parsed, rfl⟩
    | some doc => exact .inl ⟨doc, ⟨text, read, parsed⟩, rfl⟩

theorem loaded_reads (doc : Document) : loaded t path = .ok doc ↔ Reads t path doc := by
  constructor
  · intro done
    rcases loaded_either t path with ⟨found, reads, same⟩ | ⟨cause, _, same⟩
    · cases done.symm.trans same
      exact reads
    · cases done.symm.trans same
  · rintro ⟨text, read, parsed⟩
    rw [loaded, run_load, read]
    dsimp only [parse]
    rw [parsed]

theorem loaded_refused (cause : SchemaError) (failed : loaded t path = .error cause) :
    Refused t path cause := by
  rcases loaded_either t path with ⟨doc, _, same⟩ | ⟨own, refused, same⟩
  · cases failed.symm.trans same
  · cases failed.symm.trans same
    exact refused

end Single

theorem load_into_step (doc : Document) (path : String) (rest : List String) :
    (loadInto FileTree.access doc (path :: rest)).run t =
      match (load FileTree.access path).run t with
      | (.error cause, after) => (.error cause, after)
      | (.ok next, after) => (loadInto FileTree.access (doc.merge next) rest).run after := by
  refine (FileTree.bind_apply (load FileTree.access path) _ t).trans ?_
  change _ = match load FileTree.access path t with | (.error _, _) => _ | (.ok _, _) => _
  rcases load FileTree.access path t with ⟨_ | _, _⟩ <;> rfl

def gathered (doc : Document) (paths : List String) : Except SchemaError Document :=
  paths.foldlM (fun doc path => (loaded t path).map doc.merge) doc

theorem gathered_cons (doc : Document) (path : String) (rest : List String) :
    gathered t doc (path :: rest) =
      match loaded t path with
      | .error cause => .error cause
      | .ok next => gathered t (doc.merge next) rest := by
  rw [gathered, List.foldlM_cons]
  cases loaded t path <;> rfl

theorem run_load_into (doc : Document) (paths : List String) :
    (loadInto FileTree.access doc paths).run t = (gathered t doc paths, t) := by
  induction paths generalizing doc with
  | nil => rfl
  | cons path rest ih =>
    rw [load_into_step, load_stays, gathered_cons]
    cases loaded t path with
    | error cause => rfl
    | ok next => exact ih (doc.merge next)

theorem gathered_reads (doc : Document) (paths : List String) (out : Document) :
    gathered t doc paths = .ok out ↔
      ∃ docs, List.Forall₂ (Reads t) paths docs ∧ docs.foldl merge doc = out := by
  constructor
  · intro done
    induction paths generalizing doc with
    | nil =>
      cases done
      exact ⟨[], .nil, rfl⟩
    | cons path rest ih =>
      rw [gathered_cons] at done
      cases first : loaded t path with
      | error cause =>
        rw [first] at done
        cases done
      | ok next =>
        rw [first] at done
        obtain ⟨docs, later, same⟩ := ih (doc.merge next) done
        exact ⟨next :: docs, .cons ((loaded_reads t path next).mp first) later, same⟩
  · rintro ⟨docs, each, rfl⟩
    induction each generalizing doc with
    | nil => rfl
    | @cons path next paths docs first _ ih =>
      rw [gathered_cons, (loaded_reads t path next).mpr first]
      exact ih (doc.merge next)

theorem gathered_fails (doc : Document) (paths : List String) (cause : SchemaError) :
    gathered t doc paths = .error cause ↔
      ∃ before path rest, paths = before ++ path :: rest ∧
        (∀ earlier ∈ before, ∃ doc, Reads t earlier doc) ∧ loaded t path = .error cause := by
  constructor
  · intro failed
    induction paths generalizing doc with
    | nil => cases failed
    | cons path rest ih =>
      rw [gathered_cons] at failed
      cases first : loaded t path with
      | error own =>
        rw [first] at failed
        cases failed
        exact ⟨[], path, rest, rfl, nofun, first⟩
      | ok next =>
        rw [first] at failed
        obtain ⟨before, stop, after, rfl, earlier, own⟩ := ih (doc.merge next) failed
        have here : ∃ doc, Reads t path doc := ⟨next, (loaded_reads t path next).mp first⟩
        exact ⟨path :: before, stop, after, rfl, List.forall_mem_cons.mpr ⟨here, earlier⟩, own⟩
  · rintro ⟨before, path, rest, rfl, earlier, own⟩
    induction before generalizing doc with
    | nil => rw [List.nil_append, gathered_cons, own]
    | cons first others ih =>
      obtain ⟨⟨next, reads⟩, later⟩ := List.forall_mem_cons.mp earlier
      rw [List.cons_append, gathered_cons, (loaded_reads t first next).mpr reads]
      exact ih (doc.merge next) later

theorem gathered_ok (doc : Document) (paths : List String) :
    (∃ out, gathered t doc paths = .ok out) ↔ ∀ path ∈ paths, ∃ doc, Reads t path doc := by
  constructor
  · rintro ⟨out, done⟩
    obtain ⟨docs, each, -⟩ := (gathered_reads t doc paths out).mp done
    clear done
    induction each with
    | nil => exact nofun
    | cons first _ ih => exact List.forall_mem_cons.mpr ⟨⟨_, first⟩, ih⟩
  · intro each
    cases done : gathered t doc paths with
    | ok out => exact ⟨out, rfl⟩
    | error cause =>
      obtain ⟨before, path, rest, rfl, _, own⟩ := (gathered_fails t doc paths cause).mp done
      obtain ⟨found, reads⟩ := each path (List.mem_append_right before List.mem_cons_self)
      cases own.symm.trans ((loaded_reads t path found).mpr reads)

theorem load_into_reads (paths : List String) (docs : List Document) (doc : Document)
    (reads : List.Forall₂ (Reads t) paths docs) :
    (loadInto FileTree.access doc paths).run t = (.ok (docs.foldl merge doc), t) := by
  rw [run_load_into, (gathered_reads t doc paths _).mpr ⟨docs, reads, rfl⟩]

theorem load_into_fails (paths : List String) (doc : Document)
    (unreadable : ∃ path ∈ paths, ∀ doc, ¬Reads t path doc) :
    ∃ cause, (loadInto FileTree.access doc paths).run t = (.error cause, t) := by
  rw [run_load_into]
  cases done : gathered t doc paths with
  | error cause => exact ⟨cause, rfl⟩
  | ok out =>
    obtain ⟨path, member, never⟩ := unreadable
    obtain ⟨found, reads⟩ := (gathered_ok t doc paths).mp ⟨out, done⟩ path member
    exact absurd reads (never found)

end ProtocolStubs.Document
