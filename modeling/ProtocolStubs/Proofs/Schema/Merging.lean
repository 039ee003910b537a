import ProtocolStubs.Proofs.Schema.Loading

set_option autoImplicit false

namespace ProtocolStubs.Document

theorem merge_assoc (first second third : Document) :
    (first.merge second).merge third = first.merge (second.merge third) := by
  obtain ⟨version, domains⟩ := first
  cases version <;> simp [merge, List.append_assoc]

theorem empty_merge (doc : Document) : empty.merge doc = doc := rfl

theorem merge_empty (doc : Document) : doc.merge empty = doc := by
  obtain ⟨version, domains⟩ := doc
  cases version <;> simp [merge, empty]

def merged (docs : List Document) : Document := docs.foldl merge empty

theorem foldl_merge (doc : Document) (docs : List Document) :
    docs.foldl merge doc = doc.merge (merged docs) := by
  induction docs generalizing doc with
  | nil => exact (merge_empty doc).symm
  | cons next rest ih => rw [merged, List.foldl_cons, List.foldl_cons, ih, ih, empty_merge, merge_assoc]

theorem merged_cons (doc : Document) (docs : List Document) :
    merged (doc :: docs) = doc.merge (merged docs) := by
  rw [merged, List.foldl_cons, foldl_merge, empty_merge]

theorem merged_domains (docs : List Document) : (merged docs).domains = docs.flatMap Document.domains := by
  induction docs with
  | nil => rfl
  | cons doc rest ih => rw [merged_cons, merge, ih, List.flatMap_cons]

theorem merged_version (docs : List Document) : (merged docs).version = docs.findSome? Document.version := by
  induction docs with
  | nil => rfl
  | cons doc rest ih =>
    rw [merged_cons, merge, ih, List.findSome?_cons]
    cases doc.version <;> rfl

-- A document without a version does not hide those after it.
example : (merged [⟨none, []⟩, ⟨some ⟨"1", "3"⟩, []⟩, ⟨some ⟨"9", "9"⟩, []⟩]).version = some ⟨"1", "3"⟩ := rfl

def Earliest (domains : List Domain) (name : String) (d : Domain) : Prop :=
  ∃ before after, domains = before ++ d :: after ∧ d.name = name ∧ ∀ other ∈ before, other.name ≠ name

theorem domain_earliest (doc : Document) (name : String) (d : Domain) :
    doc.domain? name = some d ↔ Earliest doc.domains name d := by
  rw [domain?, List.find?_eq_some_iff_append, Earliest]
  simp only [beq_iff_eq, Bool.not_eq_true', beq_eq_false_iff_ne]
  constructor
  · rintro ⟨named, before, after, split, others⟩
    exact ⟨before, after, split, named, others⟩
  · rintro ⟨before, after, split, named, others⟩
    exact ⟨named, before, after, split, others⟩

section Loading

variable (t : FileTree)

theorem gathered_merge (first second : Document) (paths : List String) :
    gathered t (first.merge second) paths = (gathered t second paths).map first.merge := by
  induction paths generalizing second with
  | nil => rfl
  | cons path rest ih =>
    rw [gathered_cons, gathered_cons]
    cases loaded t path with
    | error cause => rfl
    | ok next =>
      dsimp only
      rw [merge_assoc]
      exact ih (second.merge next)

theorem gathered_append (xs ys : List String) : gathered t empty (xs ++ ys) = do
    let first ← gathered t empty xs
    let second ← gathered t empty ys
    return first.merge second := by
  have parts : gathered t empty (xs ++ ys) = gathered t empty xs >>= fun doc => gathered t doc ys :=
    List.foldlM_append
  rw [parts]
  refine bind_congr fun first => ?_
  have front := gathered_merge t first empty ys
  rw [merge_empty] at front
  rw [front]
  cases gathered t empty ys <;> rfl

-- How loading a list of files ends: with the merge of them all, or with the error of the first that
-- does not read.
inductive Ends (paths : List String) : Except SchemaError Document → Prop where
  | reads (docs : List Document) (each : List.Forall₂ (Reads t) paths docs) : Ends paths (.ok (merged docs))
  | fails (before : List String) (path : String) (rest : List String) (cause : SchemaError)
    (split : paths = before ++ path :: rest) (earlier : ∀ other ∈ before, ∃ doc, Reads t other doc)
    (own : (load FileTree.access path).run t = (.error cause, t)) (refused : Refused t path cause) :
    Ends paths (.error cause)

def outcome (paths : List String) : Except SchemaError Document := ((loadAll FileTree.access paths).run t).1

theorem outcome_gathered (paths : List String) : outcome t paths = gathered t empty paths :=
  congrArg Prod.fst (run_load_into t empty paths)

theorem outcome_stays (paths : List String) :
    (loadAll FileTree.access paths).run t = (outcome t paths, t) := by
  rw [outcome_gathered]
  exact run_load_into t empty paths

theorem outcome_ends (paths : List String) (result : Except SchemaError Document) :
    outcome t paths = result ↔ Ends t paths result := by
  rw [outcome_gathered]
  constructor
  · rintro rfl
    cases done : gathered t empty paths with
    | ok doc =>
      obtain ⟨docs, each, rfl⟩ := (gathered_reads t empty paths doc).mp done
      exact .reads docs each
    | error cause =>
      obtain ⟨before, path, rest, split, earlier, own⟩ := (gathered_fails t empty paths cause).mp done
      exact .fails before path rest cause split earlier ((load_stays t path).trans (by rw [own]))
        (loaded_refused t path cause own)
  · intro ends
    cases ends with
    | reads docs each => exact (gathered_reads t empty paths _).mpr ⟨docs, each, rfl⟩
    | fails before path rest cause split earlier own =>
      exact (gathered_fails t empty paths cause).mpr
        ⟨before, path, rest, split, earlier, congrArg Prod.fst own⟩

theorem outcome_ok (paths : List String) :
    (∃ doc, outcome t paths = .ok doc) ↔ ∀ path ∈ paths, ∃ doc, Reads t path doc := by
  rw [outcome_gathered]
  exact gathered_ok t empty paths

theorem outcome_append (xs ys : List String) : outcome t (xs ++ ys) = do
    let first ← outcome t xs
    let second ← outcome t ys
    return first.merge second := by
  rw [outcome_gathered, outcome_gathered, outcome_gathered, gathered_append]

end Loading

-- Loading is a fold in the order of the files, up to the first error; what a list comes to is what its parts
-- come to, merged.
theorem loading_ordered (first second third : Document) (docs : List Document) (name : String) (d : Domain)
    (t : FileTree) (xs ys : List String) :
    ((first.merge second).merge third = first.merge (second.merge third) ∧
      empty.merge first = first ∧ first.merge empty = first) ∧
    merged docs = ⟨docs.findSome? Document.version, docs.flatMap Document.domains⟩ ∧
    ((merged docs).domain? name = some d ↔ Earliest (docs.flatMap Document.domains) name d) ∧
    (loadAll FileTree.access xs).run t = (outcome t xs, t) ∧
    (∀ result, outcome t xs = result ↔ Ends t xs result) ∧
    ((∃ doc, outcome t xs = .ok doc) ↔ ∀ path ∈ xs, ∃ doc, Reads t path doc) ∧
    outcome t (xs ++ ys) = do
      let first ← outcome t xs
      let second ← outcome t ys
      return first.merge second := by
  refine ⟨⟨merge_assoc first second third, empty_merge first, merge_empty first⟩, ?_, ?_,
    outcome_stays t xs, outcome_ends t xs, outcome_ok t xs, outcome_append t xs ys⟩
  · rw [← merged_version, ← merged_domains]
  · rw [← merged_domains]
    exact domain_earliest (merged docs) name d

end ProtocolStubs.Document
