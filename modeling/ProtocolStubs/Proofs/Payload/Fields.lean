import ProtocolStubs.Payload.Decoding
import ProtocolStubs.Proofs.Lookup

set_option autoImplicit false

namespace ProtocolStubs.Payload

-- The keys of the fields that are given, in the order of their declaration; the others may be left out.
inductive Gives : List Field → List String → Prop where
  | nil : Gives [] []
  | given (f : Field) (fields : List Field) (keys : List String) (rest : Gives fields keys) :
      Gives (f :: fields) (f.key :: keys)
  | absent (f : Field) (fields : List Field) (keys : List String) (may : f.presence = .omitted)
      (rest : Gives fields keys) : Gives (f :: fields) keys

variable {fields : List Field} {keys : List String}

theorem gives_sublist (gives : Gives fields keys) : keys.Sublist (fields.map Field.key) := by
  induction gives with
  | nil => exact List.Sublist.slnil
  | given f _ _ _ ih => exact ih.cons_cons f.key
  | absent f _ _ _ _ ih => exact ih.cons f.key

theorem key_apart (f g : Field) (fresh : f.key ∉ fields.map Field.key) (member : g ∈ fields) :
    g.key ≠ f.key := fun same => fresh (same ▸ List.mem_map_of_mem member)

theorem key_missing (f : Field) (fresh : f.key ∉ fields.map Field.key) (gives : Gives fields keys) :
    f.key ∉ keys := fun there => fresh ((gives_sublist gives).subset there)

theorem gives_exactly (gives : Gives fields keys) (distinct : (fields.map Field.key).Nodup) :
    keys = (fields.filter fun f => f.key ∈ keys).map Field.key := by
  induction gives with
  | nil => rfl
  | given f fields keys rest ih =>
    obtain ⟨fresh, distinct⟩ := List.nodup_cons.mp distinct
    have same : fields.filter (fun g => g.key ∈ f.key :: keys) = fields.filter fun g => g.key ∈ keys := by
      refine List.filter_congr fun g member => ?_
      simp only [List.mem_cons, key_apart f g fresh member, false_or]
    rw [List.filter_cons_of_pos (by simp), same, List.map_cons, ← ih distinct]
  | absent f fields keys _ rest ih =>
    obtain ⟨fresh, distinct⟩ := List.nodup_cons.mp distinct
    rw [List.filter_cons_of_neg (by simp [key_missing f fresh rest])]
    exact ih distinct

theorem find_field (f : Field) (member : f ∈ fields) (distinct : (fields.map Field.key).Nodup) :
    (fields.find? fun g => g.key == f.key) = some f := by
  induction fields with
  | nil => cases member
  | cons g fields ih =>
    obtain ⟨fresh, distinct⟩ := List.nodup_cons.mp distinct
    rcases List.mem_cons.mp member with rfl | later
    · rw [List.find?_cons_of_pos (by simp)]
    · have other := (key_apart g f fresh later).symm
      rw [List.find?_cons_of_neg (by simp [other])]
      exact ih later distinct

theorem record_keys_distinct (r : Record) : (r.fields.map Field.key).Nodup := by
  cases r <;> decide

theorem record_parts (read : List (String × Option Datum)) (members : List (String × Datum))
    (gives : Gives fields keys) (same : members.map Prod.fst = keys)
    (distinct : (fields.map Field.key).Nodup)
    (found : ∀ f ∈ fields, (read.reverse.lookup f.key).join = members.lookup f.key) :
    ∃ parts, (fields.mapM fun f => Kind.fieldOf? f read) = some parts ∧ parts.flatten = members := by
  induction gives generalizing members with
  | nil => exact ⟨[], rfl, (List.map_eq_nil_iff.mp same).symm⟩
  | given f fields keys rest ih =>
    obtain ⟨fresh, distinct⟩ := List.nodup_cons.mp distinct
    obtain ⟨here, later⟩ := List.forall_mem_cons.mp found
    obtain ⟨⟨key, d⟩, members, rfl⟩ : ∃ member others, members = member :: others := by
      cases members with
      | nil => cases same
      | cons member others => exact ⟨member, others, rfl⟩
    obtain ⟨rfl, behind⟩ := List.cons.inj same
    have further : ∀ g ∈ fields, (read.reverse.lookup g.key).join = members.lookup g.key := by
      intro g member
      have other : (g.key == f.key) = false := beq_false_of_ne (key_apart f g fresh member)
      rw [later g member, List.lookup_cons, other]
    obtain ⟨parts, all, whole⟩ := ih members behind distinct further
    rw [List.lookup_cons_self] at here
    refine ⟨[(f.key, d)] :: parts, ?_, by rw [List.flatten_cons, whole]; rfl⟩
    rw [List.mapM_cons, Kind.fieldOf?, here, all]
    rfl
  | absent f fields keys may rest ih =>
    obtain ⟨fresh, distinct⟩ := List.nodup_cons.mp distinct
    obtain ⟨here, later⟩ := List.forall_mem_cons.mp found
    obtain ⟨parts, all, whole⟩ := ih members same distinct later
    have missing : members.lookup f.key = none :=
      lookup_missing members f.key (same ▸ key_missing f fresh rest)
    refine ⟨[] :: parts, ?_, whole⟩
    rw [List.mapM_cons, Kind.fieldOf?, here, missing, may, all]
    rfl

end ProtocolStubs.Payload
