import ProtocolStubs.Schema.Name
import ProtocolStubs.Schema.Shape

set_option autoImplicit false

namespace ProtocolStubs

def Definition.target? (d : Definition) (domain : String) : Option TypeRef :=
  d.shape.target?.map fun raw => TypeRef.parse raw domain

def TypeDef.targets (t : TypeDef) (domain : String) : List TypeRef :=
  match t.properties with
  | some properties => properties.filterMap fun p => p.definition.target? domain
  | none => (t.definition.target? domain).toList

namespace Crate

-- Qualified type names with the names they refer to; the first entry of a name counts.
abbrev TypeGraph := List (String × List String)

namespace TypeGraph

def ofDomain (d : Domain) : TypeGraph :=
  d.typeDefs.map fun t =>
    (qualified d.name t.id, (t.targets d.name).map TypeRef.qualifiedName)

-- Where one name is defined twice, the later definition counts.
def ofDomains (domains : List Domain) : TypeGraph := (domains.flatMap ofDomain).reverse

def targets? (g : TypeGraph) (name : String) : Option (List String) := g.lookup name

def without (g : TypeGraph) (name : String) : TypeGraph := g.filter fun entry => !(name == entry.1)

def size : TypeGraph → Nat
  | [] => 0
  | entry :: rest => entry.2.length + 1 + size rest

theorem size_without_le (g : TypeGraph) (name : String) : size (without g name) ≤ size g := by
  induction g with
  | nil => exact Nat.le_refl _
  | cons entry rest ih =>
    unfold without at ih ⊢
    rw [List.filter_cons]
    split <;> simp only [size] <;> omega

theorem size_without_lt (g : TypeGraph) (name : String) (next : List String)
    (found : targets? g name = some next) : size (without g name) + next.length < size g := by
  induction g with
  | nil => cases found
  | cons entry rest ih =>
    obtain ⟨key, targets⟩ := entry
    simp only [targets?, List.lookup_cons] at found ih
    unfold without at ih ⊢
    rw [List.filter_cons]
    cases same : name == key with
    | true =>
      rw [same] at found
      cases found
      have rest_le := size_without_le rest name
      unfold without at rest_le
      simp only [Bool.not_true, Bool.false_eq_true, if_false, size]
      omega
    | false =>
      rw [same] at found
      have smaller := ih found
      simp only [Bool.not_false, if_true, size]
      omega

-- Whether the references below the pending names lead to `goal`. A name is followed once.
def leadsTo (goal : String) : TypeGraph → List String → Bool
  | _, [] => false
  | g, name :: rest =>
    if name = goal then true
    else
      match _found : targets? g name with
      | none => leadsTo goal g rest
      | some next => leadsTo goal (without g name) (next ++ rest)
termination_by g pending => size g + pending.length
decreasing_by
  · simp
  · have smaller := size_without_lt g name next _found
    simp only [List.length_append, List.length_cons]
    omega

def closesCycle (g : TypeGraph) (owner : String) (target : TypeRef) : Bool :=
  leadsTo owner g [target.qualifiedName]

end TypeGraph

end Crate

end ProtocolStubs
