import ProtocolStubs.Schema.Name
import ProtocolStubs.Schema.Shape

set_option autoImplicit false

namespace ProtocolStubs

def insertName (name : String) : List String → List String
  | [] => [name]
  | head :: rest =>
    if name < head then name :: head :: rest
    else if name = head then head :: rest
    else head :: insertName name rest

def sortedNames (names : List String) : List String := names.foldr insertName []

theorem mem_insertName (name x : String) (names : List String) :
    x ∈ insertName name names ↔ x = name ∨ x ∈ names := by
  induction names with
  | nil => simp [insertName]
  | cons head rest ih =>
    simp only [insertName]
    split
    · simp
    · split
      · rename_i same
        simp [same]
      · simp only [List.mem_cons, ih]
        constructor
        · rintro (h | h | h) <;> simp [h]
        · rintro (h | h | h) <;> simp [h]

theorem mem_sortedNames (x : String) (names : List String) : x ∈ sortedNames names ↔ x ∈ names := by
  induction names with
  | nil => simp [sortedNames]
  | cons head rest ih =>
    change x ∈ insertName head (sortedNames rest) ↔ x ∈ head :: rest
    rw [mem_insertName, ih, List.mem_cons]

-- References that stand under the keys of a definition, whatever its shape.
def Definition.references (d : Definition) : List String :=
  d.reference.toList ++ d.itemReference.toList

namespace Domain

def definitions (d : Domain) : List Definition :=
  d.typeDefs.map TypeDef.definition ++ d.properties.map Property.definition

def referredDomains (d : Domain) : List String :=
  d.definitions.flatMap fun definition =>
    definition.references.map fun raw => (TypeRef.parse raw d.name).domain

def dependencyNames (d : Domain) : List String :=
  sortedNames ((d.dependencies.getD [] ++ d.referredDomains).filter fun name => name ≠ d.name)

end Domain

end ProtocolStubs
