import ProtocolStubs.Text.Quoted

set_option autoImplicit false

namespace ProtocolStubs

def cutAtDot : List Char → Option (List Char × List Char)
  | [] => none
  | c :: rest =>
    if c = '.' then some ([], rest)
    else (cutAtDot rest).map fun cut => (c :: cut.1, cut.2)

def qualified (domain member : String) : String := domain ++ "." ++ member

-- `Domain.member` names a command or an event and is cut at its only dot; a reference to a type may
-- leave its own domain out and is cut at its first dot.
structure QualifiedName where
  domain : String
  member : String
deriving DecidableEq, Repr

inductive NameError where
  | missingSeparator (raw : String)
  | tooManySeparators (raw : String)
  | emptySegment (raw : String)
deriving DecidableEq, Repr

def NameError.message : NameError → String
  | .missingSeparator raw => "qualified name " ++ Text.quote raw ++ " has no '.' separator"
  | .tooManySeparators raw =>
    "qualified name " ++ Text.quote raw ++ " has more than one '.' separator"
  | .emptySegment raw =>
    "qualified name " ++ Text.quote raw ++ " has an empty domain or member"

namespace QualifiedName

def toText (name : QualifiedName) : String := qualified name.domain name.member

def parse (raw : String) : Except NameError QualifiedName :=
  match cutAtDot raw.toList with
  | none => .error (.missingSeparator raw)
  | some (domain, member) =>
    if '.' ∈ member then .error (.tooManySeparators raw)
    else if domain = [] ∨ member = [] then .error (.emptySegment raw)
    else .ok ⟨String.ofList domain, String.ofList member⟩

end QualifiedName

structure TypeRef where
  domain : String
  name : String
deriving DecidableEq, Repr

namespace TypeRef

-- Without a dot the type belongs to the current domain.
def parse (raw current : String) : TypeRef :=
  match cutAtDot raw.toList with
  | some (domain, name) => ⟨String.ofList domain, String.ofList name⟩
  | none => ⟨current, raw⟩

def isLocal (ref : TypeRef) (current : String) : Bool := ref.domain == current

def qualifiedName (ref : TypeRef) : String := qualified ref.domain ref.name

end TypeRef

theorem cutAtDot_eq_some {cs before after : List Char} (cut : cutAtDot cs = some (before, after)) :
    cs = before ++ '.' :: after ∧ '.' ∉ before := by
  induction cs generalizing before with
  | nil => cases cut
  | cons c rest ih =>
    simp only [cutAtDot] at cut
    split at cut
    · rename_i dot
      cases cut
      simp [dot]
    · rename_i other
      obtain ⟨⟨head, tail⟩, found, same⟩ := Option.map_eq_some_iff.1 cut
      cases same
      obtain ⟨whole, free⟩ := ih found
      refine ⟨by simp [whole], ?_⟩
      intro inside
      rcases List.mem_cons.1 inside with first | later
      · exact other first.symm
      · exact free later

theorem cutAtDot_eq_none_iff (cs : List Char) : cutAtDot cs = none ↔ '.' ∉ cs := by
  induction cs with
  | nil => simp [cutAtDot]
  | cons c rest ih =>
    by_cases dot : c = '.'
    · simp [cutAtDot, dot]
    · simp [cutAtDot, dot, ih, Ne.symm dot]

theorem cutAtDot_append (before after : List Char) (free : '.' ∉ before) :
    cutAtDot (before ++ '.' :: after) = some (before, after) := by
  induction before with
  | nil => simp [cutAtDot]
  | cons c rest ih =>
    have other : c ≠ '.' := fun same => free (same ▸ List.mem_cons_self)
    simp [cutAtDot, other, ih fun inside => free (List.mem_cons_of_mem _ inside)]

end ProtocolStubs
