set_option autoImplicit false

namespace ProtocolStubs.Text

def splitFrom (separator : Char) (held : List Char) : List Char → List String
  | [] => [String.ofList held.reverse]
  | c :: rest =>
    if c = separator then String.ofList held.reverse :: splitFrom separator [] rest
    else splitFrom separator (c :: held) rest

def split (separator : Char) (s : String) : List String := splitFrom separator [] s.toList

theorem splitFrom_ne_nil (separator : Char) (held rest : List Char) :
    splitFrom separator held rest ≠ [] := by
  induction rest generalizing held with
  | nil => simp [splitFrom]
  | cons c rest ih =>
    simp only [splitFrom]
    split
    · simp
    · exact ih _

theorem splitFrom_free (separator : Char) (held rest : List Char) (free : separator ∉ held) :
    ∀ part ∈ splitFrom separator held rest, separator ∉ part.toList := by
  induction rest generalizing held with
  | nil =>
    intro part member
    cases List.mem_singleton.1 member
    simpa using free
  | cons c rest ih =>
    intro part member
    simp only [splitFrom] at member
    split at member
    · rcases List.mem_cons.1 member with rfl | later
      · simpa using free
      · exact ih [] List.not_mem_nil part later
    · rename_i other
      refine ih (c :: held) ?_ part member
      intro inside
      rcases List.mem_cons.1 inside with same | old
      · exact other same.symm
      · exact free old

theorem not_mem_of_mem_split (separator : Char) (s part : String) (member : part ∈ split separator s) :
    separator ∉ part.toList :=
  splitFrom_free separator [] s.toList List.not_mem_nil part member

end ProtocolStubs.Text
