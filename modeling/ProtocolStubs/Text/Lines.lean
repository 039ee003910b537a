set_option autoImplicit false

namespace ProtocolStubs.Text

def isBlank (c : Char) : Bool :=
  let code := c.toNat
  (9 ≤ code && code ≤ 13) || code == 32 || code == 133 || code == 160 || code == 5760 ||
    (8192 ≤ code && code ≤ 8202) || code == 8232 || code == 8233 || code == 8239 ||
    code == 8287 || code == 12288

def dropBlanks (cs : List Char) : List Char := cs.dropWhile isBlank

def dropBlanksEnd (cs : List Char) : List Char := (cs.reverse.dropWhile isBlank).reverse

def trimStart (s : String) : String := String.ofList (dropBlanks s.toList)

def trimEnd (s : String) : String := String.ofList (dropBlanksEnd s.toList)

def trim (s : String) : String := String.ofList (dropBlanks (dropBlanksEnd s.toList))

def isAllBlank (s : String) : Bool := s.toList.all isBlank

def startsWith (s : String) (c : Char) : Bool := s.toList.head? == some c

def endsWith (s : String) (c : Char) : Bool := s.toList.getLast? == some c

def hasLineFeed (s : String) : Bool := s.toList.contains '\n'

-- `held` is a line, last character first, whose line feed has just been met.
def dropCarriage : List Char → List Char
  | '\r' :: held => held
  | held => held

-- The lines of a text of which `held` has been read already, last character first. A line ends at a
-- line feed, and a carriage return just before that line feed belongs to the line's end; what follows
-- the last line feed is a line only if it is not empty.
def linesFrom (held : List Char) : List Char → List (List Char)
  | [] => if held.isEmpty then [] else [held.reverse]
  | c :: rest =>
    if c = '\n' then (dropCarriage held).reverse :: linesFrom [] rest
    else linesFrom (c :: held) rest

def lines (s : String) : List String := (linesFrom [] s.toList).map String.ofList

-- The lines of a text that is written on: what follows the last line feed is the start of a further
-- line, even if it is empty.
def openLines (s : String) : List String :=
  if s = "" ∨ endsWith s '\n' then lines s ++ [""] else lines s

def joinWith (separator : String) (parts : List String) : String :=
  String.ofList (List.intercalate separator.toList (parts.map String.toList))

theorem dropCarriage_subset (held : List Char) : ∀ c ∈ dropCarriage held, c ∈ held := by
  intro c member
  unfold dropCarriage at member
  split at member
  · exact List.mem_cons_of_mem _ member
  · exact member

theorem linesFrom_free (held rest : List Char) (free : '\n' ∉ held) :
    ∀ line ∈ linesFrom held rest, '\n' ∉ line := by
  induction rest generalizing held with
  | nil =>
    intro line member
    simp only [linesFrom] at member
    split at member
    · cases member
    · cases List.mem_singleton.1 member
      simpa using free
  | cons c rest ih =>
    intro line member
    simp only [linesFrom] at member
    split at member
    · rcases List.mem_cons.1 member with rfl | later
      · intro inside
        exact free (dropCarriage_subset held _ (List.mem_reverse.1 inside))
      · exact ih [] (List.not_mem_nil) line later
    · rename_i other
      refine ih (c :: held) ?_ line member
      intro inside
      rcases List.mem_cons.1 inside with same | old
      · exact other same.symm
      · exact free old

theorem hasLineFeed_of_mem_lines (s line : String) (member : line ∈ lines s) :
    hasLineFeed line = false := by
  obtain ⟨cs, inside, rfl⟩ := List.mem_map.1 member
  have free := linesFrom_free [] s.toList (List.not_mem_nil) cs inside
  simpa [hasLineFeed] using free

end ProtocolStubs.Text
