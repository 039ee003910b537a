import ProtocolStubs.Json.Literal

set_option autoImplicit false

namespace ProtocolStubs.Json

-- Blank space is the space, the tab and the two line ends, and a byte order mark may open the text. A
-- text may hold control characters as they are, and a backslash before an ASCII character without a
-- meaning of its own stands for that character; a surrogate is accepted only as half of a pair.
inductive Token where
  | openList
  | closeList
  | openObject
  | closeObject
  | comma
  | colon
  | null
  | flag (b : Bool)
  | number (n : Literal)
  | text (s : String)
deriving DecidableEq, Repr

def Token.isScalar : Token → Bool
  | .null | .flag _ | .number _ | .text _ => true
  | _ => false

def isSpace (c : Char) : Bool := c == ' ' || c == '\t' || c == '\n' || c == '\r'

def hexDigit? (c : Char) : Option Nat :=
  if c.isDigit then some (c.toNat - '0'.toNat)
  else if 'a' ≤ c ∧ c ≤ 'f' then some (c.toNat - 'a'.toNat + 10)
  else if 'A' ≤ c ∧ c ≤ 'F' then some (c.toNat - 'A'.toNat + 10)
  else none

def codeUnit? (a b c d : Char) : Option Nat := do
  let high ← if a = '+' then some 0 else hexDigit? a
  return ((high * 16 + (← hexDigit? b)) * 16 + (← hexDigit? c)) * 16 + (← hexDigit? d)

def escaped (c : Char) : Char :=
  if c = 'n' then '\n'
  else if c = 'r' then '\r'
  else if c = 't' then '\t'
  else if c = 'b' then '\x08'
  else if c = 'f' then '\x0c'
  else c

def paired? (high low : Nat) : Option Char :=
  if 0xDC00 ≤ low ∧ low ≤ 0xDFFF then
    some (Char.ofNat (0x10000 + (high - 0xD800) * 0x400 + (low - 0xDC00)))
  else none

def textAt? (cs : List Char) : Option (List Char × ShorterRest cs) :=
  match cs with
  | [] => none
  | '"' :: rest => some ([], ⟨rest, Nat.lt_succ_self _⟩)
  | '\\' :: 'u' :: a :: b :: c :: d :: rest =>
    match codeUnit? a b c d with
    | none => none
    | some unit =>
      if 0xD800 ≤ unit ∧ unit ≤ 0xDBFF then
        match rest with
        | '\\' :: 'u' :: a' :: b' :: c' :: d' :: rest' =>
          match (codeUnit? a' b' c' d').bind (paired? unit), textAt? rest' with
          | some whole, some (read, ⟨after, short⟩) =>
            some (whole :: read, ⟨after, by simp only [List.length_cons]; omega⟩)
          | _, _ => none
        | _ => none
      else if 0xDC00 ≤ unit ∧ unit ≤ 0xDFFF then none
      else
        match textAt? rest with
        | some (read, ⟨after, short⟩) =>
          some (Char.ofNat unit :: read, ⟨after, by simp only [List.length_cons]; omega⟩)
        | none => none
  | '\\' :: c :: rest =>
    if c = 'u' ∨ 128 ≤ c.toNat then none
    else
      match textAt? rest with
      | some (read, ⟨after, short⟩) =>
        some (escaped c :: read, ⟨after, by simp only [List.length_cons]; omega⟩)
      | none => none
  | c :: rest =>
    if c = '\\' then none
    else
      match textAt? rest with
      | some (read, ⟨after, short⟩) =>
        some (c :: read, ⟨after, by simp only [List.length_cons]; omega⟩)
      | none => none

-- The token that starts with `c`, so many blanks behind the one before.
def tokenAt? (blanks : Nat) (c : Char) (rest : List Char) : Option (Token × Rest rest) :=
  let single (t : Token) : Option (Token × Rest rest) := some (t, Rest.all rest)
  let word (letters : List Char) (t : Token) : Option (Token × Rest rest) :=
    if letters.isPrefixOf rest then
      some (t, ⟨rest.drop letters.length, by simp⟩)
    else none
  if c = '[' then single .openList
  else if c = ']' then single .closeList
  else if c = '\x7b' then single .openObject
  else if c = '\x7d' then single .closeObject
  else if c = ',' then single .comma
  else if c = ':' then single .colon
  else if c = '"' then
    match textAt? rest with
    | some (read, ⟨after, short⟩) =>
      some (.text (String.ofList read), ⟨after, Nat.le_of_lt short⟩)
    | none => none
  else if c = 'n' then word ['u', 'l', 'l'] .null
  else if c = 't' then word ['r', 'u', 'e'] (.flag true)
  else if c = 'f' then word ['a', 'l', 's', 'e'] (.flag false)
  else
    match literalAt? blanks (c :: rest) with
    | some (literal, ⟨after, short⟩) => some (.number literal, ⟨after, Nat.le_of_lt_succ short⟩)
    | none => none

def tokensFrom? (blanks : Nat) (cs : List Char) : Option (List Token) :=
  match cs with
  | [] => some []
  | c :: rest =>
    if isSpace c then tokensFrom? (blanks + 1) rest
    else
      match tokenAt? blanks c rest with
      | some (token, ⟨after, _⟩) => (token :: ·) <$> tokensFrom? 0 after
      | none => none
termination_by cs.length
decreasing_by
  all_goals simp only [List.length_cons]; omega

def dropByteOrderMark : List Char → List Char
  | '\uFEFF' :: rest => rest
  | cs => cs

def tokens? (s : String) : Option (List Token) := tokensFrom? 0 (dropByteOrderMark s.toList)

end ProtocolStubs.Json
