import ProtocolStubs.Proofs.Text.Ink
import ProtocolStubs.Script.Literal

set_option autoImplicit false

namespace ProtocolStubs.Script

open Text (OneLine)

-- What a backslash makes of one character. Escapes that are longer than that are not read here.
def unescaped? (c : Char) : Option Char :=
  if c = 'n' then some '\n'
  else if c = 'r' then some '\r'
  else if c = 't' then some '\t'
  else if c = 'b' then some '\x08'
  else if c = 'v' then some '\x0b'
  else if c = 'f' then some '\x0c'
  else if c.isDigit ∨ c ∈ ['x', 'u', '\n', '\r', '\u2028', '\u2029'] then none
  else some c

def textFrom? (escape : Bool) : List Char → Option (List Char)
  | [] => none
  | c :: rest =>
    if escape then (unescaped? c).bind fun value => (textFrom? false rest).map (value :: ·)
    else if c = '\\' then textFrom? true rest
    else if c = '\x27' then if rest.isEmpty then some [] else none
    else if c = '\n' ∨ c = '\r' then none
    else (textFrom? false rest).map (c :: ·)

def value? (source : String) : Option String :=
  match source.toList with
  | '\x27' :: rest => (textFrom? false rest).map String.ofList
  | _ => none

theorem text_from_literal (text : List Char) (feeds : '\n' ∉ text) (returns : '\r' ∉ text) :
    textFrom? false (text.flatMap literalChar ++ ['\x27']) = some text := by
  induction text with
  | nil => rfl
  | cons c rest ih =>
    rw [List.mem_cons, not_or] at feeds returns
    have tail := ih feeds.2 returns.2
    rw [List.flatMap_cons, List.append_assoc, literalChar]
    split
    · rename_i same
      rw [same]
      exact congrArg (Option.map ('\\' :: ·)) tail
    · split
      · rename_i same
        rw [same]
        exact congrArg (Option.map ('\x27' :: ·)) tail
      · rename_i slash quote
        rw [List.singleton_append, textFrom?, if_neg Bool.false_ne_true, if_neg slash, if_neg quote,
          if_neg (not_or.mpr ⟨feeds.1 ∘ Eq.symm, returns.1 ∘ Eq.symm⟩), tail]
        rfl

theorem literal_value (s : String) (feeds : OneLine s) (returns : '\r' ∉ s.toList) :
    value? (literal s) = some s := by
  rw [value?, literal, String.toList_ofList]
  change (textFrom? false (s.toList.flatMap literalChar ++ ['\x27'])).map String.ofList = some s
  rw [text_from_literal s.toList feeds returns, Option.map_some, String.ofList_toList]

theorem literal_line (s : String) (line : OneLine s) : OneLine (literal s) := by
  have own : ∀ c ∈ s.toList, '\n' ∉ literalChar c := by
    intro c member
    have other : '\n' ≠ c := fun same => line (same ▸ member)
    rw [literalChar]
    split
    · decide
    · split
      · decide
      · simpa using other
  simpa [OneLine, literal] using own

end ProtocolStubs.Script
