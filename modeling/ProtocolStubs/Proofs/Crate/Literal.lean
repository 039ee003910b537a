import ProtocolStubs.Json.Token
import ProtocolStubs.Proofs.Json.TextLiteral
import ProtocolStubs.Proofs.Text.Ink
import ProtocolStubs.Text.Quoted

set_option autoImplicit false

namespace ProtocolStubs.Crate

open Text (OneLine)

-- What a backslash makes of one character. Escapes of bytes and of line ends are not read here.
def unescaped? (c : Char) : Option Char :=
  if c = 'n' then some '\n'
  else if c = 'r' then some '\r'
  else if c = 't' then some '\t'
  else if c = '0' then some '\x00'
  else if c = '\\' ∨ c = '"' ∨ c = '\x27' then some c
  else none

def codeOf? (digits : List Char) : Option Nat :=
  digits.foldlM (fun code digit => (Json.hexDigit? digit).map (code * 16 + ·)) 0

def codePoint? (digits : List Char) : Option Char :=
  match codeOf? digits with
  | none => none
  | some code =>
    if 0 < digits.length ∧ digits.length ≤ 6 ∧ code.isValidChar then some (Char.ofNat code) else none

-- Where the reader stands: in the text, behind a backslash, before an opening brace or behind the digits
-- that followed it.
inductive Stage where
  | text
  | escape
  | brace
  | digits (held : List Char)
deriving DecidableEq

def textFrom? (stage : Stage) : List Char → Option (List Char)
  | [] => none
  | c :: rest =>
    match stage with
    | .text =>
      if c = '\\' then textFrom? .escape rest
      else if c = '"' then if rest.isEmpty then some [] else none
      else if c = '\r' then none
      else (textFrom? .text rest).map (c :: ·)
    | .escape =>
      if c = 'u' then textFrom? .brace rest
      else (unescaped? c).bind fun value => (textFrom? .text rest).map (value :: ·)
    | .brace => if c = '\x7b' then textFrom? (.digits []) rest else none
    | .digits held =>
      if c = '\x7d' then
        (codePoint? held).bind fun value => (textFrom? .text rest).map (value :: ·)
      else textFrom? (.digits (held ++ [c])) rest

def value? (source : String) : Option String :=
  match source.toList with
  | '"' :: rest => (textFrom? .text rest).map String.ofList
  | _ => none

theorem hex_digits_all (holds : Char → Prop) (each : ∀ n < 16, holds (Nat.digitChar n)) (n : Nat) :
    ∀ c ∈ Nat.toDigits 16 n, holds c := by
  induction n using Nat.strongRecOn with
  | ind n ih =>
    rw [Nat.toDigits_eq_if (by decide)]
    split
    · rename_i small
      exact List.forall_mem_singleton.mpr (each n small)
    · rename_i large
      refine List.forall_mem_append.mpr ⟨ih (n / 16) (by omega), ?_⟩
      exact List.forall_mem_singleton.mpr (each (n % 16) (by omega))

theorem hex_digits_plain (n : Nat) : ∀ c ∈ Nat.toDigits 16 n, c ≠ '\x7d' ∧ c ≠ '\n' :=
  hex_digits_all _ (by decide) n

theorem code_of_digits (n : Nat) : codeOf? (Nat.toDigits 16 n) = some n := by
  induction n using Nat.strongRecOn with
  | ind n ih =>
    rw [Nat.toDigits_eq_if (by decide)]
    split
    · rename_i small
      simp [codeOf?, Json.hex_digit_read n small]
    · rename_i large
      have front := ih (n / 16) (by omega)
      rw [codeOf?] at front
      rw [codeOf?, List.foldlM_append, front]
      simp only [Option.bind_eq_bind, Option.bind_some, List.foldlM_cons, List.foldlM_nil,
        Json.hex_digit_read (n % 16) (by omega), Option.map_some, Option.pure_def, Option.some.injEq]
      omega

theorem code_point_digits (c : Char) : codePoint? (Nat.toDigits 16 c.toNat) = some c := by
  have valid : c.toNat.isValidChar := c.valid
  have small : c.toNat < 16 ^ 6 := by
    rcases valid with low | ⟨_, high⟩ <;> omega
  have given : 0 < (Nat.toDigits 16 c.toNat).length := Nat.length_toDigits_pos
  have short := (Nat.length_toDigits_le_iff (by decide) (by decide)).mpr small
  rw [codePoint?, code_of_digits]
  dsimp only
  rw [if_pos ⟨given, short, valid⟩, Char.ofNat_toNat]

theorem digits_read (digits held rest : List Char) (plain : ∀ c ∈ digits, c ≠ '\x7d') :
    textFrom? (.digits held) (digits ++ '\x7d' :: rest) =
      (codePoint? (held ++ digits)).bind fun value => (textFrom? .text rest).map (value :: ·) := by
  induction digits generalizing held with
  | nil => rw [List.nil_append, textFrom?, List.append_nil]; rfl
  | cons c others ih =>
    obtain ⟨here, later⟩ := List.forall_mem_cons.mp plain
    rw [List.cons_append, textFrom?, if_neg here, ih (held ++ [c]) later, List.append_assoc,
      List.singleton_append]

theorem code_point_read (c : Char) (rest : List Char) :
    textFrom? .text (Text.codePointEscape c ++ rest) = (textFrom? .text rest).map (c :: ·) := by
  have braces : Text.codePointEscape c ++ rest =
      '\\' :: 'u' :: '\x7b' :: (Nat.toDigits 16 c.toNat ++ '\x7d' :: rest) := by
    simp [Text.codePointEscape]
  rw [braces]
  change textFrom? (.digits []) (Nat.toDigits 16 c.toNat ++ '\x7d' :: rest) = _
  rw [digits_read _ [] rest fun d member => (hex_digits_plain _ d member).1, List.nil_append,
    code_point_digits]
  rfl

def shortEscapes : List (Char × List Char) :=
  [('"', ['\\', '"']), ('\\', ['\\', '\\']), ('\n', ['\\', 'n']), ('\r', ['\\', 'r']), ('\t', ['\\', 't']),
   ('\x00', ['\\', '0'])]

theorem quoted_char_forms (fits : Char → List Char → Prop) (c : Char)
    (short : ∀ row ∈ shortEscapes, fits row.1 row.2) (escape : fits c (Text.codePointEscape c))
    (plain : (∀ row ∈ shortEscapes, c ≠ row.1) → fits c [c]) : fits c (Text.quotedChar c) := by
  by_cases listed : ∃ row ∈ shortEscapes, c = row.1
  · obtain ⟨row, member, rfl⟩ := listed
    have text : ∀ row ∈ shortEscapes, Text.quotedChar row.1 = row.2 := by decide
    rw [text row member]
    exact short row member
  · have other : ∀ row ∈ shortEscapes, c ≠ row.1 := fun row member same => listed ⟨row, member, same⟩
    have spelled := plain other
    simp only [shortEscapes, List.forall_mem_cons, List.not_mem_nil, false_implies, implies_true,
      and_true] at other
    obtain ⟨quote, slash, feed, back, tab, zero⟩ := other
    rw [Text.quotedChar, if_neg quote, if_neg slash, if_neg feed, if_neg back, if_neg tab, if_neg zero]
    split
    · exact escape
    · split
      · exact spelled
      · exact escape

theorem quoted_char_read (c : Char) (rest : List Char) :
    textFrom? .text (Text.quotedChar c ++ rest) = (textFrom? .text rest).map (c :: ·) := by
  refine quoted_char_forms (fun c text => textFrom? .text (text ++ rest) = (textFrom? .text rest).map (c :: ·)) c
    ?_ (code_point_read c rest) fun other => ?_
  · simp only [shortEscapes, List.forall_mem_cons]
    exact ⟨rfl, rfl, rfl, rfl, rfl, rfl, nofun⟩
  · have quote := other ('"', _) List.mem_cons_self
    have slash := other ('\\', _) (List.mem_cons_of_mem _ List.mem_cons_self)
    have back : c ≠ '\r' := other ('\r', ['\\', 'r']) (by decide)
    rw [List.singleton_append, textFrom?, if_neg slash, if_neg quote, if_neg back]

theorem text_from_quoted (text : List Char) :
    textFrom? .text (text.flatMap Text.quotedChar ++ ['"']) = some text := by
  induction text with
  | nil => rfl
  | cons c rest ih => rw [List.flatMap_cons, List.append_assoc, quoted_char_read, ih]; rfl

theorem quote_value (s : String) : value? (Text.quote s) = some s := by
  rw [value?, Text.quote, String.toList_ofList]
  change (textFrom? .text (s.toList.flatMap Text.quotedChar ++ ['"'])).map String.ofList = some s
  rw [text_from_quoted, Option.map_some, String.ofList_toList]

theorem quoted_char_line (c : Char) : '\n' ∉ Text.quotedChar c := by
  refine quoted_char_forms (fun _ text => '\n' ∉ text) c (by decide) ?_ fun other => ?_
  · simp only [Text.codePointEscape, List.mem_cons, List.mem_append, not_or]
    refine ⟨by decide, by decide, by decide, ?_, by simp⟩
    exact fun feed => (hex_digits_plain _ _ feed).2 rfl
  · have feed : c ≠ '\n' := other ('\n', ['\\', 'n']) (by decide)
    exact fun member => feed (List.mem_singleton.mp member).symm

theorem quote_line (s : String) : OneLine (Text.quote s) := by
  simp [OneLine, Text.quote, quoted_char_line]

end ProtocolStubs.Crate
