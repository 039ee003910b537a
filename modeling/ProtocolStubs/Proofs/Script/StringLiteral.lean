import ProtocolStubs.Json.Token
import ProtocolStubs.Proofs.Script.Literal
import ProtocolStubs.Script.TypeExpr

set_option autoImplicit false

namespace ProtocolStubs.Script

def units (code : Nat) : List Nat :=
  if code < 0x10000 then [code]
  else [0xD800 + (code - 0x10000) / 0x400, 0xDC00 + (code - 0x10000) % 0x400]

def encoded (text : String) : List Nat := text.toList.flatMap fun c => units c.toNat

-- Where the reader stands: in the text, with the escaped zero or line end just before, if there is one; behind
-- a backslash; behind the `u` of an escape; before so many hexadecimal digits; or among digits in braces.
inductive Place where
  | text (before : Option Char)
  | escape
  | point
  | digits (wanted code : Nat)
  | braces (code : Option Nat)
deriving DecidableEq

def lineEnds : List Char := ['\n', '\r', '\u2028', '\u2029']

def highestCode : Nat := 0x10FFFF

def behind (front : List Nat) (read : Option (List Nat × List Char)) : Option (List Nat × List Char) :=
  read.map fun found => (front ++ found.1, found.2)

-- An escaped zero stands before no digit, and an escaped line end, of one character or two, for nothing.
def literalFrom? : Place → List Char → Option (List Nat × List Char)
  | _, [] => none
  | .text before, c :: rest =>
    if before = some '\r' ∧ c = '\n' then literalFrom? (.text none) rest
    else if before = some '0' ∧ c.isDigit then none
    else if c = '\x27' then some ([], rest)
    else if c = '\\' then literalFrom? .escape rest
    else if c = '\n' ∨ c = '\r' then none
    else behind (units c.toNat) (literalFrom? (.text none) rest)
  | .escape, c :: rest =>
    if c = 'x' then literalFrom? (.digits 2 0) rest
    else if c = 'u' then literalFrom? .point rest
    else if c = '0' then behind [0] (literalFrom? (.text (some '0')) rest)
    else if c ∈ lineEnds then literalFrom? (.text (some c)) rest
    else (unescaped? c).bind fun value => behind (units value.toNat) (literalFrom? (.text none) rest)
  | .point, c :: rest =>
    if c = '\x7b' then literalFrom? (.braces none) rest
    else (Json.hexDigit? c).bind fun digit => literalFrom? (.digits 3 digit) rest
  | .digits wanted code, c :: rest =>
    (Json.hexDigit? c).bind fun digit =>
      if wanted = 1 then behind [code * 16 + digit] (literalFrom? (.text none) rest)
      else literalFrom? (.digits (wanted - 1) (code * 16 + digit)) rest
  | .braces code, c :: rest =>
    if c = '\x7d' then code.bind fun code => behind (units code) (literalFrom? (.text none) rest)
    else (Json.hexDigit? c).bind fun digit =>
      if code.getD 0 * 16 + digit ≤ highestCode then
        literalFrom? (.braces (some (code.getD 0 * 16 + digit))) rest
      else none

def literal? : List Char → Option (List Nat × List Char)
  | '\x27' :: rest => literalFrom? (.text none) rest
  | _ => none

example : literal? "'\\x41\\u{1F600}\\uD83D\\\r\n\\0' | 'b'".toList =
    some ([0x41, 0xD83D, 0xDE00, 0xD83D, 0], " | 'b'".toList) := by decide

-- Surrogates stand apart from all characters, so the first unit tells how many belong together.
theorem units_first (c d : Char) (s t : List Nat) (same : units c.toNat ++ s = units d.toNat ++ t) :
    c = d ∧ s = t := by
  have left : c.toNat < 0xD800 ∨ 0xDFFF < c.toNat ∧ c.toNat < 0x110000 := c.valid
  have right : d.toNat < 0xD800 ∨ 0xDFFF < d.toNat ∧ d.toNat < 0x110000 := d.valid
  rw [units, units] at same
  rw [← Char.toNat_inj]
  split at same <;> split at same <;>
    simp only [List.cons_append, List.nil_append, List.cons.injEq] at same
  · exact same
  · omega
  · omega
  · exact ⟨by omega, same.2.2⟩

theorem units_injective (s t : List Char)
    (same : (s.flatMap fun c => units c.toNat) = t.flatMap fun c => units c.toNat) : s = t := by
  have given : ∀ code, units code ≠ [] := by
    intro code
    rw [units]
    split <;> exact List.cons_ne_nil _ _
  induction s generalizing t with
  | nil =>
    cases t with
    | nil => rfl
    | cons d t => exact absurd same.symm (List.append_ne_nil_of_left_ne_nil (given d.toNat) _)
  | cons c s ih =>
    cases t with
    | nil => exact absurd same (List.append_ne_nil_of_left_ne_nil (given c.toNat) _)
    | cons d t =>
      obtain ⟨first, later⟩ := units_first c d _ _ same
      rw [first, ih t later]

theorem encoded_injective (v w : String) (same : encoded v = encoded w) : v = w :=
  String.toList_injective (units_injective _ _ same)

def Unbroken (text : List Char) : Prop := '\n' ∉ text ∧ '\r' ∉ text

instance (text : List Char) : Decidable (Unbroken text) :=
  inferInstanceAs (Decidable ('\n' ∉ text ∧ '\r' ∉ text))

theorem unbroken_cons (c : Char) (text : List Char) :
    Unbroken (c :: text) ↔ ¬(c = '\n' ∨ c = '\r') ∧ Unbroken text := by
  simp only [Unbroken, List.mem_cons, not_or, eq_comm]
  exact and_and_and_comm

def replaced (c : Char) (new text : List Char) : List Char := text.flatMap fun d => if d = c then new else [d]

-- Backslashes may be escaped first and quotes after them, since an escaped backslash has no quote in it.
theorem literal_replaced (v : String) : (literal v).toList =
    '\x27' :: (replaced '\x27' ['\\', '\x27'] (replaced '\\' ['\\', '\\'] v.toList) ++ ['\x27']) := by
  have each : ∀ c, replaced '\x27' ['\\', '\x27'] (if c = '\\' then ['\\', '\\'] else [c]) = literalChar c := by
    intro c
    rw [literalChar]
    split
    · rfl
    · exact List.flatMap_singleton _ c
  have fused : replaced '\x27' ['\\', '\x27'] (replaced '\\' ['\\', '\\'] v.toList) =
      v.toList.flatMap literalChar :=
    List.flatMap_assoc.trans (List.flatMap_congr fun c _ => each c)
  rw [fused, literal, String.toList_ofList]

theorem literal_char_read (c : Char) (rest : List Char) :
    literalFrom? (.text none) (literalChar c ++ rest) =
      if c = '\n' ∨ c = '\r' then none
      else behind (units c.toNat) (literalFrom? (.text none) rest) := by
  rw [literalChar]
  split
  · rename_i slash
    subst slash
    rfl
  · split
    · rename_i quote
      subst quote
      rfl
    · rename_i slash quote
      rw [List.singleton_append, literalFrom?, if_neg (by simp), if_neg (by simp), if_neg quote, if_neg slash]

theorem literal_text_read (text rest : List Char) :
    literalFrom? (.text none) (text.flatMap literalChar ++ '\x27' :: rest) =
      if Unbroken text then some (text.flatMap fun c => units c.toNat, rest) else none := by
  induction text with
  | nil => rfl
  | cons c text ih =>
    rw [List.flatMap_cons, List.append_assoc, literal_char_read, ih]
    by_cases ends : c = '\n' ∨ c = '\r'
    · rw [if_pos ends, if_neg fun whole => ((unbroken_cons c text).mp whole).1 ends]
    · by_cases whole : Unbroken text
      · rw [if_neg ends, if_pos whole, if_pos ((unbroken_cons c text).mpr ⟨ends, whole⟩)]
        rfl
      · rw [if_neg ends, if_neg whole, if_neg fun both => whole ((unbroken_cons c text).mp both).2]
        rfl

theorem literal_read (v : String) (rest : List Char) :
    literal? ((literal v).toList ++ rest) =
      if Unbroken v.toList then some (encoded v, rest) else none := by
  have spelled : (literal v).toList ++ rest =
      '\x27' :: (v.toList.flatMap literalChar ++ '\x27' :: rest) := by
    simp [literal]
  rw [spelled]
  exact literal_text_read v.toList rest

theorem literal_reads (v : String) (rest left : List Char) (value : List Nat) :
    literal? ((literal v).toList ++ rest) = some (value, left) ↔
      Unbroken v.toList ∧ value = encoded v ∧ left = rest := by
  rw [literal_read]
  split
  · rename_i whole
    simp [whole, eq_comm]
  · rename_i broken
    simp [broken]

-- The values of a choice between literals, with a bar between two of them.
inductive Choice : List Char → List (List Nat) → Prop where
  | last {text : List Char} {value : List Nat} (read : literal? text = some (value, [])) :
    Choice text [value]
  | more {text next : List Char} {value : List Nat} {values : List (List Nat)}
    (read : literal? text = some (value, " | ".toList ++ next)) (later : Choice next values) :
    Choice text (value :: values)

theorem choice_cases (text : List Char) (values : List (List Nat)) (choice : Choice text values) :
    (∃ value, literal? text = some (value, []) ∧ values = [value]) ∨
    ∃ value next later, literal? text = some (value, " | ".toList ++ next) ∧ Choice next later ∧
      values = value :: later := by
  cases choice with
  | last read => exact .inl ⟨_, read, rfl⟩
  | more read later => exact .inr ⟨_, _, _, read, later, rfl⟩

theorem choice_read (v : String) (others : List String) (values : List (List Nat)) :
    Choice (Text.joinWith " | " ((v :: others).map literal)).toList values ↔
      (∀ w ∈ v :: others, Unbroken w.toList) ∧ values = (v :: others).map encoded := by
  induction others generalizing v values with
  | nil =>
    have single : (Text.joinWith " | " ([v].map literal)).toList = (literal v).toList ++ [] := by
      simp [Text.joinWith]
    have own := literal_reads v []
    rw [single, List.forall_mem_singleton]
    constructor
    · intro choice
      rcases choice_cases _ _ choice with ⟨value, read, rfl⟩ | ⟨value, next, later, read, _, _⟩
      · obtain ⟨whole, rfl, _⟩ := (own _ _).mp read
        exact ⟨whole, rfl⟩
      · obtain ⟨_, _, more⟩ := (own _ _).mp read
        simp at more
    · rintro ⟨whole, rfl⟩
      exact .last ((own _ _).mpr ⟨whole, rfl, rfl⟩)
  | cons w others ih =>
    have cut : (Text.joinWith " | " ((v :: w :: others).map literal)).toList =
        (literal v).toList ++ (" | ".toList ++ (Text.joinWith " | " ((w :: others).map literal)).toList) := by
      simp [Text.joinWith, List.intercalate_cons_cons]
    have own := literal_reads v (" | ".toList ++ (Text.joinWith " | " ((w :: others).map literal)).toList)
    rw [cut, List.forall_mem_cons]
    constructor
    · intro choice
      rcases choice_cases _ _ choice with ⟨value, read, _⟩ | ⟨value, next, later, read, rest, rfl⟩
      · obtain ⟨_, _, nothing⟩ := (own _ _).mp read
        simp at nothing
      · obtain ⟨whole, rfl, same⟩ := (own _ _).mp read
        obtain rfl := List.append_cancel_left same
        obtain ⟨each, rfl⟩ := (ih w _).mp rest
        exact ⟨⟨whole, each⟩, rfl⟩
    · rintro ⟨⟨whole, each⟩, rfl⟩
      exact .more ((own _ _).mpr ⟨whole, rfl, rfl⟩) ((ih w _).mpr ⟨each, rfl⟩)

-- A literal is read as the text it is written for and ends where it is written to end, exactly if that text
-- has no line end in it. So a choice between values is read as these values, all of them or none.
theorem literal_denotes (v : String) (others : List String) (rest : List Char) :
    literal? ((literal v).toList ++ rest) = (if Unbroken v.toList then some (encoded v, rest) else none) ∧
    (∀ w : String, encoded v = encoded w → v = w) ∧
    ∀ values : List (List Nat), Choice (TypeExpr.oneOf (v :: others)).text.toList values ↔
      (∀ w ∈ v :: others, Unbroken w.toList) ∧ values = (v :: others).map encoded :=
  ⟨literal_read v rest, encoded_injective v, choice_read v others⟩

theorem line_feed_unreadable : ¬∀ v : String, literal? (literal v).toList = some (encoded v, []) := by
  intro reads
  exact absurd (reads "a\nb") (by decide)

end ProtocolStubs.Script
