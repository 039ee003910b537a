import ProtocolStubs.Json.Value

set_option autoImplicit false

namespace ProtocolStubs.Json

theorem hex_digit_read : ∀ n < 16, hexDigit? (Nat.digitChar n) = some n := by decide

-- The characters that are read up to the closing quote, and what stands behind it.
def textFrom? (cs : List Char) : Option (List Char × List Char) :=
  (textAt? cs).map fun read => (read.1, read.2.1)

def Writes (written chars : List Char) : Prop :=
  ∀ rest, textFrom? (written ++ rest) = (textFrom? rest).map (Prod.map (chars ++ ·) id)

theorem writes_nil : Writes [] [] := by
  intro rest
  rw [List.nil_append]
  cases textFrom? rest <;> rfl

theorem writes_append (first second chars more : List Char) (here : Writes first chars)
    (there : Writes second more) : Writes (first ++ second) (chars ++ more) := by
  intro rest
  rw [List.append_assoc, here, there, Option.map_map]
  congr 1
  funext read
  simp only [Function.comp_apply, Prod.map, List.append_assoc, id]

theorem writes_each {α : Type} (write mean : α → List Char) (parts : List α)
    (each : ∀ part ∈ parts, Writes (write part) (mean part)) :
    Writes (parts.flatMap write) (parts.flatMap mean) := by
  induction parts with
  | nil => exact writes_nil
  | cons part parts ih =>
    obtain ⟨here, there⟩ := List.forall_mem_cons.mp each
    rw [List.flatMap_cons, List.flatMap_cons]
    exact writes_append _ _ _ _ here (ih there)

theorem closed_text (rest : List Char) : textFrom? ('"' :: rest) = some ([], rest) := by
  rw [textFrom?, textAt?]
  rfl

theorem bare_writes (c : Char) (quote : c ≠ '"') (slash : c ≠ '\\') : Writes [c] [c] := by
  intro rest
  rw [List.singleton_append, textFrom?, textFrom?,
    textAt?.eq_5 c rest quote (fun _ _ _ _ _ same => (slash same).elim) fun _ _ same => (slash same).elim,
    if_neg slash]
  cases textAt? rest <;> rfl

theorem escape_writes (c : Char) (short : c ≠ 'u') (ascii : c.toNat < 128) :
    Writes ['\\', c] [escaped c] := by
  intro rest
  have kept : ¬(c = 'u' ∨ 128 ≤ c.toNat) := not_or.mpr ⟨short, Nat.not_le.mpr ascii⟩
  rw [List.cons_append, List.singleton_append, textFrom?, textFrom?,
    textAt?.eq_4 c rest fun _ _ _ _ _ same => (short same).elim, if_neg kept]
  cases textAt? rest <;> rfl

theorem code_unit_pair (n : Nat) (small : n < 256) :
    codeUnit? '0' '0' (Nat.digitChar (n / 16)) (Nat.digitChar (n % 16)) = some n := by
  have zero : hexDigit? '0' = some 0 := rfl
  simp only [codeUnit?, hex_digit_read (n / 16) (by omega), hex_digit_read (n % 16) (by omega), zero,
    if_neg (by decide : '0' ≠ '+'), Option.bind_eq_bind, Option.bind_some, Option.pure_def,
    Option.some.injEq]
  omega

theorem code_writes (n : Nat) (small : n < 256) :
    Writes ('\\' :: 'u' :: '0' :: '0' :: Value.hexPair n) [Char.ofNat n] := by
  intro rest
  rw [Value.hexPair, textFrom?, textFrom?]
  simp only [List.cons_append, List.nil_append]
  rw [textAt?.eq_3, code_unit_pair n small]
  dsimp only
  rw [if_neg (by omega), if_neg (by omega)]
  cases textAt? rest <;> rfl

theorem short_writes (c letter : Char) (written : Value.escapedChar c = ['\\', letter])
    (meant : escaped letter = c) (short : letter ≠ 'u') (ascii : letter.toNat < 128) :
    Writes (Value.escapedChar c) [c] := by
  have writes := escape_writes letter short ascii
  rwa [meant, ← written] at writes

theorem escaped_char_writes (c : Char) : Writes (Value.escapedChar c) [c] := by
  by_cases quote : c = '"'
  · exact quote ▸ short_writes '"' '"' rfl rfl (by decide) (by decide)
  by_cases slash : c = '\\'
  · exact slash ▸ short_writes '\\' '\\' rfl rfl (by decide) (by decide)
  by_cases feed : c = '\n'
  · exact feed ▸ short_writes '\n' 'n' rfl rfl (by decide) (by decide)
  by_cases back : c = '\r'
  · exact back ▸ short_writes '\r' 'r' rfl rfl (by decide) (by decide)
  by_cases tab : c = '\t'
  · exact tab ▸ short_writes '\t' 't' rfl rfl (by decide) (by decide)
  by_cases erase : c = '\x08'
  · exact erase ▸ short_writes '\x08' 'b' rfl rfl (by decide) (by decide)
  by_cases page : c = '\x0c'
  · exact page ▸ short_writes '\x0c' 'f' rfl rfl (by decide) (by decide)
  rw [Value.escapedChar, if_neg quote, if_neg slash, if_neg feed, if_neg back, if_neg tab, if_neg erase,
    if_neg page]
  by_cases control : c.toNat < 32 ∨ c.toNat = 127
  · have code := code_writes c.toNat (by omega)
    rw [Char.ofNat_toNat] at code
    rwa [if_pos control]
  · rw [if_neg control]
    exact bare_writes c quote slash

theorem plain_writes (c : Char) (plain : Value.isPlain c = true) : Writes [c] [c] := by
  rw [Value.isPlain, Bool.and_eq_true, Bool.and_eq_true] at plain
  exact bare_writes c (of_decide_eq_true plain.1.2) (of_decide_eq_true plain.2)

theorem block_writes (block : List Char) : Writes (Value.escapedBlock block) block := by
  unfold Value.escapedBlock
  split
  · rename_i full
    have plain := List.all_eq_true.mp (Bool.and_eq_true_iff.mp full).2
    have writes := writes_each (fun c => [c]) (fun c => [c]) block fun c member =>
      plain_writes c (plain c member)
    rwa [List.flatMap_singleton'] at writes
  · have writes := writes_each Value.escapedChar (fun c => [c]) block fun c _ => escaped_char_writes c
    rwa [List.flatMap_singleton'] at writes

theorem blocks_whole (held : List Char) (bytes : Nat) (cs : List Char) :
    (Value.blocksFrom held bytes cs).flatten = held.reverse ++ cs := by
  induction cs generalizing held bytes with
  | nil => rw [Value.blocksFrom, List.flatten_singleton, List.append_nil]
  | cons c rest ih =>
    rw [Value.blocksFrom]
    split
    · rw [List.flatten_cons, ih, List.reverse_cons, List.append_assoc]
      rfl
    · rw [ih, List.reverse_cons, List.append_assoc, List.singleton_append]

theorem text_literal_read (s : String) : ∃ body, (Value.textLiteral s).toList = '"' :: body ∧
    ∀ rest, textFrom? (body ++ rest) = some (s.toList, rest) := by
  refine ⟨_, String.toList_ofList, fun rest => ?_⟩
  have writes := writes_each Value.escapedBlock id (Value.blocksFrom [] 0 s.toList) fun block _ =>
    block_writes block
  rw [List.flatMap_id, blocks_whole, List.reverse_nil, List.nil_append] at writes
  rw [List.append_assoc, writes, List.singleton_append, closed_text, Option.map_some,
    Prod.map, List.append_nil, id]

end ProtocolStubs.Json
