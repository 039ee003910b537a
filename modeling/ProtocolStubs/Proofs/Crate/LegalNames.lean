import ProtocolStubs.Proofs.Crate.FileStems

set_option autoImplicit false

namespace ProtocolStubs

namespace Text

theorem ascii_all (holds : Char → Prop) (each : ∀ code < 128, holds (Char.ofNat code)) (c : Char)
    (ascii : c.toNat < 128) : holds c := by
  have own := each c.toNat ascii
  rwa [Char.ofNat_toNat] at own

theorem lowered_ascii (word : List Char) (ascii : ∀ c ∈ word, c.toNat < 128) :
    lowered word = word.map Char.toLower := by
  induction word with
  | nil => rfl
  | cons c rest ih =>
    obtain ⟨here, later⟩ := List.forall_mem_cons.mp ascii
    cases rest with
    | nil =>
      have other : c ≠ 'Σ' := by
        rintro rfl
        exact absurd here (by decide)
      rw [lowered, if_neg other, toLower_of_ascii c here]
      rfl
    | cons next rest =>
      rw [lowered, toLower_of_ascii c here, ih later]
      · rfl
      · exact List.cons_ne_nil next rest

theorem pieces_from_front (held rest : List Char) (given : held ≠ []) :
    ∃ tail more, piecesFrom held rest = (held.reverse ++ tail) :: more := by
  have some_ : held.isEmpty = false := List.isEmpty_eq_false_iff.mpr given
  induction rest generalizing held with
  | nil => exact ⟨[], [], by simp [piecesFrom, some_]⟩
  | cons c rest ih =>
    rw [piecesFrom]
    split
    · obtain ⟨tail, more, front⟩ := ih (c :: held) (List.cons_ne_nil _ _) rfl
      exact ⟨c :: tail, more, by rw [front]; simp⟩
    · exact ⟨[], piecesFrom [] rest, by simp [some_]⟩

theorem words_from_front (held : List Char) (run : CaseRun) (c : Char) (rest : List Char)
    (given : held ≠ [] ∨ run = .none) :
    ∃ tail more, wordsFrom held run (c :: rest) = (held.reverse ++ tail) :: more ∧
      (held = [] → tail.head? = some c) := by
  induction rest generalizing held run c with
  | nil => exact ⟨[c], [], by simp [wordsFrom], fun _ => rfl⟩
  | cons next rest ih =>
    rw [wordsFrom]
    split
    · exact ⟨[c], _, by rw [List.reverse_cons], fun _ => rfl⟩
    · split
      · rename_i last
        have some_ : held ≠ [] := given.resolve_right fun none_ => by simp [none_] at last
        exact ⟨[], _, by rw [List.append_nil], fun nothing => absurd nothing some_⟩
      · obtain ⟨tail, more, front, _⟩ := ih (c :: held) (run.next c) next (.inl (List.cons_ne_nil _ _))
        exact ⟨c :: tail, more, by rw [front]; simp, fun _ => rfl⟩

theorem words_front (c : Char) (rest : List Char) (letter : isAlphanumeric c = true) :
    ∃ tail more, words (c :: rest) = (c :: tail) :: more := by
  obtain ⟨piece, pieces, first⟩ := pieces_from_front [c] rest (List.cons_ne_nil _ _)
  obtain ⟨word, more, front, starts⟩ := words_from_front [] .none c piece (.inr rfl)
  obtain ⟨tail, rfl⟩ : ∃ tail, word = c :: tail := List.head?_eq_some_iff.mp (starts rfl)
  have cut : piecesFrom [] (c :: rest) = (c :: piece) :: pieces := by
    rw [piecesFrom, if_pos letter, first]
    rfl
  refine ⟨tail, more ++ pieces.flatMap (wordsFrom [] .none), ?_⟩
  rw [words, cut, List.flatMap_cons, front]
  rfl

theorem pieces_from_subset (held rest : List Char) :
    ∀ piece ∈ piecesFrom held rest, ∀ c ∈ piece, c ∈ held ∨ c ∈ rest := by
  induction rest generalizing held with
  | nil =>
    rw [piecesFrom]
    grind
  | cons c rest ih =>
    have fresh := ih []
    have more := ih (c :: held)
    rw [piecesFrom]
    grind

theorem words_subset (name : List Char) :
    ∀ word ∈ words name, ∀ c ∈ word, c ∈ name ∧ isAlphanumeric c = true := by
  intro word member c among
  refine ⟨?_, words_alphanumeric name word member c among⟩
  obtain ⟨piece, stands, within⟩ := List.mem_flatMap.mp member
  rcases words_from_subset [] .none piece word within c among with none_ | own
  · cases none_
  · exact (pieces_from_subset [] name piece stands c own).resolve_left List.not_mem_nil

end Text

namespace Crate

open Text (words)

-- The words that are no names, of which four cannot be written raw either.
def reservedWords : List String :=
  ["as", "break", "const", "continue", "crate", "else", "enum", "extern", "false", "fn", "for", "if",
   "impl", "in", "let", "loop", "match", "mod", "move", "mut", "pub", "ref", "return", "self", "Self",
   "static", "struct", "super", "trait", "true", "type", "unsafe", "use", "where", "while",
   "async", "await", "dyn",
   "abstract", "become", "box", "do", "final", "macro", "override", "priv", "typeof", "unsized",
   "virtual", "yield", "try", "gen"]

def neverRaw : List String := ["crate", "self", "super", "Self"]

structure SchemaName (name : String) : Prop where
  starts : name.toList.head?.map Char.isAlpha = some true
  each : ∀ c ∈ name.toList, c.isAlphanum = true ∨ c = '_'

structure SnakeWord (word : String) : Prop where
  starts : word.toList.head?.map Char.isLower = some true
  each : ∀ c ∈ word.toList, c.isLower = true ∨ c.isDigit = true ∨ c = '_'

inductive LegalIdentifier : String → Prop where
  | plain {word : String} (shape : SnakeWord word) (free : word ∉ reservedWords) : LegalIdentifier word
  | raw {word : String} (keyword : word ∈ reservedWords) (may : word ∉ neverRaw) :
    LegalIdentifier ("r#" ++ word)
  | longer {word : String} (keyword : word ∈ ["crate", "self", "super"]) : LegalIdentifier (word ++ "_")

structure LegalTypeName (name : String) : Prop where
  starts : name.toList.head?.map Char.isUpper = some true
  each : ∀ c ∈ name.toList, c.isAlphanum = true ∨ c = '_'
  free : name ∉ reservedWords

theorem reserved_listed (word : String) :
    word ∈ reservedWords ↔ word ∈ keywords ∨ word ∈ pathKeywords := by
  have apart : ∀ word ∈ reservedWords, word ∈ keywords ∨ word ∈ pathKeywords := by decide
  have plain : ∀ word ∈ keywords, word ∈ reservedWords := by decide
  have paths : ∀ word ∈ pathKeywords, word ∈ reservedWords := by decide
  exact ⟨apart word, fun listed => listed.elim (plain word) (paths word)⟩

theorem ascii_letters (c : Char) (letter : c.isAlphanum = true) : c.toNat < 128 ∧
    (c.toLower.isLower = true ∨ c.toLower.isDigit = true) ∧ c.toLower.isAlphanum = true ∧
    c.toUpper.isAlphanum = true := by
  have ascii : c.toNat < 128 := by
    change ((decide (c.val ≥ 65 ∧ c.val ≤ 90) || (c.val ≥ 97 && c.val ≤ 122)) ||
      (c.val ≥ 48 && c.val ≤ 57)) = true at letter
    simp only [Bool.or_eq_true, Bool.and_eq_true, decide_eq_true_eq, UInt32.le_iff_toNat_le, ge_iff_le] at letter
    change ((65 ≤ c.toNat ∧ c.toNat ≤ 90) ∨ 97 ≤ c.toNat ∧ c.toNat ≤ 122) ∨
      48 ≤ c.toNat ∧ c.toNat ≤ 57 at letter
    omega
  refine ⟨ascii, ?_⟩
  exact Text.ascii_all (fun c => c.isAlphanum = true →
    (c.toLower.isLower = true ∨ c.toLower.isDigit = true) ∧ c.toLower.isAlphanum = true ∧
      c.toUpper.isAlphanum = true) (by decide) c ascii letter

theorem ascii_cases (c : Char) (letter : c.isAlpha = true) :
    c.isAlphanum = true ∧ c.toLower.isLower = true ∧ c.toUpper.isUpper = true := by
  have number : c.isAlphanum = true := Bool.or_eq_true_iff.mpr (.inl letter)
  refine ⟨number, ?_⟩
  exact Text.ascii_all (fun c => c.isAlpha = true → c.toLower.isLower = true ∧ c.toUpper.isUpper = true)
    (by decide) c (ascii_letters c number).1 letter

theorem alphanumeric_ascii (c : Char) (letter : c.isAlphanum = true) : Text.isAlphanumeric c = true := by
  rw [Text.isAlphanumeric_of_ascii c (ascii_letters c letter).1, letter]

section Schema

variable {name : String} (schema : SchemaName name)

include schema

theorem schema_words : ∀ word ∈ words name.toList, ∀ c ∈ word, c.isAlphanum = true := by
  intro word member c among
  obtain ⟨own, letter⟩ := Text.words_subset name.toList word member c among
  refine (schema.each c own).resolve_right ?_
  rintro rfl
  revert letter
  decide

theorem schema_first : ∃ c tail more, c.isAlpha = true ∧ name.toList.head? = some c ∧
    words name.toList = (c :: tail) :: more := by
  obtain ⟨c, first, letter⟩ := Option.map_eq_some_iff.mp schema.starts
  obtain ⟨rest, spelled⟩ := List.head?_eq_some_iff.mp first
  obtain ⟨tail, more, front⟩ := Text.words_front c rest (alphanumeric_ascii c (ascii_cases c letter).1)
  exact ⟨c, tail, more, letter, first, spelled ▸ front⟩

theorem schema_lowered (word : List Char) (member : word ∈ words name.toList) :
    Text.lowered word = word.map Char.toLower :=
  Text.lowered_ascii word fun c among => (ascii_letters c (schema_words schema word member c among)).1

theorem snake_case_word : SnakeWord (Text.snakeCase name) := by
  obtain ⟨c, tail, more, letter, _, front⟩ := schema_first schema
  have own : (c :: tail) ∈ words name.toList := front ▸ List.mem_cons_self
  constructor
  · have spelled : ∃ rest, (Text.snakeCase name).toList = c.toLower :: rest := by
      rw [Text.snakeCase, String.toList_ofList, front, List.map_cons, schema_lowered schema _ own, List.map_cons]
      cases more with
      | nil => exact ⟨tail.map Char.toLower, by simp⟩
      | cons next more =>
        rw [List.map_cons, List.intercalate_cons_cons]
        exact ⟨_, rfl⟩
    obtain ⟨rest, spelled⟩ := spelled
    rw [spelled, List.head?_cons, Option.map_some, (ascii_cases c letter).2.1]
  · intro d member
    rw [Text.snakeCase, String.toList_ofList] at member
    rcases Text.intercalate_subset _ _ d member with separator | ⟨word, among, stands⟩
    · exact .inr (.inr (List.mem_singleton.mp separator))
    · obtain ⟨plain, given, rfl⟩ := List.mem_map.mp among
      rw [schema_lowered schema plain given] at stands
      obtain ⟨source, inside, rfl⟩ := List.mem_map.mp stands
      have cased := (ascii_letters source (schema_words schema plain given source inside)).2.1
      exact cased.elim .inl fun digit => .inr (.inl digit)

theorem identifier_legal : LegalIdentifier (identifier name) := by
  have shape := snake_case_word schema
  rw [identifier, escaped]
  split
  · rename_i path
    refine .longer ?_
    have paths : ∀ word ∈ pathKeywords, word ∈ ["crate", "self", "super"] ∨ word = "Self" := by decide
    refine (paths _ path).resolve_right fun capital => ?_
    have starts := shape.starts
    rw [capital] at starts
    exact absurd starts (by decide)
  · rename_i path
    split
    · rename_i keyword
      have may : ∀ word ∈ neverRaw, word ∈ pathKeywords := by decide
      exact .raw ((reserved_listed _).mpr (.inl keyword)) fun never => path (may _ never)
    · rename_i keyword
      exact .plain shape fun listed => ((reserved_listed _).mp listed).elim keyword path

theorem capital_case : (Text.upperCamelCase name).toList.head?.map Char.isUpper = some true ∧
    ∀ c ∈ (Text.upperCamelCase name).toList, c.isAlphanum = true := by
  obtain ⟨c, tail, more, letter, _, front⟩ := schema_first schema
  have cased : ∀ word ∈ words name.toList, Text.capitalized word =
      (word.head?.map Char.toUpper).toList ++ word.tail.map Char.toLower := by
    intro word member
    cases word with
    | nil => rfl
    | cons d rest =>
      have letters := schema_words schema _ member
      have ascii : ∀ e ∈ d :: rest, e.toNat < 128 := fun e among => (ascii_letters e (letters e among)).1
      rw [Text.capitalized, Text.toUpper_of_ascii d (ascii d List.mem_cons_self),
        Text.lowered_ascii rest fun e among => ascii e (List.mem_cons_of_mem d among)]
      rfl
  rw [Text.upperCamelCase, String.toList_ofList]
  constructor
  · rw [front, List.flatMap_cons, cased _ (front ▸ List.mem_cons_self)]
    simp [(ascii_cases c letter).2.2]
  · intro d member
    obtain ⟨word, among, stands⟩ := List.mem_flatMap.mp member
    have letters := schema_words schema word among
    rw [cased word among] at stands
    cases word with
    | nil => cases stands
    | cons e rest =>
      rcases List.mem_cons.mp stands with rfl | later
      · exact (ascii_letters e (letters e List.mem_cons_self)).2.2.2
      · obtain ⟨source, inside, rfl⟩ := List.mem_map.mp later
        exact (ascii_letters source (letters source (List.mem_cons_of_mem e inside))).2.2.1

end Schema

-- Of the reserved words only one starts with a capital, and it is lengthened.
theorem escaped_capital (word : String) (starts : word.toList.head?.map Char.isUpper = some true)
    (each : ∀ c ∈ word.toList, c.isAlphanum = true ∨ c = '_') : LegalTypeName (escaped word) := by
  have small : ∀ keyword ∈ keywords, keyword.toList.head?.map Char.isUpper ≠ some true := by decide
  have paths : ∀ path ∈ pathKeywords, path.toList.head?.map Char.isUpper = some true → path = "Self" := by
    decide
  rw [escaped]
  split
  · rename_i path
    rw [paths word path starts]
    exact ⟨by decide, by simp, by decide⟩
  · rename_i path
    rw [if_neg fun keyword => small word keyword starts]
    exact ⟨starts, each, fun listed =>
      ((reserved_listed word).mp listed).elim (fun keyword => small word keyword starts) path⟩

theorem type_name_legal (name : String) (schema : SchemaName name) : LegalTypeName (typeName name) := by
  rw [typeName]
  cases capital : startsUpper name with
  | true =>
    rw [if_pos rfl]
    refine escaped_capital name ?_ schema.each
    rw [startsUpper] at capital
    cases first : name.toList.head? with
    | none => rw [first] at capital; cases capital
    | some c => rw [first] at capital; exact congrArg some capital
  | false =>
    obtain ⟨starts, each⟩ := capital_case schema
    exact escaped_capital _ starts fun c member => .inl (each c member)

theorem own_identifier_plain (name : String) (own : identifier name = name) : ¬"r#".toList <+: name.toList := by
  intro starts
  rw [identifier, escaped] at own
  split at own
  · rename_i path
    have plain : ∀ word ∈ pathKeywords, ¬"r#".toList <+: (word ++ "_").toList := by decide
    rw [← own] at starts
    exact plain _ path starts
  · split at own
    · rename_i keyword
      have other : ∀ word ∈ keywords, Text.snakeCase ("r#" ++ word) ≠ word := by decide
      have again : Text.snakeCase ("r#" ++ Text.snakeCase name) = Text.snakeCase name := by rw [own]
      exact other _ keyword again
    · have hash : '#' ∈ name.toList := starts.subset (by decide)
      rw [← own] at hash
      exact Text.snake_case_unraw name hash

end Crate

end ProtocolStubs
