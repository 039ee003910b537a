import ProtocolStubs.Json.Syntax
import ProtocolStubs.Proofs.Json.IntegerLiteral
import ProtocolStubs.Proofs.Json.TextLiteral

set_option autoImplicit false

namespace ProtocolStubs

namespace Json

theorem read_shorter {α : Type} {fits : List Char → Prop} (read : Option (α × { rest // fits rest })) (a : α)
    (rest : List Char) (same : (read.map fun read => (read.1, read.2.1)) = some (a, rest)) :
    ∃ short, read = some (a, ⟨rest, short⟩) := by
  obtain ⟨⟨_, _, short⟩, rfl, pair⟩ := Option.map_eq_some_iff.mp same
  obtain ⟨rfl, rfl⟩ := Prod.mk.inj pair
  exact ⟨short, rfl⟩

section Tokens

def token? (c : Char) (rest : List Char) : Option (Token × List Char) :=
  (tokenAt? 0 c rest).map fun read => (read.1, read.2.1)

theorem token_next (c : Char) (rest after : List Char) (token : Token) (ink : isSpace c = false)
    (read : token? c rest = some (token, after)) :
    tokensFrom? 0 (c :: rest) = (token :: ·) <$> tokensFrom? 0 after := by
  obtain ⟨_, found⟩ := read_shorter _ token after read
  rw [tokensFrom?, if_neg (by rw [ink]; exact Bool.false_ne_true), found]

-- The text falls into those tokens, with any text behind it that ends a literal.
def Reads (text : List Char) (tokens : List Token) : Prop :=
  ∀ rest, EndsLiteral rest → tokensFrom? 0 (text ++ rest) = (tokens ++ ·) <$> tokensFrom? 0 rest

structure Mark (c : Char) (token : Token) : Prop where
  ink : isSpace c = false
  read : ∀ rest, token? c rest = some (token, rest)
  ends : c.isDigit = false ∧ c ≠ '.' ∧ isExponentMark c = false

theorem comma_mark : Mark ',' .comma := ⟨rfl, fun _ => rfl, by decide⟩

theorem colon_mark : Mark ':' .colon := ⟨rfl, fun _ => rfl, by decide⟩

theorem open_list_mark : Mark '[' .openList := ⟨rfl, fun _ => rfl, by decide⟩

theorem close_list_mark : Mark ']' .closeList := ⟨rfl, fun _ => rfl, by decide⟩

theorem open_object_mark : Mark '\x7b' .openObject := ⟨rfl, fun _ => rfl, by decide⟩

theorem close_object_mark : Mark '\x7d' .closeObject := ⟨rfl, fun _ => rfl, by decide⟩

variable {c : Char} {token : Token} {text more : List Char} {tokens others : List Token}

theorem reads_nil : Reads [] [] := by
  intro rest _
  rw [List.nil_append]
  cases tokensFrom? 0 rest <;> rfl

theorem reads_mark (mark : Mark c token) (behind : Reads text tokens) :
    Reads (c :: text) (token :: tokens) := by
  intro rest ends
  rw [List.cons_append, token_next c _ _ token mark.ink (mark.read _), behind rest ends]
  cases tokensFrom? 0 rest <;> rfl

theorem reads_then (first : Reads text tokens) (mark : Mark c token) (behind : Reads more others) :
    Reads (text ++ c :: more) (tokens ++ token :: others) := by
  intro rest ends
  have stops : EndsLiteral (c :: more ++ rest) := by
    rintro d ⟨⟩
    exact mark.ends
  rw [List.append_assoc, first _ stops, reads_mark mark behind rest ends]
  cases tokensFrom? 0 rest with
  | none => rfl
  | some read => exact congrArg some (List.append_assoc tokens (token :: others) read).symm

theorem reads_scalar (ink : isSpace c = false)
    (read : ∀ rest, EndsLiteral rest → token? c (text ++ rest) = some (token, rest)) :
    Reads (c :: text) [token] := by
  intro rest ends
  rw [List.cons_append, token_next c _ _ token ink (read rest ends)]
  rfl

theorem text_token (s : String) : ∃ body, (Value.textLiteral s).toList = '"' :: body ∧
    Reads ('"' :: body) [.text s] := by
  obtain ⟨body, written, read⟩ := text_literal_read s
  refine ⟨body, written, reads_scalar rfl fun rest _ => ?_⟩
  obtain ⟨_, found⟩ := read_shorter _ _ rest (read rest)
  unfold token? tokenAt?
  dsimp only
  rw [if_neg (by decide), if_neg (by decide), if_neg (by decide), if_neg (by decide), if_neg (by decide),
    if_neg (by decide), if_pos rfl, found]
  exact congrArg (fun s => some (Token.text s, rest)) String.ofList_toList

theorem integer_token (i : Int) (wire : isWireInt i = true) : ∃ c others,
    (toString i).toList = c :: others ∧ c ≠ '\uFEFF' ∧ Reads (c :: others) [.number (integer i)] := by
  obtain ⟨c, others, written, starts⟩ := integer_starts i
  have other (d : Char) (word : d.isDigit = false ∧ d ≠ '-') : c ≠ d := by
    rintro rfl
    rcases starts with digit | sign
    · exact Bool.false_ne_true (word.1.symm.trans digit)
    · exact word.2 sign
  have ink : isSpace c = false := by
    simp only [isSpace, Bool.or_eq_false_iff, beq_eq_false_iff_ne]
    exact ⟨⟨⟨other _ (by decide), other _ (by decide)⟩, other _ (by decide)⟩, other _ (by decide)⟩
  refine ⟨c, others, written, other _ (by decide), reads_scalar ink fun rest ends => ?_⟩
  have read := integer_read i wire rest ends
  rw [written, List.cons_append] at read
  obtain ⟨_, found⟩ := read_shorter _ _ rest read
  unfold token? tokenAt?
  dsimp only
  rw [if_neg (other '[' (by decide)), if_neg (other ']' (by decide)), if_neg (other '\x7b' (by decide)),
    if_neg (other '\x7d' (by decide)), if_neg (other ',' (by decide)), if_neg (other ':' (by decide)),
    if_neg (other '"' (by decide)), if_neg (other 'n' (by decide)), if_neg (other 't' (by decide)),
    if_neg (other 'f' (by decide)), found]
  rfl

end Tokens

def Awaits (r : Reading) : Prop :=
  match r.containers with
  | [] => r.whole = none
  | .list _ _ :: _ => True
  | .object _ key _ :: _ => ∃ name, key = .awaiting name

-- The text of an item: it falls into those tokens, and they put the item wherever a value may stand.
structure Spells (text : List Char) (item : Json Literal) (tokens : List Token) : Prop where
  unmarked : dropByteOrderMark text = text
  reads : Reads text tokens
  puts : ∀ r, Awaits r → tokens.foldlM Reading.step? r = r.put? item

structure SpellsItems (text : List Char) (items : List (Json Literal)) (tokens : List Token) : Prop where
  reads : Reads text tokens
  puts : ∀ held comma outer whole, ∃ comma',
    tokens.foldlM Reading.step? ⟨.list held comma :: outer, whole⟩ =
      some ⟨.list (items.reverse ++ held) comma' :: outer, whole⟩

structure SpellsMembers (text : List Char) (members : Members Literal) (tokens : List Token) : Prop where
  reads : Reads text tokens
  puts : ∀ held comma outer whole, ∃ comma',
    tokens.foldlM Reading.step? ⟨.object held .none comma :: outer, whole⟩ =
      some ⟨.object (members.reverse ++ held) .none comma' :: outer, whole⟩

section Spelling

variable {text more : List Char} {item : Json Literal} {items : List (Json Literal)}
  {members : Members Literal} {tokens others : List Token}

theorem scalar_puts (token : Token) (item : Json Literal)
    (step : ∀ r, Awaits r → r.step? token = r.put? item) (r : Reading) (awaits : Awaits r) :
    [token].foldlM Reading.step? r = r.put? item := by
  rw [List.foldlM_cons, step r awaits]
  cases r.put? item <;> rfl

theorem text_steps (s : String) (r : Reading) (awaits : Awaits r) :
    r.step? (.text s) = r.put? (.text s) := by
  obtain ⟨containers, whole⟩ := r
  match containers with
  | [] => rfl
  | .list _ _ :: _ => rfl
  | .object _ key _ :: _ =>
    obtain ⟨name, rfl⟩ := awaits
    rfl

theorem null_spells : Spells "null".toList .null [.null] :=
  ⟨rfl, reads_scalar rfl fun _ _ => rfl, scalar_puts _ _ fun _ _ => rfl⟩

theorem flag_spells (b : Bool) : Spells (if b then "true" else "false").toList (.flag b) [.flag b] := by
  cases b with
  | true => exact ⟨rfl, reads_scalar rfl fun _ _ => rfl, scalar_puts _ _ fun _ _ => rfl⟩
  | false => exact ⟨rfl, reads_scalar rfl fun _ _ => rfl, scalar_puts _ _ fun _ _ => rfl⟩

theorem text_spells (s : String) : Spells (Value.textLiteral s).toList (.text s) [.text s] := by
  obtain ⟨body, written, reads⟩ := text_token s
  rw [written]
  exact ⟨rfl, reads, scalar_puts _ _ (text_steps s)⟩

theorem integer_spells (i : Int) (wire : isWireInt i = true) :
    Spells (toString i).toList (.number (integer i)) [.number (integer i)] := by
  obtain ⟨c, others, written, unmarked, reads⟩ := integer_token i wire
  rw [written]
  refine ⟨?_, reads, scalar_puts _ _ fun _ _ => rfl⟩
  rw [dropByteOrderMark]
  exact fun _ same => unmarked (List.cons.inj same).1

theorem awaiting_enters (r : Reading) (container : OpenContainer) (awaits : Awaits r) :
    r.enter? container = some ⟨container :: r.containers, r.whole⟩ := by
  obtain ⟨containers, whole⟩ := r
  match containers with
  | [] => exact if_pos (Option.isNone_iff_eq_none.mpr awaits)
  | .list _ _ :: _ => rfl
  | .object _ key _ :: _ =>
    obtain ⟨name, rfl⟩ := awaits
    rfl

theorem list_spells (spells : SpellsItems text items tokens) :
    Spells ('[' :: (text ++ [']'])) (.list items) (.openList :: (tokens ++ [.closeList])) := by
  refine ⟨rfl, reads_mark open_list_mark (reads_then spells.reads close_list_mark reads_nil), fun r awaits => ?_⟩
  obtain ⟨comma, filled⟩ := spells.puts [] false r.containers r.whole
  rw [List.foldlM_cons, Reading.step?, awaiting_enters r _ awaits, Option.bind_eq_bind, Option.bind_some,
    List.foldlM_append, filled, List.append_nil, Option.bind_eq_bind, Option.bind_some]
  change (Reading.put? r (.list items.reverse.reverse)).bind some = _
  rw [List.reverse_reverse, Option.bind_fun_some]

theorem object_spells (spells : SpellsMembers text members tokens) :
    Spells ('{' :: (text ++ ['}'])) (.object members) (.openObject :: (tokens ++ [.closeObject])) := by
  refine ⟨rfl, reads_mark open_object_mark (reads_then spells.reads close_object_mark reads_nil),
    fun r awaits => ?_⟩
  obtain ⟨comma, filled⟩ := spells.puts [] false r.containers r.whole
  rw [List.foldlM_cons, Reading.step?, awaiting_enters r _ awaits, Option.bind_eq_bind, Option.bind_some,
    List.foldlM_append, filled, List.append_nil, Option.bind_eq_bind, Option.bind_some]
  change (Reading.put? r (.object members.reverse.reverse)).bind some = _
  rw [List.reverse_reverse, Option.bind_fun_some]

theorem items_nil : SpellsItems [] [] [] := ⟨reads_nil, fun _ comma _ _ => ⟨comma, rfl⟩⟩

theorem items_last (spells : Spells text item tokens) : SpellsItems text [item] tokens :=
  ⟨spells.reads, fun held comma outer whole => ⟨false, spells.puts ⟨.list held comma :: outer, whole⟩ trivial⟩⟩

theorem items_cons (first : Spells text item tokens) (rest : SpellsItems more items others) :
    SpellsItems (text ++ ',' :: more) (item :: items) (tokens ++ .comma :: others) := by
  refine ⟨reads_then first.reads comma_mark rest.reads, fun held comma outer whole => ?_⟩
  obtain ⟨comma', filled⟩ := rest.puts (item :: held) true outer whole
  refine ⟨comma', ?_⟩
  rw [List.foldlM_append, first.puts ⟨.list held comma :: outer, whole⟩ trivial, List.reverse_cons,
    List.append_assoc, List.singleton_append]
  exact filled

theorem members_nil : SpellsMembers [] [] [] := ⟨reads_nil, fun _ comma _ _ => ⟨comma, rfl⟩⟩

variable (key : String)

theorem member_puts (value : Spells text item tokens) (held : Members Literal) (comma : Bool)
    (outer : List OpenContainer) (whole : Option (Json Literal)) :
    (.text key :: .colon :: tokens).foldlM Reading.step? ⟨.object held .none comma :: outer, whole⟩ =
      some ⟨.object ((key, item) :: held) .none false :: outer, whole⟩ :=
  value.puts ⟨.object held (.awaiting key) comma :: outer, whole⟩ ⟨key, rfl⟩

theorem member_reads (value : Spells text item tokens) :
    Reads ((Value.textLiteral key).toList ++ ':' :: text) (.text key :: .colon :: tokens) :=
  reads_then (text_spells key).reads colon_mark value.reads

theorem members_last (value : Spells text item tokens) :
    SpellsMembers ((Value.textLiteral key).toList ++ ':' :: text) [(key, item)]
      (.text key :: .colon :: tokens) :=
  ⟨member_reads key value, fun held comma outer whole => ⟨false, member_puts key value held comma outer whole⟩⟩

theorem members_cons (value : Spells text item tokens) (rest : SpellsMembers more members others) :
    SpellsMembers (((Value.textLiteral key).toList ++ ':' :: text) ++ ',' :: more) ((key, item) :: members)
      ((.text key :: .colon :: tokens) ++ .comma :: others) := by
  refine ⟨reads_then (member_reads key value) comma_mark rest.reads, fun held comma outer whole => ?_⟩
  obtain ⟨comma', filled⟩ := rest.puts ((key, item) :: held) true outer whole
  refine ⟨comma', ?_⟩
  rw [List.foldlM_append, member_puts key value held comma outer whole, List.reverse_cons,
    List.append_assoc, List.singleton_append]
  exact filled

theorem spelled_read (s : String) (spells : Spells s.toList item tokens) : Json.read? s = some item := by
  have read := spells.reads [] (by rintro c ⟨⟩)
  rw [List.append_nil, tokensFrom?] at read
  have put := spells.puts .start rfl
  rw [Json.read?, tokens?, spells.unmarked, read]
  simp only [Option.map_eq_map, Option.map_some, List.append_nil, Option.bind_eq_bind, Option.bind_some]
  rw [ofTokens?, put]
  rfl

end Spelling

end Json

end ProtocolStubs
