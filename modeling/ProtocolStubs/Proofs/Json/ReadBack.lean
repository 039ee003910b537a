import ProtocolStubs.Proofs.Json.Spelling
import ProtocolStubs.Proofs.Lookup

set_option autoImplicit false

namespace ProtocolStubs

-- JSON with integers of the wire alone, and no key twice in an object.
inductive Value.FloatFree : Value → Prop where
  | null : FloatFree .null
  | flag (b : Bool) : FloatFree (.flag b)
  | integer (i : Int) (wire : Json.isWireInt i = true) : FloatFree (.number (.int i))
  | text (s : String) : FloatFree (.text s)
  | list (items : List Value) (each : ∀ item ∈ items, FloatFree item) : FloatFree (.list items)
  | object (members : List (String × Value)) (distinct : (members.map Prod.fst).Nodup)
      (each : ∀ member ∈ members, FloatFree member.2) : FloatFree (.object members)

namespace Value

open Json (Spells SpellsItems SpellsMembers Literal Token)

-- Some item is spelt by the text of the value, and has that value where no other stood before.
def Spelled (v : Value) : Prop :=
  ∃ item tokens, Spells (toText v).toList item tokens ∧ ofSyntax? none item = some v

theorem items_spelled (items : List Value) (each : ∀ item ∈ items, Spelled item) :
    ∃ syntaxes tokens, SpellsItems (itemsText items).toList syntaxes tokens ∧
      ofItems? syntaxes = some items := by
  induction items with
  | nil => exact ⟨[], [], Json.items_nil, rfl⟩
  | cons first rest ih =>
    obtain ⟨⟨item, tokens, spells, value⟩, later⟩ := List.forall_mem_cons.mp each
    obtain ⟨syntaxes, others, spelled, values⟩ := ih later
    cases rest with
    | nil =>
      refine ⟨[item], tokens, Json.items_last spells, ?_⟩
      rw [ofItems?, value, ofItems?]
    | cons next rest =>
      refine ⟨item :: syntaxes, tokens ++ .comma :: others, ?_, ?_⟩
      · rw [itemsText, String.toList_append, String.toList_append, List.append_assoc]
        exact Json.items_cons spells spelled
      · rw [ofItems?, value, values]

theorem put_new (members : Members Json.Number) (key : String) (value : Value)
    (fresh : key ∉ members.map Prod.fst) : put members key value = members ++ [(key, value)] := by
  induction members with
  | nil => rfl
  | cons member rest ih =>
    obtain ⟨name, first⟩ := member
    rw [List.map_cons, List.mem_cons, not_or] at fresh
    rw [put, if_neg (Ne.symm fresh.1), ih fresh.2, List.cons_append]

def Follows (syntaxes : Members Literal) (members : Members Json.Number) : Prop :=
  ∀ before, ((before ++ members).map Prod.fst).Nodup → ofMembers? before syntaxes = some (before ++ members)

theorem follows_nil : Follows [] [] := fun before _ => by rw [ofMembers?, List.append_nil]

theorem follows_cons (key : String) (item : Json Literal) (v : Value) (syntaxes : Members Literal)
    (rest : Members Json.Number) (value : ofSyntax? none item = some v) (values : Follows syntaxes rest) :
    Follows ((key, item) :: syntaxes) ((key, v) :: rest) := by
  intro before distinct
  have fresh : key ∉ before.map Prod.fst := by
    rw [List.map_append, List.map_cons] at distinct
    exact fun there => (List.nodup_append.mp distinct).2.2 key there key List.mem_cons_self rfl
  have further := values (before ++ [(key, v)]) (by rwa [List.append_assoc])
  rw [List.append_assoc] at further
  rw [ofMembers?, lookup_missing before key fresh, value]
  dsimp only
  rw [put_new before key v fresh]
  exact further

theorem members_spelled (members : List (String × Value)) (each : ∀ member ∈ members, Spelled member.2) :
    ∃ syntaxes tokens, SpellsMembers (membersText members).toList syntaxes tokens ∧
      Follows syntaxes members := by
  induction members with
  | nil => exact ⟨[], [], Json.members_nil, follows_nil⟩
  | cons first rest ih =>
    obtain ⟨key, v⟩ := first
    obtain ⟨⟨item, tokens, spells, value⟩, later⟩ := List.forall_mem_cons.mp each
    obtain ⟨syntaxes, others, spelled, values⟩ := ih later
    cases rest with
    | nil =>
      refine ⟨[(key, item)], .text key :: .colon :: tokens, ?_, follows_cons key item v [] [] value follows_nil⟩
      rw [membersText, String.toList_append, String.toList_append, List.append_assoc]
      exact Json.members_last key spells
    | cons next rest =>
      refine ⟨(key, item) :: syntaxes, (.text key :: .colon :: tokens) ++ .comma :: others, ?_,
        follows_cons key item v syntaxes _ value values⟩
      have text : (membersText ((key, v) :: next :: rest)).toList =
          ((textLiteral key).toList ++ ':' :: (toText v).toList) ++
            ',' :: (membersText (next :: rest)).toList := by
        rw [membersText]
        simp only [String.toList_append, List.append_assoc]
        rfl
      rw [text]
      exact Json.members_cons key spells spelled

theorem float_free_spelled (v : Value) (free : FloatFree v) : Spelled v := by
  induction free with
  | null => exact ⟨.null, _, Json.null_spells, rfl⟩
  | flag b => exact ⟨.flag b, _, Json.flag_spells b, rfl⟩
  | integer i wire =>
    refine ⟨.number (Json.integer i), _, Json.integer_spells i wire, ?_⟩
    rw [ofSyntax?, Json.integer_number i wire]
    rfl
  | text s => exact ⟨.text s, _, Json.text_spells s, rfl⟩
  | list items _ each =>
    obtain ⟨syntaxes, tokens, spells, values⟩ := items_spelled items each
    refine ⟨.list syntaxes, .openList :: (tokens ++ [.closeList]), ?_, ?_⟩
    · rw [toText, String.toList_append, String.toList_append, List.append_assoc]
      exact Json.list_spells spells
    · rw [ofSyntax?, values]
      rfl
  | object members distinct _ each =>
    obtain ⟨syntaxes, tokens, spells, values⟩ := members_spelled members each
    refine ⟨.object syntaxes, .openObject :: (tokens ++ [.closeObject]), ?_, ?_⟩
    · rw [toText, String.toList_append, String.toList_append, List.append_assoc]
      exact Json.object_spells spells
    · rw [ofSyntax?, values [] distinct]
      rfl

theorem text_read (v : Value) (free : FloatFree v) : read? v.toText = some v := by
  obtain ⟨item, tokens, spells, value⟩ := float_free_spelled v free
  rw [read?, Json.spelled_read v.toText spells]
  exact value

theorem items_restated (items : List Value) (each : ∀ item ∈ items, restated? item = some item) :
    restatedItems? items = some items := by
  induction items with
  | nil => rfl
  | cons item rest ih =>
    obtain ⟨here, later⟩ := List.forall_mem_cons.mp each
    rw [restatedItems?, here, ih later]

theorem members_restated (members : List (String × Value))
    (each : ∀ member ∈ members, restated? member.2 = some member.2) :
    restatedMembers? members = some members := by
  induction members with
  | nil => rfl
  | cons member rest ih =>
    obtain ⟨key, item⟩ := member
    obtain ⟨here, later⟩ := List.forall_mem_cons.mp each
    rw [restatedMembers?, here, ih later]

theorem float_free_restated (v : Value) (free : FloatFree v) : restated? v = some v := by
  induction free with
  | null | flag | integer | text => rfl
  | list items _ each =>
    rw [restated?, items_restated items each]
    rfl
  | object members _ _ each =>
    rw [restated?, members_restated members each]
    rfl

end Value

end ProtocolStubs
