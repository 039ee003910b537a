import Mathlib.Data.List.Forall2
import ProtocolStubs.Proofs.Crate.Sections
import ProtocolStubs.Proofs.Crate.TypeText

set_option autoImplicit false

namespace ProtocolStubs.Crate

open Layout

def Record.expressions (r : Record) : List TypeExpr := r.fields.map Field.type

def NamedType.expressions : NamedType → List TypeExpr
  | .record r => r.expressions
  | .alias _ _ type => [type]

def DataModules.expressions (m : DataModules) : List TypeExpr :=
  m.types.flatMap NamedType.expressions ++ [PayloadKind.params, .results, .events].flatMap fun kind =>
    (m.records kind).flatMap Record.expressions

-- A line of the data modules that gives a type: no comment or attribute, and no part of a block's frame.
def isMember (text : String) : Bool :=
  "pub ".toList.isPrefixOf text.toList &&
    (text.toList.getLast? = some ',' || text.toList.getLast? = some ';')

def Field.row (runtime : String) (f : Field) : String :=
  "pub " ++ f.name ++ ": " ++ f.typeText runtime ++ ","

def Record.members (runtime : String) (r : Record) : List String := r.fields.map (Field.row runtime)

def NamedType.members (runtime : String) : NamedType → List String
  | .record r => r.members runtime
  | .alias _ name type => ["pub type " ++ name ++ " = " ++ type.text runtime ++ ";"]

section Members

variable (runtime : String) (depth : Nat)

theorem opener_other (header : String) : isMember (header ++ " \x7b") = false := by
  simp [isMember]

theorem comment_members (doc : List String) :
    textsOf isMember (Code.piecesAll depth (Comment.slash doc)) = [] := by
  have other : ∀ line, isMember (Pen.commentLine "///" line) = false := by
    intro line
    rw [isMember, Pen.commentLine]
    split <;> simp
  rw [Comment.slash, Code.pieces_all_lines, textsOf, List.map_map, List.filter_map]
  simp [Function.comp_def, other]

theorem field_members (f : Field) :
    textsOf isMember (Code.piecesAll depth (f.code runtime)) = [f.row runtime] := by
  have member : isMember (f.row runtime) = true := by simp [isMember, Field.row, List.getLast?_cons]
  have attributes : ∀ body : String, isMember ("#[facet(" ++ body ++ ")]") = false := by simp [isMember]
  have recursive : isMember "#[facet(recursive_type)]" = false := by decide
  rw [Field.code, Code.pieces_all_append, Code.pieces_all_append, Code.pieces_all_append, texts_of_append,
    texts_of_append, texts_of_append, comment_members]
  rw [Field.row] at member
  split <;> split <;> simp [textsOf, Code.piecesAll, Code.pieces, attributes, recursive, member, Field.row]

theorem record_members (r : Record) :
    textsOf isMember (Code.piecesAll depth (r.code runtime)) = r.members runtime := by
  have derived : textsOf isMember (Code.pieces depth (.line "#[derive(Debug, Facet)]")) = [] := by
    simp [textsOf, Code.pieces, isMember]
  have fields : (r.fields.flatMap fun f => textsOf isMember (Code.piecesAll (depth + 1) (f.code runtime))) =
      r.fields.map (Field.row runtime) := by
    simp only [field_members]
    exact List.map_eq_flatMap.symm
  rw [Record.code, Code.pieces_all_append, texts_of_append, comment_members, Code.piecesAll, texts_of_append,
    derived, texts_of_block _ _ _ _ (opener_other _) (by decide), texts_of_code, fields]
  rfl

theorem type_members (t : NamedType) :
    textsOf isMember (Code.piecesAll depth (t.code runtime)) = t.members runtime := by
  cases t with
  | record r => exact record_members runtime depth r
  | «alias» doc name type =>
    rw [NamedType.code, Code.pieces_all_append, texts_of_append, comment_members]
    simp [textsOf, Code.piecesAll, Code.pieces, isMember, NamedType.members, List.getLast?_cons]

theorem module_members (doc header : String) (body : List Code) :
    textsOf isMember (Code.piecesAll 0 (.line ("/// " ++ doc) :: Code.block header body ++ [.blank])) =
      textsOf isMember (Code.piecesAll 1 body) := by
  have comment : textsOf isMember (Code.pieces 0 (.line ("/// " ++ doc))) = [] := by
    simp [textsOf, Code.pieces, isMember]
  rw [List.cons_append, Code.piecesAll, texts_of_append, comment, Code.pieces_all_append, texts_of_append,
    texts_of_block _ _ _ _ (opener_other _) (by decide)]
  exact List.append_nil _

theorem closed_members {α : Type} (parts : List α) (code : α → List Code) (members : α → List String)
    (each : ∀ part, textsOf isMember (Code.piecesAll 1 (code part)) = members part) :
    textsOf isMember (Code.piecesAll 1
      (DataModules.prelude ++ parts.flatMap fun part => code part ++ [.blank])) = parts.flatMap members := by
  have start : textsOf isMember (Code.piecesAll 1 DataModules.prelude) = [] := by decide
  rw [Code.pieces_all_append, texts_of_append, start, texts_of_code]
  refine List.flatMap_congr fun part _ => ?_
  rw [Code.pieces_all_append, texts_of_append, each]
  exact List.append_nil _

end Members

-- The row gives that type to a field, which may be left out or not, or to an alias.
inductive MemberOf (runtime : String) : String → TypeExpr → Prop where
  | field (name : String) (e : TypeExpr) :
      MemberOf runtime ("pub " ++ name ++ ": " ++ e.text runtime ++ ",") e
  | omittable (name : String) (e : TypeExpr) :
      MemberOf runtime ("pub " ++ name ++ ": " ++ ("Option<" ++ e.text runtime ++ ">") ++ ",") e
  | alias (name : String) (e : TypeExpr) :
      MemberOf runtime ("pub type " ++ name ++ " = " ++ e.text runtime ++ ";") e

theorem record_typed (runtime : String) (r : Record) :
    List.Forall₂ (MemberOf runtime) (r.members runtime) r.expressions := by
  rw [Record.members, Record.expressions, List.forall₂_map_left_iff, List.forall₂_map_right_iff]
  refine List.forall₂_same.mpr fun f _ => ?_
  rw [Field.row, Field.typeText]
  split
  · exact .omittable f.name f.type
  · exact .field f.name f.type

-- A member is split by the first colon, which no field's name has.
theorem field_cut (name other text type : String) (left : ':' ∉ name.toList) (right : ':' ∉ other.toList)
    (same : "pub " ++ name ++ ": " ++ text ++ "," = "pub " ++ other ++ ": " ++ type ++ ",") :
    text = type := by
  have lists : name.toList ++ ':' :: ' ' :: (text.toList ++ [',']) =
      other.toList ++ ':' :: ' ' :: (type.toList ++ [',']) := by
    simpa using congrArg String.toList same
  obtain ⟨_, _, back⟩ := first_sign (· = ':') _ _ _ _ _ _ (fun _ member is => left (is ▸ member))
    (fun _ member is => right (is ▸ member)) rfl rfl lists
  exact String.toList_injective (List.append_cancel_right (List.cons.inj back).2)

def Gives (runtime : String) (item : NamedType) (type : String) : Prop :=
  ∃ piece ∈ Code.piecesAll 0 (item.code runtime),
    (∃ name, ':' ∉ name.toList ∧ piece.2 = "pub " ++ name ++ ": " ++ type ++ ",") ∨
      piece.2 = "pub type " ++ item.name ++ " = " ++ type ++ ";"

theorem gives_member (runtime type : String) (item : NamedType) : Gives runtime item type ↔
    (∃ name, ':' ∉ name.toList ∧ "pub " ++ name ++ ": " ++ type ++ "," ∈ item.members runtime) ∨
      "pub type " ++ item.name ++ " = " ++ type ++ ";" ∈ item.members runtime := by
  have listed : ∀ row, isMember row = true →
      ((∃ piece ∈ Code.piecesAll 0 (item.code runtime), piece.2 = row) ↔ row ∈ item.members runtime) := by
    intro row member
    rw [← type_members runtime 0 item, textsOf, List.mem_filter, List.mem_map, and_iff_left member]
  have field : ∀ name, isMember ("pub " ++ name ++ ": " ++ type ++ ",") = true := by
    simp [isMember, List.getLast?_cons]
  have own : isMember ("pub type " ++ item.name ++ " = " ++ type ++ ";") = true := by
    simp [isMember, List.getLast?_cons]
  rw [Gives, ← listed _ own]
  constructor
  · rintro ⟨piece, among, ⟨name, free, row⟩ | row⟩
    · exact .inl ⟨name, free, (listed _ (field name)).mp ⟨piece, among, row⟩⟩
    · exact .inr ⟨piece, among, row⟩
  · rintro (⟨name, free, row⟩ | ⟨piece, among, row⟩)
    · obtain ⟨piece, among, row⟩ := (listed _ (field name)).mpr row
      exact ⟨piece, among, .inl ⟨name, free, row⟩⟩
    · exact ⟨piece, among, .inr row⟩

theorem record_gives (runtime type : String) (r : Record) :
    Gives runtime (.record r) type ↔ ∃ f ∈ r.fields, type = f.typeText runtime := by
  rw [gives_member, NamedType.members, Record.members]
  constructor
  · rintro (⟨name, free, row⟩ | row) <;> obtain ⟨f, among, same⟩ := List.mem_map.mp row
    · exact ⟨f, among, (field_cut _ _ _ _ (identifier_colon f.wire) free same).symm⟩
    · have last := congrArg (fun s => s.toList.getLast?) same
      simp [Field.row, List.getLast?_cons] at last
  · rintro ⟨f, among, rfl⟩
    exact .inl ⟨f.name, identifier_colon f.wire, List.mem_map.mpr ⟨f, among, rfl⟩⟩

theorem alias_gives (runtime text : String) (doc : List String) (name : String) (type : TypeExpr) :
    Gives runtime (.alias doc name type) text ↔ text = type.text runtime := by
  rw [gives_member, NamedType.members]
  constructor
  · rintro (⟨field, _, row⟩ | row) <;> have same := List.mem_singleton.mp row
    · have last := congrArg (fun s => s.toList.getLast?) same
      simp [List.getLast?_cons] at last
    · exact (String.append_right_inj _).mp ((String.append_left_inj _).mp same)
  · rintro rfl
    exact .inr (List.mem_singleton.mpr rfl)

theorem type_typed (runtime : String) (t : NamedType) :
    List.Forall₂ (MemberOf runtime) (t.members runtime) t.expressions := by
  cases t with
  | record r => exact record_typed runtime r
  | «alias» doc name type => exact .cons (.alias name type) .nil

theorem data_members (runtime : String) (m : DataModules) :
    List.Forall₂ (MemberOf runtime) (textsOf isMember (Code.piecesAll 0 (m.code runtime)))
      m.expressions := by
  have types : textsOf isMember (Code.piecesAll 0 (m.typesModule runtime)) =
      m.types.flatMap (NamedType.members runtime) := by
    have doc : "/// Types defined by the `" ++ m.domain ++ "` domain." =
        "/// " ++ ("Types defined by the `" ++ m.domain ++ "` domain.") :=
      String.toList_injective (by simp)
    rw [DataModules.typesModule, doc, module_members]
    exact closed_members m.types _ _ (type_members runtime 1)
  have records : ∀ kind, textsOf isMember (Code.piecesAll 0 (m.kindCode runtime kind)) =
      (m.records kind).flatMap (Record.members runtime) := by
    intro kind
    rw [DataModules.kindCode]
    split
    · rename_i none_
      rw [List.isEmpty_iff.mp none_]
      rfl
    · rw [module_members]
      exact closed_members (m.records kind) _ _ (record_members runtime 1)
  have typed : List.Forall₂ (MemberOf runtime) (m.types.flatMap (NamedType.members runtime))
      (m.types.flatMap NamedType.expressions) :=
    List.rel_flatMap (R := Eq) (List.forall₂_refl m.types) fun t _ same => same ▸ type_typed runtime t
  have kinds : ∀ kind, List.Forall₂ (MemberOf runtime)
      ((m.records kind).flatMap (Record.members runtime)) ((m.records kind).flatMap Record.expressions) :=
    fun kind => List.rel_flatMap (R := Eq) (List.forall₂_refl _) fun r _ same => same ▸ record_typed runtime r
  rw [m.code_kinds runtime, Code.pieces_all_append, Code.pieces_all_append, Code.pieces_all_append,
    texts_of_append, texts_of_append, texts_of_append, types, records, records, records]
  simpa [DataModules.expressions] using
    List.rel_append typed (List.rel_append (kinds .params) (List.rel_append (kinds .results) (kinds .events)))

end ProtocolStubs.Crate
