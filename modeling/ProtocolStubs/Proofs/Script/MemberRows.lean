import Mathlib.Data.List.Forall2
import ProtocolStubs.Proofs.Script.Sections

set_option autoImplicit false

namespace ProtocolStubs.Script

open Layout

def Record.expressions (r : Record) : List TypeExpr := r.fields.map Field.type

def NamedType.expressions : NamedType → List TypeExpr
  | .record r => r.expressions
  | .alias _ _ type => [type]

def DataSection.expressions (s : DataSection) : List TypeExpr :=
  s.types.flatMap NamedType.expressions ++ [PayloadKind.params, .results, .events].flatMap fun kind =>
    (s.records kind).flatMap Record.expressions

-- A text of the data section that gives a type: no comment, and no part of a block's frame.
def isMember (text : String) : Bool := text.toList.getLast? = some ';'

def Field.row (f : Field) : String :=
  f.name ++ (if f.optional then "?" else "") ++ ": " ++ f.type.text ++ ";"

def Record.members (r : Record) : List String := r.fields.map Field.row

def NamedType.members : NamedType → List String
  | .record r => r.members
  | .alias _ name type => ["export type " ++ name ++ " = " ++ type.text ++ ";"]

section Members

variable (depth : Nat)

theorem opener_other (header : String) : isMember (header ++ " \x7b") = false := by
  simp [isMember]

theorem comment_members (doc : List String) :
    textsOf isMember (Code.piecesAll depth (Comment.star doc)) = [] := by
  match doc with
  | [] => rfl
  | [_] => simp [Comment.star, Comment.starText, textsOf, Code.piecesAll, Code.pieces, isMember,
      List.getLast?_cons]
  | _ :: _ :: _ => simp [Comment.star, Comment.starText, textsOf, Code.piecesAll, Code.pieces, isMember,
      List.getLast?_cons]

theorem record_members (r : Record) : textsOf isMember (Code.piecesAll depth r.code) = r.members := by
  have fields : ∀ f : Field, textsOf isMember (Code.piecesAll (depth + 1) f.code) = [f.row] := by
    intro f
    rw [Field.code, Code.pieces_all_append, texts_of_append, comment_members]
    simp [textsOf, Code.piecesAll, Code.pieces, isMember, Field.row, List.getLast?_cons]
  rw [Record.code, Code.pieces_all_append, texts_of_append, comment_members,
    texts_of_block _ _ _ _ (opener_other _) (by decide), texts_of_code]
  simp only [fields]
  exact List.map_eq_flatMap.symm

theorem type_members (t : NamedType) : textsOf isMember (Code.piecesAll depth t.code) = t.members := by
  cases t with
  | record r => exact record_members depth r
  | «alias» doc name type =>
    rw [NamedType.code, Code.pieces_all_append, texts_of_append, comment_members]
    simp [textsOf, Code.piecesAll, Code.pieces, isMember, NamedType.members, List.getLast?_cons]

theorem closed_members {α : Type} (parts : List α) (code : α → List Code) (members : α → List String)
    (each : ∀ part, textsOf isMember (Code.piecesAll depth (code part)) = members part) :
    textsOf isMember (Code.piecesAll depth (parts.flatMap fun part => code part ++ [.blank])) =
      parts.flatMap members := by
  rw [texts_of_code]
  refine List.flatMap_congr fun part _ => ?_
  rw [Code.pieces_all_append, texts_of_append, each]
  exact List.append_nil _

end Members

-- The row gives that type to a field, which may be left out or not, or to an alias.
inductive MemberOf : String → TypeExpr → Prop where
  | field (name : String) (e : TypeExpr) : MemberOf (name ++ ": " ++ e.text ++ ";") e
  | omittable (name : String) (e : TypeExpr) : MemberOf (name ++ "?: " ++ e.text ++ ";") e
  | alias (name : String) (e : TypeExpr) : MemberOf ("export type " ++ name ++ " = " ++ e.text ++ ";") e

theorem record_typed (r : Record) : List.Forall₂ MemberOf r.members r.expressions := by
  rw [Record.members, Record.expressions, List.forall₂_map_left_iff, List.forall₂_map_right_iff]
  refine List.forall₂_same.mpr fun f _ => ?_
  cases left : f.optional with
  | true =>
    have row : f.row = f.name ++ "?: " ++ f.type.text ++ ";" :=
      String.toList_injective (by simp [Field.row, left])
    exact row ▸ .omittable f.name f.type
  | false =>
    have row : f.row = f.name ++ ": " ++ f.type.text ++ ";" :=
      String.toList_injective (by simp [Field.row, left])
    exact row ▸ .field f.name f.type

theorem type_typed (t : NamedType) : List.Forall₂ MemberOf t.members t.expressions := by
  cases t with
  | record r => exact record_typed r
  | «alias» doc name type => exact .cons (.alias name type) .nil

theorem data_members (s : DataSection) :
    List.Forall₂ MemberOf (textsOf isMember (Code.piecesAll 0 s.code)) s.expressions := by
  have records : ∀ kind, textsOf isMember (s.kindPieces kind) =
      (s.records kind).flatMap Record.members := by
    intro kind
    rw [DataSection.kindPieces]
    split
    · rename_i none_
      rw [List.isEmpty_iff.mp none_]
      rfl
    · rw [texts_of_block _ _ _ _ (opener_other _) (by decide)]
      exact closed_members 2 (s.records kind) _ _ (record_members 2)
  have types := closed_members 1 s.types NamedType.code NamedType.members (type_members 1)
  have typed : List.Forall₂ MemberOf (s.types.flatMap NamedType.members)
      (s.types.flatMap NamedType.expressions) :=
    List.rel_flatMap (R := Eq) (List.forall₂_refl s.types) fun t _ same => same ▸ type_typed t
  have kinds : ∀ kind, List.Forall₂ MemberOf ((s.records kind).flatMap Record.members)
      ((s.records kind).flatMap Record.expressions) := fun kind =>
    List.rel_flatMap (R := Eq) (List.forall₂_refl (s.records kind)) fun r _ same => same ▸ record_typed r
  rw [DataSection.code, Code.pieces_all_append, texts_of_append, comment_members,
    texts_of_block _ _ _ _ (opener_other _) (by decide)]
  change List.Forall₂ MemberOf ([] ++ textsOf isMember (Code.piecesAll 1 s.body)) s.expressions
  rw [s.body_pieces, texts_of_append, texts_of_append, texts_of_append, DataSection.typesCode, types,
    records, records, records]
  simpa [DataSection.expressions] using
    List.rel_append typed (List.rel_append (kinds .params) (List.rel_append (kinds .results) (kinds .events)))

end ProtocolStubs.Script
