import ProtocolStubs.Proofs.Schema.Payloads
import ProtocolStubs.Proofs.Script.Pieces

set_option autoImplicit false

namespace ProtocolStubs.Script

open Layout
open Text (OneLine)

def space : PayloadKind → String
  | .params => "Params"
  | .results => "Result"
  | .events => "EventParams"

namespace DataSection

def records (s : DataSection) : PayloadKind → List Record
  | .params => s.params
  | .results => s.results
  | .events => s.payloads

theorem records_needed (d : Domain) (kind : PayloadKind) : (ofDomain d).records kind =
    (kind.needed d).map fun entry =>
      .ofProperties d.name entry.1 (kind.doc d.name entry.1) entry.2 := by
  cases kind <;> simp only [PayloadKind.needed, List.map_map] <;> rfl

def recordsCode (s : DataSection) (kind : PayloadKind) : List Code :=
  (s.records kind).flatMap fun r => r.code ++ [Code.blank]

def kindPieces (s : DataSection) (kind : PayloadKind) : List Piece :=
  if (s.records kind).isEmpty then []
  else Code.piecesAll 1 (Code.block ("export namespace " ++ space kind) (s.recordsCode kind))

def body (s : DataSection) : List Code :=
  s.typesCode ++
    (if s.params.isEmpty then [] else inner "Params" s.params ++ [Code.blank]) ++
    (if s.results.isEmpty then [] else inner "Result" s.results ++ [Code.blank]) ++
    (if s.payloads.isEmpty then [] else inner "EventParams" s.payloads)

theorem body_pieces (s : DataSection) : Code.piecesAll 1 s.body =
    Code.piecesAll 1 s.typesCode ++ s.kindPieces .params ++ s.kindPieces .results ++
      s.kindPieces .events := by
  have without : ∀ (missing : Bool) (code : List Code),
      Code.piecesAll 1 (if missing then [] else code) = if missing then [] else Code.piecesAll 1 code := by
    intro missing code
    cases missing <;> rfl
  have closed : ∀ code : List Code, Code.piecesAll 1 (code ++ [.blank]) = Code.piecesAll 1 code :=
    fun code => (Code.pieces_all_append 1 code _).trans (List.append_nil _)
  simp only [body, Code.pieces_all_append, without, closed]
  rfl

theorem kind_part (s : DataSection) (kind : PayloadKind) :
    s.kindPieces kind <:+: Code.piecesAll 1 s.body := by
  rw [body_pieces]
  cases kind with
  | params => exact ⟨Code.piecesAll 1 s.typesCode, s.kindPieces .results ++ s.kindPieces .events, by simp⟩
  | results => exact ⟨_, s.kindPieces .events, rfl⟩
  | events => exact (List.suffix_append _ _).isInfix

theorem types_part (s : DataSection) : Code.piecesAll 1 s.typesCode <:+: Code.piecesAll 1 s.body := by
  rw [body_pieces, List.append_assoc, List.append_assoc]
  exact (List.prefix_append _ _).isInfix

theorem body_member (s : DataSection) (piece : Piece) (member : piece ∈ Code.piecesAll 1 s.body) :
    piece ∈ Code.piecesAll 0 s.code := by
  have block := Code.block_member 0 ("export namespace " ++ s.name) s.body piece member
  rw [code, Code.pieces_all_append]
  exact List.mem_append_right _ block

theorem type_part (s : DataSection) (t : NamedType) (member : t ∈ s.types) :
    Code.piecesAll 1 t.code <:+: Code.piecesAll 1 s.body := by
  have own : t.code <:+: s.typesCode :=
    (List.prefix_append _ [Code.blank]).isInfix.trans
      (infix_flat_map s.types t (fun t => t.code ++ [Code.blank]) member)
  exact (Code.pieces_all_part 1 _ _ own).trans s.types_part

theorem record_part (s : DataSection) (kind : PayloadKind) (r : Record) (member : r ∈ s.records kind) :
    Code.piecesAll 2 r.code <:+: Code.piecesAll 2 (s.recordsCode kind) :=
  Code.pieces_all_part 2 _ _
    ((List.prefix_append _ [Code.blank]).isInfix.trans
      (infix_flat_map (s.records kind) r (fun r => r.code ++ [Code.blank]) member))

theorem record_member (s : DataSection) (kind : PayloadKind) (r : Record) (piece : Piece)
    (member : r ∈ s.records kind) (own : piece ∈ Code.piecesAll 2 r.code) :
    piece ∈ Code.piecesAll 0 s.code := by
  have inside : piece ∈ s.kindPieces kind := by
    have given : (s.records kind).isEmpty = false :=
      List.isEmpty_eq_false_iff.mpr (List.ne_nil_of_mem member)
    rw [kindPieces, given, if_neg Bool.false_ne_true]
    exact Code.block_member 1 _ _ piece ((s.record_part kind r member).subset own)
  exact s.body_member piece ((s.kind_part kind).subset inside)

end DataSection

theorem namespace_encloses (d : Domain) (known : List String) (options : Options) (line : OneLine d.name) :
    Encloses indent 0 ("export namespace " ++ d.name)
      (rowsOf indent (Code.piecesAll 1 (DataSection.ofDomain d).body))
      (rowsOf indent (domainPieces d known options)) := by
  have header : OneLine ("export namespace " ++ d.name) := (one_line_append _ _).mpr ⟨by decide, line⟩
  apply encloses_within indent 0 _ _ _ _ (block_encloses indent 0 _ _ header)
  refine List.IsInfix.trans (rows_part indent _ _ ?_) (rows_part indent _ _ (data_part d known options))
  rw [DataSection.code, Code.pieces_all_append]
  exact (List.suffix_append _ _).isInfix

end ProtocolStubs.Script
