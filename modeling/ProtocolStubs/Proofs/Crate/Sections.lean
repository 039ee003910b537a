import ProtocolStubs.Proofs.Crate.Pieces
import ProtocolStubs.Proofs.Schema.Payloads

set_option autoImplicit false

namespace ProtocolStubs.Crate

open Layout
open Text (OneLine)

def space : PayloadKind → String
  | .params => "params"
  | .results => "results"
  | .events => "events"

namespace DataModules

def records (m : DataModules) : PayloadKind → List Record
  | .params => m.params
  | .results => m.results
  | .events => m.payloads

theorem records_needed (index : TypeIndex) (d : Domain) (kind : PayloadKind) :
    (ofDomain index d).records kind = (kind.needed d).map fun entry =>
      .ofProperties index d.name none entry.1 (kind.doc d.name entry.1) entry.2 := by
  cases kind <;> simp only [PayloadKind.needed, List.map_map] <;> rfl

def prelude : List Code := [.line "use super::*;", .line "use facet::Facet;", .blank]

section Written

variable (runtime : String) (m : DataModules)

def typesBody : List Code := prelude ++ m.types.flatMap fun t => t.code runtime ++ [Code.blank]

def recordsBody (kind : PayloadKind) : List Code :=
  prelude ++ (m.records kind).flatMap fun r => r.code runtime ++ [Code.blank]

def kindDoc : PayloadKind → String
  | .params => "Command parameters."
  | .results => "Command results."
  | .events => "Event payloads."

def kindCode (kind : PayloadKind) : List Code :=
  if (m.records kind).isEmpty then []
  else .line ("/// " ++ kindDoc kind) ::
    Code.block ("pub mod " ++ space kind) (m.recordsBody runtime kind) ++ [Code.blank]

def typesModule : List Code :=
  .line ("/// Types defined by the `" ++ m.domain ++ "` domain.") ::
    Code.block "pub mod types" (m.typesBody runtime) ++ [Code.blank]

theorem code_kinds : m.code runtime = m.typesModule runtime ++ m.kindCode runtime .params ++
    m.kindCode runtime .results ++ m.kindCode runtime .events := by
  have doc : "/// Types defined by the `" ++ m.domain ++ "` domain." =
      "/// " ++ ("Types defined by the `" ++ m.domain ++ "` domain.") :=
    String.toList_injective (by simp)
  rw [typesModule, doc]
  rfl

theorem types_part : Code.block "pub mod types" (m.typesBody runtime) <:+: m.code runtime := by
  have own : Code.block "pub mod types" (m.typesBody runtime) <:+: m.typesModule runtime :=
    ⟨[_], [.blank], rfl⟩
  rw [code_kinds, List.append_assoc, List.append_assoc]
  exact own.trans (List.prefix_append _ _).isInfix

theorem kind_part (kind : PayloadKind) : m.kindCode runtime kind <:+: m.code runtime := by
  rw [code_kinds]
  cases kind with
  | params =>
    rw [List.append_assoc]
    exact List.infix_append _ _ _
  | results => exact List.infix_append _ _ _
  | events => exact (List.suffix_append _ _).isInfix

theorem kind_block (kind : PayloadKind) (given : m.records kind ≠ []) :
    Code.block ("pub mod " ++ space kind) (m.recordsBody runtime kind) <:+: m.code runtime := by
  refine List.IsInfix.trans ?_ (m.kind_part runtime kind)
  rw [kindCode, List.isEmpty_eq_false_iff.mpr given, if_neg Bool.false_ne_true]
  exact ⟨[_], [.blank], rfl⟩

theorem type_part (t : NamedType) (member : t ∈ m.types) : t.code runtime <:+: m.typesBody runtime :=
  ((List.prefix_append _ [Code.blank]).isInfix.trans
    (infix_flat_map m.types t (fun t => t.code runtime ++ [Code.blank]) member)).trans
    (List.suffix_append _ _).isInfix

theorem record_part (kind : PayloadKind) (r : Record) (member : r ∈ m.records kind) :
    r.code runtime <:+: m.recordsBody runtime kind :=
  ((List.prefix_append _ [Code.blank]).isInfix.trans
    (infix_flat_map (m.records kind) r (fun r => r.code runtime ++ [Code.blank]) member)).trans
    (List.suffix_append _ _).isInfix

theorem type_member (t : NamedType) (piece : Piece) (member : t ∈ m.types)
    (own : piece ∈ Code.piecesAll 1 (t.code runtime)) : piece ∈ Code.piecesAll 0 (m.code runtime) := by
  have inside := (Code.pieces_all_part 1 _ _ (m.type_part runtime t member)).subset own
  exact (Code.pieces_all_part 0 _ _ (m.types_part runtime)).subset (Code.block_member 0 _ _ piece inside)

theorem record_member (kind : PayloadKind) (r : Record) (piece : Piece) (member : r ∈ m.records kind)
    (own : piece ∈ Code.piecesAll 1 (r.code runtime)) : piece ∈ Code.piecesAll 0 (m.code runtime) := by
  have inside := (Code.pieces_all_part 1 _ _ (m.record_part runtime kind r member)).subset own
  exact (Code.pieces_all_part 0 _ _ (m.kind_block runtime kind (List.ne_nil_of_mem member))).subset
    (Code.block_member 0 _ _ piece inside)

end Written

end DataModules

section Files

variable (d : Domain) (known : List String) (index : TypeIndex) (options : Options)

theorem module_encloses (header : String) (body : List Code) (line : OneLine header)
    (part : Code.block header body <:+: (DataModules.ofDomain index d).code options.runtimeCrate) :
    Encloses indent 0 header (rowsOf indent (Code.piecesAll 1 body))
      (rowsOf indent (domainPieces d known index options)) :=
  encloses_within indent 0 _ _ _ _ (block_encloses indent 0 header body line)
    ((rows_part indent _ _ (Code.pieces_all_part 0 _ _ part)).trans
      (rows_part indent _ _ (data_part d known index options)))

end Files

end ProtocolStubs.Crate
