import ProtocolStubs.Generation.Generate
import ProtocolStubs.Proofs.Crate.Respelling
import ProtocolStubs.Proofs.Script.Respelling

set_option autoImplicit false

namespace ProtocolStubs

theorem generate_respelled (doc other : Document) (options : Options)
    (respells : doc.Respells other) : doc.generate options = other.generate options := by
  have domains : List.Forall₂ Domain.Respells (doc.filteredDomains options.filter)
      (other.filteredDomains options.filter) :=
    List.rel_map (fun d e both => Domain.filtered_respell d e both options.filter) respells.domains
  rw [Document.generate, Document.generate]
  cases options.target with
  | typeScript => exact congrArg Except.ok (Script.files_respelled _ _ options domains)
  | rust => exact Crate.files_respelled _ _ options domains

def spelledOut : Document :=
  ⟨some ⟨"1", "3"⟩, [⟨"DOM", some "", some false, none, some [],
    some [⟨"Node", none, some "integer", none,
      some [⟨"next", none, none, some "DOM.Node", none, none, some false, none, none⟩], none, none,
      none⟩], [⟨"hide", none, some [], none, none, none, some "Overlay"⟩], some []⟩]⟩

def inShort : Document :=
  ⟨none, [⟨"DOM", none, none, none, none,
    some [⟨"Node", none, some "number", none,
      some [⟨"next", none, none, some "Node", none, none, none, none, none⟩], none, none,
      none⟩], [⟨"hide", none, none, none, none, none, none⟩], none⟩]⟩

theorem spelled_out_in_short : spelledOut.Respells inShort := by
  have next : Property.Respells "DOM"
      ⟨"next", none, none, some "DOM.Node", none, none, some false, none, none⟩
      ⟨"next", none, none, some "Node", none, none, none, none, none⟩ :=
    ⟨rfl, .same none, .none, .some (.unqualify "Node" (by decide) (by decide)), rfl, .none, .absent,
      .same none, .same none⟩
  refine ⟨.cons ⟨rfl, .absent, .absent, .same none, .nil, ?_, ?_, .nil⟩ .nil⟩
  · exact .cons ⟨rfl, .same none, .some .number, rfl, .some (.cons next .nil), .none, .same none,
      .same none⟩ .nil
  · exact .cons ⟨rfl, .same none, .nil, .nil, .same none, .same none⟩ .nil

theorem generate_in_short : spelledOut.Respells inShort ∧
    spelledOut.generate { target := .rust } = inShort.generate { target := .rust } :=
  ⟨spelled_out_in_short, generate_respelled spelledOut inShort _ spelled_out_in_short⟩

end ProtocolStubs
