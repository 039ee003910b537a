import ProtocolStubs.Proofs.Crate.PayloadNames
import ProtocolStubs.Proofs.Script.PayloadNames

set_option autoImplicit false

namespace ProtocolStubs

open Text (OneLine)

theorem payload_names_defined (d : Domain) (known : List String) (index : Crate.TypeIndex)
    (options : Options) (path : String) (kind : PayloadKind) (lines : ∀ name ∈ d.names, OneLine name) :
    Script.Agrees d kind (Script.client d known options) (.ofDomain d)
      (GeneratedFile.ofSource path (Script.domainText d known options)).rows ∧
    ('<' ∉ d.name.toList → ∃ text, Crate.domainText d known index options = .ok text) ∧
    ∀ text, Crate.domainText d known index options = .ok text →
      Crate.Agrees index options.runtimeCrate d kind (.ofDomain d) (.ofDomain index d)
        (GeneratedFile.ofSource path text).rows := by
  refine ⟨?_, ?_, ?_⟩
  · rw [Script.domain_rows]
    exact Script.file_agrees d known options kind lines
  · intro plain
    obtain ⟨text, written, _⟩ :=
      Crate.domain_text_written d known index options (Crate.type_name_plain d.name plain)
    exact ⟨text, written⟩
  · intro text written
    rw [Layout.rows_of_source, Crate.domain_text_rows d known index options text written]
    exact Crate.file_agrees d known index options kind lines

-- `seek` has a parameter that may be left out, `pause` an empty list of parameters and a result, `stop`
-- neither; `ended` carries nothing and `moved` does.
def media : Domain where
  name := "Media"
  description := none
  experimental := none
  deprecated := none
  dependencies := none
  types := none
  commands :=
    [⟨"seek", none, some [⟨"at", none, some "number", none, none, none, some true, none, none⟩], none, none,
        none, none⟩,
      ⟨"pause", none, some [], some [⟨"at", none, some "number", none, none, none, none, none, none⟩], none,
        none, none⟩,
      ⟨"stop", none, none, none, none, none, none⟩]
  events :=
    some [⟨"ended", none, none, none, none⟩,
      ⟨"moved", none, some [⟨"by", none, some "number", none, none, none, none, none, none⟩], none, none⟩]

theorem media_payloads : (∀ name ∈ media.names, OneLine name) ∧
    Script.Agrees media .params (Script.client media [] {}) (.ofDomain media)
      (GeneratedFile.ofSource "Media.ts" (Script.domainText media [] {})).rows ∧
    ∃ text, Crate.domainText media [] (.ofDomains [media]) {} = .ok text ∧
      Crate.Agrees (.ofDomains [media]) "cdp_session" media .events (.ofDomain media)
        (.ofDomain (.ofDomains [media]) media) (GeneratedFile.ofSource "media.rs" text).rows := by
  have lines : ∀ name ∈ media.names, OneLine name := by decide
  obtain ⟨script, _, _⟩ := payload_names_defined media [] (.ofDomains [media]) {} "Media.ts" .params lines
  obtain ⟨_, renders, crate⟩ :=
    payload_names_defined media [] (.ofDomains [media]) {} "media.rs" .events lines
  obtain ⟨text, written⟩ := renders (by decide)
  exact ⟨lines, script, text, written, crate text written⟩

end ProtocolStubs
