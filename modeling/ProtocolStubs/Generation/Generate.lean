import ProtocolStubs.Crate.File
import ProtocolStubs.Script.File

set_option autoImplicit false

namespace ProtocolStubs

def Document.filteredDomains (doc : Document) (f : Filter) : List Domain :=
  doc.domains.map fun d => d.filtered f

def Document.generate (doc : Document) (options : Options) :
    Except Crate.ItemError (List GeneratedFile) :=
  let domains := doc.filteredDomains options.filter
  match options.target with
  | .typeScript => .ok (Script.files domains options)
  | .rust => Crate.files domains options

end ProtocolStubs
