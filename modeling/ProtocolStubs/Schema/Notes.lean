import ProtocolStubs.Schema.Document
import ProtocolStubs.Text.Lines

set_option autoImplicit false

namespace ProtocolStubs

structure Notes where
  description : Option String
  experimental : Option Bool
  deprecated : Option Bool
  optional : Option Bool
deriving DecidableEq, Repr

namespace Notes

def flags (n : Notes) : List (Option Bool × String) :=
  [(n.experimental, "experimental"), (n.deprecated, "deprecated"), (n.optional, "optional")]

def setFlags (n : Notes) : List String :=
  (n.flags.filter fun flag => isSet flag.1).map fun flag => flag.2

def descriptionLines (n : Notes) : List String :=
  (n.description.elim [] Text.lines).map Text.trimEnd

def lines (tag : String → String) (n : Notes) : List String :=
  n.descriptionLines ++ n.setFlags.map tag

end Notes

def Domain.notes (d : Domain) : Notes := ⟨d.description, d.experimental, d.deprecated, none⟩

def TypeDef.notes (t : TypeDef) : Notes := ⟨t.description, t.experimental, t.deprecated, none⟩

def Command.notes (c : Command) : Notes := ⟨c.description, c.experimental, c.deprecated, none⟩

def Event.notes (e : Event) : Notes := ⟨e.description, e.experimental, e.deprecated, none⟩

def Property.notes (p : Property) : Notes := ⟨p.description, p.experimental, p.deprecated, p.optional⟩

end ProtocolStubs
