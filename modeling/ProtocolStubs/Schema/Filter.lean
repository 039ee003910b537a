import ProtocolStubs.Schema.Document

set_option autoImplicit false

namespace ProtocolStubs

structure Filter where
  skipExperimental : Bool
  skipDeprecated : Bool
deriving DecidableEq, Repr, Inhabited

namespace Filter

def none : Filter := ⟨false, false⟩

def keeps (f : Filter) (experimental deprecated : Option Bool) : Bool :=
  !(f.skipExperimental && isSet experimental || f.skipDeprecated && isSet deprecated)

def keepsCommand (f : Filter) (c : Command) : Bool := f.keeps c.experimental c.deprecated

def keepsEvent (f : Filter) (e : Event) : Bool := f.keeps e.experimental e.deprecated

def or (f g : Filter) : Filter :=
  ⟨f.skipExperimental || g.skipExperimental, f.skipDeprecated || g.skipDeprecated⟩

end Filter

-- Only commands and events are left out: types stay, so that references from the members that remain
-- still resolve.
def Domain.filtered (d : Domain) (f : Filter) : Domain :=
  { d with
    commands := d.commands.filter f.keepsCommand
    events := d.events.map fun events => events.filter f.keepsEvent }

end ProtocolStubs
