set_option autoImplicit false

namespace ProtocolStubs

-- Whatever a document may leave out is optional here too, so that an absent list and an empty one stay
-- apart.
structure Items where
  kind : Option String
  reference : Option String
deriving DecidableEq, Repr, Inhabited

structure Property where
  name : String
  description : Option String
  kind : Option String
  reference : Option String
  values : Option (List String)
  items : Option Items
  optional : Option Bool
  experimental : Option Bool
  deprecated : Option Bool
deriving DecidableEq, Repr, Inhabited

structure TypeDef where
  id : String
  description : Option String
  kind : Option String
  values : Option (List String)
  properties : Option (List Property)
  items : Option Items
  experimental : Option Bool
  deprecated : Option Bool
deriving DecidableEq, Repr, Inhabited

-- A request with its reply; `redirect` names the domain it was moved to.
structure Command where
  name : String
  description : Option String
  parameters : Option (List Property)
  returns : Option (List Property)
  experimental : Option Bool
  deprecated : Option Bool
  redirect : Option String
deriving DecidableEq, Repr, Inhabited

structure Event where
  name : String
  description : Option String
  parameters : Option (List Property)
  experimental : Option Bool
  deprecated : Option Bool
deriving DecidableEq, Repr, Inhabited

structure Domain where
  name : String
  description : Option String
  experimental : Option Bool
  deprecated : Option Bool
  dependencies : Option (List String)
  types : Option (List TypeDef)
  commands : List Command
  events : Option (List Event)
deriving DecidableEq, Repr, Inhabited

structure Version where
  major : String
  minor : String
deriving DecidableEq, Repr, Inhabited

structure Document where
  version : Option Version
  domains : List Domain
deriving DecidableEq, Repr, Inhabited

def isSet (flag : Option Bool) : Bool := flag == some true

namespace Property

def isOptional (p : Property) : Bool := isSet p.optional

end Property

inductive ArgumentForm where
  | none
  | required
  | omittable
deriving DecidableEq, Repr

namespace Command

def params (c : Command) : List Property := c.parameters.getD []

def results (c : Command) : List Property := c.returns.getD []

def hasParams (c : Command) : Bool := !c.params.isEmpty

def hasResults (c : Command) : Bool := !c.results.isEmpty

def hasMandatoryParams (c : Command) : Bool := c.params.any fun p => !p.isOptional

-- Parameters may be left out as a whole when each of them is optional.
def argumentForm (c : Command) : ArgumentForm :=
  if !c.hasParams then .none else if c.hasMandatoryParams then .required else .omittable

end Command

namespace Event

def params (e : Event) : List Property := e.parameters.getD []

def isSignal (e : Event) : Bool := e.params.isEmpty

end Event

namespace Domain

def typeDefs (d : Domain) : List TypeDef := d.types.getD []

def eventList (d : Domain) : List Event := d.events.getD []

def hasEvents (d : Domain) : Bool := !d.eventList.isEmpty

def isExperimental (d : Domain) : Bool := isSet d.experimental

def isDeprecated (d : Domain) : Bool := isSet d.deprecated

def typeDef? (d : Domain) (id : String) : Option TypeDef := d.typeDefs.find? fun t => t.id == id

-- Fields of the types, then parameters and results command by command, then event payloads.
def properties (d : Domain) : List Property :=
  d.typeDefs.flatMap (fun t => t.properties.getD []) ++
    d.commands.flatMap (fun c => c.params ++ c.results) ++
    d.eventList.flatMap Event.params

end Domain

namespace Document

def empty : Document := ⟨none, []⟩

def domain? (doc : Document) (name : String) : Option Domain :=
  doc.domains.find? fun d => d.name == name

-- The domains of both in order; the first version present stays.
def merge (doc other : Document) : Document where
  version := doc.version <|> other.version
  domains := doc.domains ++ other.domains

end Document

end ProtocolStubs
