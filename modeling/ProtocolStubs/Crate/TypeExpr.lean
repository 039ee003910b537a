import ProtocolStubs.Crate.Identifier
import ProtocolStubs.Crate.TypeGraph

set_option autoImplicit false

namespace ProtocolStubs.Crate

inductive TypeExpr where
  | value
  | string
  | float
  | bool
  -- A named type of the domain itself, or of the domain in another module.
  | path (module : Option String) (name : String)
  | boxed (inner : TypeExpr)
  | vector (item : TypeExpr)
deriving DecidableEq, Repr

structure TypeIndex where
  records : List String
  graph : TypeGraph
deriving DecidableEq, Repr

namespace TypeIndex

def recordNames (d : Domain) : List String :=
  (d.typeDefs.filter fun t => t.properties.isSome).map fun t => qualified d.name t.id

def ofDomains (domains : List Domain) : TypeIndex where
  records := domains.flatMap recordNames
  graph := .ofDomains domains

def isRecord (index : TypeIndex) (ref : TypeRef) : Bool := index.records.contains ref.qualifiedName

end TypeIndex

-- Dynamic values are named by their full path, which no type of a schema can hide.
def valuePath (runtime : String) : String := runtime ++ "::Value"

namespace TypeExpr

def ofPrimitive : Primitive → TypeExpr
  | .object => .value
  | .array => .vector .value
  | .string => .string
  | .number => .float
  | .boolean => .bool
  | .any => .value

def ofRef (domain : String) (ref : TypeRef) : TypeExpr :=
  .path (if ref.isLocal domain then none else some (identifier ref.domain)) (typeName ref.name)

def ofShape (domain : String) : Shape → TypeExpr
  | .reference raw => ofRef domain (TypeRef.parse raw domain)
  | .arrayOf item => .vector (ofPrimitive item)
  | .arrayOfReference raw => .vector (ofRef domain (TypeRef.parse raw domain))
  | .enumeration _ => .string
  | .primitive p => ofPrimitive p
  | .unknown => .value

def ofDefinition (domain : String) (d : Definition) : TypeExpr := ofShape domain d.shape

-- The value as a field holds it. A record that is held directly is boxed, so that records which contain
-- one another have a finite size.
def ofField (index : TypeIndex) (domain : String) (d : Definition) : TypeExpr :=
  match d.shape with
  | .reference raw =>
    let ref := TypeRef.parse raw domain
    if index.isRecord ref then .boxed (ofRef domain ref) else ofRef domain ref
  | shape => ofShape domain shape

def text (runtime : String) : TypeExpr → String
  | .value => valuePath runtime
  | .string => "String"
  | .float => "f64"
  | .bool => "bool"
  | .path none name => "types::" ++ name
  | .path (some module) name => module ++ "::types::" ++ name
  | .boxed inner => "Box<" ++ inner.text runtime ++ ">"
  | .vector item => "Vec<" ++ item.text runtime ++ ">"

end TypeExpr

end ProtocolStubs.Crate
