import ProtocolStubs.Schema.Name
import ProtocolStubs.Schema.Shape
import ProtocolStubs.Script.Literal
import ProtocolStubs.Text.Lines

set_option autoImplicit false

namespace ProtocolStubs.Script

-- A named type is always written with the namespace of its domain, also inside that namespace.
inductive TypeExpr where
  | named (ref : TypeRef)
  | builtin (p : Primitive)
  | array (item : TypeExpr)
  | oneOf (values : List String)
  | unknown
deriving DecidableEq, Repr

def builtinText : Primitive → String
  | .object => "object"
  | .array => "any[]"
  | .string => "string"
  | .number => "number"
  | .boolean => "boolean"
  | .any => "any"

namespace TypeExpr

def ofShape (domain : String) : Shape → TypeExpr
  | .reference raw => .named (TypeRef.parse raw domain)
  | .arrayOf item => .array (.builtin item)
  | .arrayOfReference raw => .array (.named (TypeRef.parse raw domain))
  | .enumeration values => .oneOf values
  | .primitive p => .builtin p
  | .unknown => .unknown

def ofDefinition (domain : String) (d : Definition) : TypeExpr := ofShape domain d.shape

-- A choice among no values is the empty type.
def text : TypeExpr → String
  | .named ref => ref.qualifiedName
  | .builtin p => builtinText p
  | .array item => item.text ++ "[]"
  | .oneOf [] => "never"
  | .oneOf values => Text.joinWith " | " (values.map literal)
  | .unknown => "unknown"

end TypeExpr

end ProtocolStubs.Script
