import ProtocolStubs.Schema.Document

set_option autoImplicit false

namespace ProtocolStubs

inductive Primitive where
  | object
  | array
  | string
  | number
  | boolean
  | any
deriving DecidableEq, Repr

-- Integers are numbers; an unknown kind has no primitive.
def Primitive.ofKind? (kind : String) : Option Primitive :=
  if kind = "object" then some .object
  else if kind = "array" then some .array
  else if kind = "string" then some .string
  else if kind = "integer" ∨ kind = "number" then some .number
  else if kind = "boolean" then some .boolean
  else if kind = "any" then some .any
  else none

def Primitive.name : Primitive → String
  | .object => "Object"
  | .array => "Array"
  | .string => "String"
  | .number => "Number"
  | .boolean => "Boolean"
  | .any => "Any"

inductive Shape where
  | reference (raw : String)
  | arrayOf (item : Primitive)
  | arrayOfReference (raw : String)
  | enumeration (values : List String)
  | primitive (p : Primitive)
  | unknown
deriving DecidableEq, Repr

structure Definition where
  kind : Option String
  reference : Option String
  values : Option (List String)
  items : Option Items
deriving DecidableEq, Repr

def Property.definition (p : Property) : Definition := ⟨p.kind, p.reference, p.values, p.items⟩

def TypeDef.definition (t : TypeDef) : Definition := ⟨t.kind, none, t.values, t.items⟩

def Items.definition (i : Items) : Definition := ⟨i.kind, i.reference, none, none⟩

namespace Definition

def itemReference (d : Definition) : Option String := d.items.bind Items.reference

-- Array items of a known primitive kind, else of a named type.
def itemsShape? (items : Items) : Option Shape :=
  match items.kind.bind Primitive.ofKind?, items.reference with
  | some item, _ => some (.arrayOf item)
  | none, some raw => some (.arrayOfReference raw)
  | none, none => none

def plainShape (d : Definition) : Shape :=
  match d.values, d.kind.bind Primitive.ofKind? with
  | some values, _ => .enumeration values
  | none, some p => .primitive p
  | none, none => .unknown

-- Of whichever keys are present one decides, in the order reference, array items, listed values, plain
-- kind.
def shape (d : Definition) : Shape :=
  match d.reference with
  | some raw => .reference raw
  | none => (d.items.bind itemsShape?).getD d.plainShape

end Definition

def Shape.target? : Shape → Option String
  | .reference raw => some raw
  | .arrayOfReference raw => some raw
  | _ => none

end ProtocolStubs
