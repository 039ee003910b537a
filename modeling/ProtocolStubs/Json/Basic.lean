set_option autoImplicit false

namespace ProtocolStubs

-- Text as read keeps its numbers as decimal literals; values on the wire have numbers in a normal form.
-- Members keep their order.
inductive Json (ν : Type) where
  | null
  | flag (b : Bool)
  | number (n : ν)
  | text (s : String)
  | list (items : List (Json ν))
  | object (members : List (String × Json ν))
deriving BEq, Repr, Inhabited

abbrev Members (ν : Type) := List (String × Json ν)

namespace Json

variable {ν : Type}

def isNull : Json ν → Bool
  | .null => true
  | _ => false

end Json

end ProtocolStubs
