import ProtocolStubs.Decimal.Shortest

set_option autoImplicit false

namespace ProtocolStubs.Decimal

inductive Double where
  | finite (x : Binary64)
  | infinite (negative : Bool)
  | notANumber
deriving DecidableEq, Repr, Inhabited

namespace Double

def ofDecimal (negative : Bool) (digits : Nat) (exponent : Int) : Double :=
  match Binary64.ofDecimal? negative digits exponent with
  | some x => .finite x
  | none => .infinite negative

def text : Double → String
  | .finite x => x.text
  | .infinite negative => if negative then "-inf" else "inf"
  | .notANumber => "NaN"

end Double

end ProtocolStubs.Decimal
