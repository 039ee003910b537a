import ProtocolStubs.Decimal.Shortest
import ProtocolStubs.Json.Literal

set_option autoImplicit false

namespace ProtocolStubs.Json

open ProtocolStubs.Decimal

-- An integer of 64 bits, signed or unsigned, is kept as an integer however it was written; any other
-- finite number is the nearest double.
inductive Number where
  | int (i : Int)
  | real (x : Binary64)
deriving DecidableEq, Repr, BEq, Inhabited

def leastSigned : Int := -9223372036854775808

def greatestSigned : Int := 9223372036854775807

def greatestUnsigned : Int := 18446744073709551615

def isWireInt (i : Int) : Bool := leastSigned ≤ i && i ≤ greatestUnsigned

def clamp (least greatest i : Int) : Int := max least (min greatest i)

-- The integer of the range that, as a double, is that number. The double just above a range stands
-- for the greatest integer in it.
def integerIn? (least greatest : Int) (x : Binary64) : Option Int :=
  match x.toInt? with
  | none => none
  | some i =>
    let near := clamp least greatest i
    if (Binary64.ofInt? near).bind Binary64.toInt? = some i then some near else none

namespace Number

def ofReal (x : Binary64) : Number :=
  match integerIn? leastSigned greatestSigned x, integerIn? 0 greatestUnsigned x with
  | some i, _ => .int i
  | none, some i => .int i
  | none, none => .real x

-- An integral literal out of range and a number too large for a double have no value.
def ofLiteral? (l : Literal) : Option Number :=
  if l.integral then
    let i : Int := if l.negative then -(l.digits : Int) else l.digits
    if isWireInt i then some (.int i) else none
  else (Binary64.ofDecimal? l.negative l.digits l.exponent).map ofReal

def ofText? (s : String) : Option Number :=
  match literalAt? 0 s.toList with
  | some (literal, ⟨[], _⟩) => ofLiteral? literal
  | _ => none

def toReal? : Number → Option Binary64
  | .int i => Binary64.ofInt? i
  | .real x => some x

def text : Number → String
  | .int i => toString i
  | .real x => x.text

-- The number that its text reads as. Integers are written so that they read back; of the doubles
-- some have no text that can be read.
def restated? : Number → Option Number
  | .int i => some (.int i)
  | .real x => ofText? x.text

end Number

end ProtocolStubs.Json
