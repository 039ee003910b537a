import ProtocolStubs.Decimal.Double
import ProtocolStubs.Json.Number

set_option autoImplicit false

namespace ProtocolStubs.Payload

open ProtocolStubs.Json ProtocolStubs.Decimal

def isWord (i : Int) : Bool := leastSigned ≤ i && i ≤ greatestSigned

def wordOfText? (s : String) : Option Int :=
  let (negative, ⟨digits, _⟩) := signAt s.toList
  if digits.isEmpty || !digits.all Char.isDigit then none
  else
    let magnitude : Int := natOfDigits digits
    let i := if negative then -magnitude else magnitude
    if isWord i then some i else none

def unbounded? (negative : Bool) (letters : List Char) : Option Double :=
  let word := String.ofList (letters.map Char.toLower)
  if word = "inf" ∨ word = "infinity" then some (.infinite negative)
  else if word = "nan" then some .notANumber
  else none

-- Unlike JSON's own literals, numbers spelt out in a text may start with a plus sign or with the point,
-- real numbers may be infinite or none at all, and nothing may follow them.
def realOfText? (s : String) : Option Double :=
  let (negative, ⟨unsigned, _⟩) := signAt s.toList
  let (whole, ⟨afterWhole, _⟩) := digitsAt unsigned
  let (fraction, ⟨afterFraction, _⟩) := markedDigits (· == '.') afterWhole
  let places := fraction.getD []
  if whole.isEmpty && places.isEmpty then unbounded? negative unsigned
  else
    match exponentAt afterFraction with
    | (some exponent, _, ⟨[], _⟩) =>
      some (.ofDecimal negative (natOfDigits (whole ++ places)) (exponent - places.length))
    | _ => none

end ProtocolStubs.Payload
