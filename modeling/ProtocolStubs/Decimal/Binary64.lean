set_option autoImplicit false

namespace ProtocolStubs.Decimal

-- A finite double is a sign, a significand below 2^53 and a power of two that is at least 2^-1074.
-- Reading a decimal rounds to the nearest such number, a tie going to the even significand.
structure Binary64 where
  negative : Bool
  significand : Nat
  exponent : Int
deriving DecidableEq, Repr, Inhabited

namespace Binary64

def zero (negative : Bool) : Binary64 := ⟨negative, 0, -1074⟩

-- `numerator / denominator`, to be read as a quotient of positive integers.
structure Ratio where
  numerator : Nat
  denominator : Nat
deriving DecidableEq, Repr

def Ratio.scaled (significand base : Nat) (exponent : Int) : Ratio :=
  if 0 ≤ exponent then ⟨significand * Nat.pow base exponent.toNat, 1⟩
  else ⟨significand, Nat.pow base (-exponent).toNat⟩

def Ratio.inUnits (r : Ratio) (base : Nat) (exponent : Int) : Ratio :=
  if 0 ≤ exponent then ⟨r.numerator, r.denominator * Nat.pow base exponent.toNat⟩
  else ⟨r.numerator * Nat.pow base (-exponent).toNat, r.denominator⟩

def Ratio.floor (r : Ratio) : Nat := r.numerator / r.denominator

def Ratio.nearest (r : Ratio) : Nat :=
  let whole := r.floor
  let rest := 2 * (r.numerator % r.denominator)
  if rest < r.denominator then whole
  else if r.denominator < rest then whole + 1
  else whole + whole % 2

-- The power of two in which the ratio is measured: the one that leaves 53 bits, or the least.
def unitOf (r : Ratio) : Int :=
  let guess := (r.numerator.log2 : Int) - r.denominator.log2 - 53
  let unit := if (r.inUnits 2 guess).floor < Nat.pow 2 53 then guess else guess + 1
  if unit < -1074 then -1074 else unit

-- The nearest number to a positive ratio, if the largest finite number does not fall short.
def ofRatio? (negative : Bool) (r : Ratio) : Option Binary64 :=
  let unit := unitOf r
  let rounded := (r.inUnits 2 unit).nearest
  let x : Binary64 :=
    if rounded = Nat.pow 2 53 then ⟨negative, Nat.pow 2 52, unit + 1⟩ else ⟨negative, rounded, unit⟩
  if 971 < x.exponent then none else some x

-- The number nearest to `digits * 10 ^ exponent`. Beyond 400 orders of magnitude nothing needs to
-- be computed.
def ofDecimal? (negative : Bool) (digits : Nat) (exponent : Int) : Option Binary64 :=
  if digits = 0 then some (zero negative)
  else
    let order := exponent + (Nat.toDigits 10 digits).length
    if 400 < order then none
    else if order < -400 then some (zero negative)
    else ofRatio? negative (Ratio.scaled digits 10 exponent)

def ofInt? (i : Int) : Option Binary64 := ofDecimal? (i < 0) i.natAbs 0

def magnitude (x : Binary64) : Ratio := Ratio.scaled x.significand 2 x.exponent

def toInt? (x : Binary64) : Option Int :=
  let r := x.magnitude
  if r.numerator % r.denominator = 0 then
    some (if x.negative then -(r.floor : Int) else r.floor)
  else none

end Binary64

end ProtocolStubs.Decimal
