import ProtocolStubs.Decimal.Binary64

set_option autoImplicit false

namespace ProtocolStubs.Decimal

open Binary64 (Ratio)

-- The decimal `digits * 10 ^ exponent`.
structure Numeral where
  digits : Nat
  exponent : Int
deriving DecidableEq, Repr, Inhabited

structure Interval where
  least : Ratio
  greatest : Ratio
  closed : Bool

def Ratio.lt (a b : Ratio) : Bool := a.numerator * b.denominator < b.numerator * a.denominator

def Interval.holds (i : Interval) (r : Ratio) : Bool :=
  if i.closed then !Ratio.lt r i.least && !Ratio.lt i.greatest r
  else Ratio.lt i.least r && Ratio.lt r i.greatest

def Interval.of (x : Binary64) : Interval where
  least :=
    let gap := if x.significand = Nat.pow 2 52 ∧ -1074 < x.exponent then 1 else 2
    Ratio.scaled (4 * x.significand - gap) 2 (x.exponent - 2)
  greatest := Ratio.scaled (4 * x.significand + 2) 2 (x.exponent - 2)
  closed := x.significand % 2 = 0

-- The number of digits before the decimal point, negative if the fraction starts with zeros.
def orderOf (x : Binary64) : Int :=
  let guess := ((x.significand.log2 : Int) + x.exponent) * 1233 / 4096 + 1
  if (x.magnitude.inUnits 10 (guess - 1)).floor = 0 then guess - 1
  else if (x.magnitude.inUnits 10 guess).floor = 0 then guess
  else guess + 1

-- The point of the grid `10 ^ unit` that reads back as `x`, if there is one.
def onGrid? (x : Binary64) (unit : Int) : Option Nat :=
  let measured := x.magnitude.inUnits 10 unit
  let below := measured.floor
  let interval := Interval.of x
  let hits (n : Nat) : Bool := interval.holds (Ratio.scaled n 10 unit)
  match hits below, hits (below + 1) with
  | true, true =>
    let rest := 2 * (measured.numerator % measured.denominator)
    if rest < measured.denominator then some below
    else if measured.denominator < rest then some (below + 1)
    else some (below + below % 2)
  | true, false => some below
  | false, true => some (below + 1)
  | false, false => none

-- Tries `steps` grids, each ten times as fine as the one before; the last one always has a point.
def coarsestFrom (x : Binary64) : Nat → Int → Numeral
  | 0, unit => ⟨(x.magnitude.inUnits 10 unit).nearest, unit⟩
  | steps + 1, unit =>
    match onGrid? x unit with
    | some digits => ⟨digits, unit⟩
    | none => coarsestFrom x steps (unit - 1)

def Numeral.trimmed (d : Numeral) : Numeral :=
  let digits := Nat.toDigits 10 d.digits
  let zeros := (digits.reverse.takeWhile (· == '0')).length
  ⟨d.digits / Nat.pow 10 zeros, d.exponent + zeros⟩

-- All decimals that round to the number form an interval, whose ends count if the significand is even;
-- the coarsest decimal grid with a point in the interval wins, and of two points the nearer one.
def shortest (x : Binary64) : Numeral :=
  if x.significand = 0 then ⟨0, 0⟩ else (coarsestFrom x 17 (orderOf x - 1)).trimmed

-- Positional from 10^-5 up to 10^16 and with an exponent elsewhere; a fraction is never left out
-- of the positional form.
def Numeral.text (d : Numeral) : String :=
  let digits := Nat.toDigits 10 d.digits
  let point : Int := digits.length + d.exponent
  let zeros (n : Int) : List Char := List.replicate n.toNat '0'
  if d.digits = 0 then "0.0"
  else if 0 ≤ d.exponent ∧ point ≤ 16 then String.ofList (digits ++ zeros d.exponent ++ ['.', '0'])
  else if 0 < point ∧ point ≤ 16 then
    String.ofList (digits.take point.toNat ++ '.' :: digits.drop point.toNat)
  else if -5 < point ∧ point ≤ 0 then String.ofList ('0' :: '.' :: (zeros (-point) ++ digits))
  else
    let fraction := if digits.length = 1 then [] else '.' :: digits.drop 1
    String.ofList (digits.take 1 ++ fraction ++ ['e']) ++ toString (point - 1)

def Binary64.text (x : Binary64) : String :=
  (if x.negative then "-" else "") ++ (shortest x).text

end ProtocolStubs.Decimal
