set_option autoImplicit false

namespace ProtocolStubs.Json

-- The value `digits * 10 ^ exponent`, negated if `negative`; `integral` literals have neither a
-- point nor an exponent.
structure Literal where
  negative : Bool
  digits : Nat
  exponent : Int
  integral : Bool
deriving DecidableEq, Repr, Inhabited, BEq

-- Integers have 128 bits, one of them for the sign if there is one.
def Literal.fits (l : Literal) : Bool :=
  !l.integral || if l.negative then l.digits ≤ Nat.pow 2 127 else l.digits < Nat.pow 2 128

def natOfDigits (cs : List Char) : Nat :=
  cs.foldl (fun n c => 10 * n + (c.toNat - '0'.toNat)) 0

abbrev Rest {α : Type} (xs : List α) := { rest : List α // rest.length ≤ xs.length }

abbrev ShorterRest {α : Type} (xs : List α) := { rest : List α // rest.length < xs.length }

def Rest.all {α : Type} (xs : List α) : Rest xs := ⟨xs, Nat.le_refl _⟩

def digitsAt (cs : List Char) : List Char × Rest cs :=
  (cs.takeWhile Char.isDigit,
    ⟨cs.dropWhile Char.isDigit, (List.dropWhile_sublist _).length_le⟩)

def markedDigits (mark : Char → Bool) (cs : List Char) : Option (List Char) × Rest cs :=
  match cs with
  | [] => (none, ⟨[], Nat.le_refl _⟩)
  | c :: rest =>
    if mark c then
      let (digits, ⟨rest', shorter⟩) := digitsAt rest
      (some digits, ⟨rest', Nat.le_trans shorter (Nat.le_succ _)⟩)
    else (none, Rest.all _)

def signAt (cs : List Char) : Bool × Rest cs :=
  match cs with
  | [] => (false, Rest.all _)
  | c :: rest =>
    if c = '-' then (true, ⟨rest, Nat.le_succ _⟩)
    else if c = '+' then (false, ⟨rest, Nat.le_succ _⟩)
    else (false, Rest.all _)

def isExponentMark (c : Char) : Bool := c == 'e' || c == 'E'

-- The exponent behind its mark; no digits there make it `none`.
def exponentAt (cs : List Char) : Option Int × Bool × Rest cs :=
  match cs with
  | [] => (some 0, false, Rest.all _)
  | c :: rest =>
    if isExponentMark c then
      let (negative, ⟨signed, shorter⟩) := signAt rest
      let (digits, ⟨rest', shorter'⟩) := digitsAt signed
      let magnitude : Int := natOfDigits digits
      let exponent := if digits.isEmpty then none else some (if negative then -magnitude else magnitude)
      (exponent, true, ⟨rest', Nat.le_trans shorter' (Nat.le_trans shorter (Nat.le_succ _))⟩)
    else (some 0, false, Rest.all _)

-- Whether an exponent starts at that place whose sign would open a group of four characters.
def signOpensGroup (place : Nat) : List Char → Bool
  | mark :: sign :: _ =>
    isExponentMark mark && (sign == '-' || sign == '+') && (place + 1) % 4 == 0
  | _ => false

-- The literal of which the sign and `held`, a digit or nothing, have been read already.
def literalFrom? (place : Nat) (negative : Bool) (held cs : List Char) :
    Option (Literal × Rest cs) :=
  let (whole, ⟨afterWhole, short⟩) := digitsAt cs
  let (fraction, ⟨afterFraction, short'⟩) := markedDigits (· == '.') afterWhole
  let digits := held ++ whole ++ fraction.getD []
  if digits.isEmpty || signOpensGroup (place + (cs.length - afterFraction.length)) afterFraction then
    none
  else
    match exponentAt afterFraction with
    | (none, _, _) => none
    | (some exponent, marked, ⟨after, short''⟩) =>
      let literal : Literal :=
        ⟨negative, natOfDigits digits, exponent - (fraction.getD []).length,
          fraction.isNone && !marked⟩
      if literal.fits then
        some (literal, ⟨after, Nat.le_trans short'' (Nat.le_trans short' short)⟩)
      else none

-- The literal that starts at that place: a minus sign if any, digits, a point with further digits if
-- any, and an exponent if any. Digits may start with zeros and the point may end the literal; behind a
-- minus sign it may also start it. Text is taken in by groups of four characters, counted from the end
-- of the token before, and the sign of an exponent is understood only inside a group.
def literalAt? (place : Nat) (cs : List Char) : Option (Literal × ShorterRest cs) :=
  match cs with
  | [] => none
  | c :: rest =>
    let read :=
      if c = '-' then literalFrom? (place + 1) true [] rest
      else if c.isDigit then literalFrom? (place + 1) false [c] rest
      else none
    match read with
    | some (literal, ⟨after, short⟩) => some (literal, ⟨after, Nat.lt_succ_of_le short⟩)
    | none => none

end ProtocolStubs.Json
