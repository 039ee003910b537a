import ProtocolStubs.Json.Number

set_option autoImplicit false

namespace ProtocolStubs.Json

def EndsLiteral (rest : List Char) : Prop :=
  ∀ c ∈ rest.head?, c.isDigit = false ∧ c ≠ '.' ∧ isExponentMark c = false

theorem digits_end (digits rest : List Char) (all : ∀ c ∈ digits, c.isDigit = true)
    (ends : EndsLiteral rest) : ∃ short, digitsAt (digits ++ rest) = (digits, ⟨rest, short⟩) := by
  have none_here : rest.takeWhile Char.isDigit = [] ∧ rest.dropWhile Char.isDigit = rest := by
    cases rest with
    | nil => exact ⟨rfl, rfl⟩
    | cons c rest =>
      have other := (ends c rfl).1
      exact ⟨List.takeWhile_cons_of_neg (by simp [other]), List.dropWhile_cons_of_neg (by simp [other])⟩
  refine ⟨by simp, Prod.ext ?_ (Subtype.ext ?_)⟩
  · change (digits ++ rest).takeWhile Char.isDigit = digits
    rw [List.takeWhile_append_of_pos all, none_here.1, List.append_nil]
  · change (digits ++ rest).dropWhile Char.isDigit = rest
    rw [List.dropWhile_append_of_pos all, none_here.2]

theorem fraction_ends (rest : List Char) (ends : EndsLiteral rest) :
    markedDigits (· == '.') rest = (none, Rest.all rest) := by
  cases rest with
  | nil => rfl
  | cons c rest =>
    have other : (c == '.') = false := beq_false_of_ne (ends c rfl).2.1
    rw [markedDigits, if_neg (by rw [other]; exact Bool.false_ne_true)]

theorem exponent_ends (place : Nat) (rest : List Char) (ends : EndsLiteral rest) :
    exponentAt rest = (some 0, false, Rest.all rest) ∧ signOpensGroup place rest = false := by
  cases rest with
  | nil => exact ⟨rfl, rfl⟩
  | cons c rest =>
    have other := (ends c rfl).2.2
    refine ⟨by rw [exponentAt, if_neg (by rw [other]; exact Bool.false_ne_true)], ?_⟩
    cases rest with
    | nil => rfl
    | cons sign rest => rw [signOpensGroup, other, Bool.false_and, Bool.false_and]

theorem digits_literal (place : Nat) (negative : Bool) (held digits rest : List Char)
    (all : ∀ c ∈ digits, c.isDigit = true) (ends : EndsLiteral rest) (some_ : held ++ digits ≠ [])
    (fits : Literal.fits ⟨negative, natOfDigits (held ++ digits), 0, true⟩ = true) :
    ∃ short, literalFrom? place negative held (digits ++ rest) =
      some (⟨negative, natOfDigits (held ++ digits), 0, true⟩, ⟨rest, short⟩) := by
  obtain ⟨short, read⟩ := digits_end digits rest all ends
  have goes : ¬((held ++ digits ++ Option.getD none []).isEmpty ||
      signOpensGroup (place + ((digits ++ rest).length - rest.length)) rest) = true := by
    rw [(exponent_ends _ rest ends).2, Option.getD_none, List.append_nil,
      List.isEmpty_eq_false_iff.mpr some_, Bool.or_false]
    exact Bool.false_ne_true
  refine ⟨short, ?_⟩
  unfold literalFrom?
  rw [read]
  dsimp only
  rw [fraction_ends rest ends]
  dsimp only [Rest.all]
  refine (if_neg goes).trans ?_
  rw [(exponent_ends 0 rest ends).1]
  dsimp only [Rest.all]
  rw [Option.getD_none, List.append_nil]
  exact if_pos fits

def integer (i : Int) : Literal := ⟨decide (i < 0), i.natAbs, 0, true⟩

theorem integer_fits (i : Int) (wire : isWireInt i = true) : (integer i).fits = true := by
  obtain ⟨low, high⟩ := Bool.and_eq_true_iff.mp wire
  have low := of_decide_eq_true low
  have high := of_decide_eq_true high
  rw [leastSigned] at low
  rw [greatestUnsigned] at high
  have signed : Nat.pow 2 127 = 170141183460469231731687303715884105728 := rfl
  have unsigned : Nat.pow 2 128 = 340282366920938463463374607431768211456 := rfl
  simp only [integer, Literal.fits, Bool.not_true, Bool.false_or, signed, unsigned]
  split
  · exact decide_eq_true (by omega)
  · exact decide_eq_true (by omega)

theorem integer_number (i : Int) (wire : isWireInt i = true) :
    Number.ofLiteral? (integer i) = some (.int i) := by
  have value : (if (integer i).negative then -((integer i).digits : Int) else (integer i).digits) = i := by
    simp only [integer, decide_eq_true_eq]
    split <;> omega
  refine (if_pos rfl).trans ?_
  dsimp only
  rw [value, if_pos wire]

def literal? (cs : List Char) : Option (Literal × List Char) :=
  (literalAt? 0 cs).map fun read => (read.1, read.2.1)

theorem digits_isDigit (n : Nat) : ∀ c ∈ Nat.toDigits 10 n, c.isDigit = true :=
  fun _ => Nat.isDigit_of_mem_toDigits (by decide) (by decide)

theorem nat_of_digits (n : Nat) : natOfDigits (Nat.toDigits 10 n) = n := Nat.ofDigitChars_ten_toDigits

theorem unsigned_read (n : Nat) (rest : List Char) (ends : EndsLiteral rest)
    (fits : Literal.fits ⟨false, n, 0, true⟩ = true) :
    literal? (Nat.toDigits 10 n ++ rest) = some (⟨false, n, 0, true⟩, rest) := by
  have all := digits_isDigit n
  have value := nat_of_digits n
  cases written : Nat.toDigits 10 n with
  | nil => exact absurd written Nat.toDigits_ne_nil
  | cons c others =>
    rw [written] at all value
    obtain ⟨here, later⟩ := List.forall_mem_cons.mp all
    have unsigned : c ≠ '-' := by
      rintro rfl
      exact absurd here (by decide)
    obtain ⟨short, read⟩ := digits_literal 1 false [c] others rest later ends (List.cons_ne_nil _ _)
      (by rw [List.singleton_append, value]; exact fits)
    rw [List.singleton_append, value] at read
    unfold literal? literalAt?
    dsimp only [List.cons_append]
    rw [if_neg unsigned, if_pos here, read]
    rfl

theorem signed_read (n : Nat) (rest : List Char) (ends : EndsLiteral rest)
    (fits : Literal.fits ⟨true, n, 0, true⟩ = true) :
    literal? ('-' :: (Nat.toDigits 10 n ++ rest)) = some (⟨true, n, 0, true⟩, rest) := by
  have value := nat_of_digits n
  obtain ⟨short, read⟩ := digits_literal 1 true [] (Nat.toDigits 10 n) rest (digits_isDigit n) ends
    Nat.toDigits_ne_nil (by rw [List.nil_append, value]; exact fits)
  rw [List.nil_append, value] at read
  unfold literal? literalAt?
  dsimp only
  rw [if_pos rfl, read]
  rfl

theorem integer_written (i : Int) : (toString i).toList =
    if i < 0 then '-' :: Nat.toDigits 10 i.natAbs else Nat.toDigits 10 i.natAbs := by
  cases i with
  | ofNat n =>
    refine Eq.trans ?_ (if_neg (Int.not_lt.mpr (Int.natCast_nonneg n))).symm
    change n.repr.toList = Nat.toDigits 10 n
    rw [Nat.repr_eq_ofList_toDigits, String.toList_ofList]
  | negSucc n =>
    rw [if_pos (Int.negSucc_lt_zero n)]
    change ("-" ++ (n + 1).repr).toList = '-' :: Nat.toDigits 10 (n + 1)
    rw [String.toList_append, Nat.repr_eq_ofList_toDigits, String.toList_ofList, String.toList_ofList]
    rfl

theorem integer_read (i : Int) (wire : isWireInt i = true) (rest : List Char) (ends : EndsLiteral rest) :
    literal? ((toString i).toList ++ rest) = some (integer i, rest) := by
  have fits := integer_fits i wire
  rw [integer_written]
  rw [integer] at fits ⊢
  split
  · rename_i negative
    rw [decide_eq_true negative] at fits ⊢
    exact signed_read i.natAbs rest ends fits
  · rename_i negative
    rw [decide_eq_false negative] at fits ⊢
    exact unsigned_read i.natAbs rest ends fits

theorem integer_starts (i : Int) : ∃ c rest, (toString i).toList = c :: rest ∧ (c.isDigit = true ∨ c = '-') := by
  rw [integer_written]
  split
  · exact ⟨_, _, rfl, .inr rfl⟩
  · cases written : Nat.toDigits 10 i.natAbs with
    | nil => exact absurd written Nat.toDigits_ne_nil
    | cons c rest =>
      exact ⟨c, rest, rfl, .inl (digits_isDigit i.natAbs c (written ▸ List.mem_cons_self))⟩

end ProtocolStubs.Json
