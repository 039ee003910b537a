set_option autoImplicit false

namespace ProtocolStubs.Text

abbrev Ranges := List (Nat × Nat)

def Ranges.holds (rows : Ranges) (code : Nat) : Bool :=
  rows.any fun row => row.1 ≤ code && code ≤ row.2

-- Rows of first member, last member and stride.
abbrev Strides := List (Nat × Nat × Nat)

def Strides.holds (rows : Strides) (code : Nat) : Bool :=
  rows.any fun row =>
    row.1 ≤ code && code ≤ row.2.1 && (code - row.1) % row.2.2 == 0

end ProtocolStubs.Text
