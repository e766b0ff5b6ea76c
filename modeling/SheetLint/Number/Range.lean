namespace SheetLint

/-- Whether an integer fits so many bits, be it with a sign or without one. -/
def fitsBits (bits : Nat) (n : Int) : Bool :=
  -(Nat.pow 2 (bits - 1) : Int) ≤ n && n < (Nat.pow 2 bits : Int)

end SheetLint
