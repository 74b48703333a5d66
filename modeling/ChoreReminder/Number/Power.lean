/-! Powers of the two bases, bits and decimal places, and the numbers that a machine word holds. -/

namespace ChoreReminder

def twoPow (n : Nat) : Nat := Nat.pow 2 n

def tenPow (n : Nat) : Nat := Nat.pow 10 n

/-- The number fits a word of so many bits, of which one is for the sign. -/
def fitsWord (bits : Nat) (n : Int) : Bool :=
  let half : Int := twoPow (bits - 1)
  n < half && -half ≤ n

end ChoreReminder
