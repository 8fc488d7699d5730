/-!
# Powers

Powers of two and of ten, as natural numbers.
-/

namespace AirDefense

def powerOfTwo (n : Nat) : Nat := Nat.pow 2 n

def powerOfTen (n : Nat) : Nat := Nat.pow 10 n

theorem powerOfTwo_succ (n : Nat) : powerOfTwo (n + 1) = powerOfTwo n * 2 := rfl

theorem powerOfTwo_pos (n : Nat) : 0 < powerOfTwo n := by
  induction n with
  | zero => exact Nat.zero_lt_one
  | succ n ih =>
      rw [powerOfTwo_succ]
      omega

end AirDefense
