import AirDefense.Fault

/-!
# 32-bit arithmetic

Positions and field sizes are integers of 32 bits with sign.  Sums,
differences and products are those of `Int`; one that leaves the range is a
fault.
-/

namespace AirDefense
namespace Bounded

def least : Int := -2147483648

def greatest : Int := 2147483647

def Fits (n : Int) : Prop :=
  least <= n ∧ n <= greatest

instance (n : Int) : Decidable (Fits n) :=
  inferInstanceAs (Decidable (_ ∧ _))

def check (fault : Fault) (n : Int) : Except Fault Int :=
  if Fits n then .ok n else .error fault

def add? (a b : Int) : Except Fault Int :=
  check .addOverflow (a + b)

def sub? (a b : Int) : Except Fault Int :=
  check .subtractOverflow (a - b)

def mul? (a b : Int) : Except Fault Int :=
  check .multiplyOverflow (a * b)

def clamp (n : Int) : Int :=
  max least (min greatest n)

/-!
## When a result exists
-/

theorem check_eq_ok {fault : Fault} {n m : Int} :
    check fault n = .ok m ↔ Fits n ∧ n = m := by
  unfold check
  split <;> simp_all

theorem check_eq_error {fault f : Fault} {n : Int} :
    check fault n = .error f ↔ ¬ Fits n ∧ fault = f := by
  unfold check
  split <;> simp_all

theorem add?_eq_ok {a b n : Int} : add? a b = .ok n ↔ Fits (a + b) ∧ a + b = n :=
  check_eq_ok

theorem sub?_eq_ok {a b n : Int} : sub? a b = .ok n ↔ Fits (a - b) ∧ a - b = n :=
  check_eq_ok

theorem mul?_eq_ok {a b n : Int} : mul? a b = .ok n ↔ Fits (a * b) ∧ a * b = n :=
  check_eq_ok

end Bounded
end AirDefense
