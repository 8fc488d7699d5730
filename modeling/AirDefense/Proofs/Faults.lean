import AirDefense.Number.Bounded

/-!
# Computations that may fault

A computation in two parts has a result if both parts have one; if it writes, the second
part begins with what the first one has written.  A fault is harmless when it is not a
broken contract of the slots, the arenas, the grid or the lock.
-/

namespace AirDefense

variable {ε α β : Type}

theorem bind_eq_ok {x : Except ε α} {f : α -> Except ε β} {b : β} :
    (x >>= f) = .ok b ↔ exists a, x = .ok a ∧ f a = .ok b := by
  cases x with
  | error e =>
      constructor
      · intro h
        cases h
      · rintro ⟨_, h, _⟩
        cases h
  | ok a =>
      constructor
      · intro h
        exact ⟨a, rfl, h⟩
      · rintro ⟨_, h, hf⟩
        injection h with h
        rw [h]
        exact hf

theorem pure_eq_ok {a b : α} : (pure a : Except ε α) = .ok b ↔ a = b := by
  constructor
  · intro h
    injection h
  · intro h
    rw [h]
    rfl

theorem bind_eq_error {x : Except ε α} {f : α -> Except ε β} {e : ε} :
    (x >>= f) = .error e ↔ x = .error e ∨ exists a, x = .ok a ∧ f a = .error e := by
  cases x with
  | error e' =>
      constructor
      · intro h
        injection h with h
        exact .inl (by rw [h])
      · rintro (h | ⟨_, h, _⟩)
        · injection h with h
          rw [h]
          rfl
        · cases h
  | ok a =>
      constructor
      · intro h
        exact .inr ⟨a, rfl, h⟩
      · rintro (h | ⟨_, h, hf⟩)
        · cases h
        · injection h with h
          rw [h]
          exact hf

/-!
## Writes

A computation that writes to a state keeps what it has written when it faults.
-/

variable {σ : Type} {s t : σ}

theorem run_bind_ok {x : EStateM ε σ α} {f : α -> EStateM ε σ β} {a : α}
    (h : x.run s = .ok a t) : (x >>= f).run s = (f a).run t := by
  show EStateM.bind x f s = f a t
  rw [EStateM.bind, show x s = .ok a t from h]

theorem run_bind_error {x : EStateM ε σ α} {f : α -> EStateM ε σ β} {e : ε}
    (h : x.run s = .error e t) : (x >>= f).run s = .error e t := by
  show EStateM.bind x f s = .error e t
  rw [EStateM.bind, show x s = .error e t from h]

theorem run_get_bind {f : σ -> EStateM ε σ β} :
    ((get : EStateM ε σ σ) >>= f).run s = (f s).run s := rfl

theorem run_modify_bind {g : σ -> σ} {f : PUnit -> EStateM ε σ β} :
    ((modify g : EStateM ε σ PUnit) >>= f).run s = (f ⟨⟩).run (g s) := rfl

/-!
## Broken contracts
-/

namespace Fault

/-- The fault of a caller that breaks the contract of what it calls. -/
def breaksContract : Fault -> Bool
  | slotOutOfRange _ _ => true
  | slotNotInUse _ => true
  | slotReleasedTwice _ => true
  | wrongArena => true
  | noSuchSlot _ _ => true
  | slotOccupied _ _ => true
  | vacatedAfterReuse _ => true
  | vacatedTwice _ => true
  | placedOffGrid _ _ => true
  | releasedWithoutHolder _ => true
  | _ => false

end Fault

def IsHarmless (x : Except Fault α) : Prop :=
  forall fault, x = .error fault -> fault.breaksContract = false

theorem isHarmless_ok (a : α) : IsHarmless (.ok a) := by
  intro fault h
  cases h

theorem IsHarmless.bind {x : Except Fault α} {f : α -> Except Fault β} (hx : IsHarmless x)
    (hf : forall a, IsHarmless (f a)) : IsHarmless (x >>= f) := by
  intro fault h
  rcases bind_eq_error.mp h with herror | ⟨a, _, herror⟩
  · exact hx fault herror
  · exact hf a fault herror

theorem isHarmless_check {fault : Fault} (hfault : fault.breaksContract = false) (n : Int) :
    IsHarmless (Bounded.check fault n) := by
  intro f h
  rw [← (Bounded.check_eq_error.mp h).2]
  exact hfault

theorem isHarmless_add? (a b : Int) : IsHarmless (Bounded.add? a b) := isHarmless_check rfl _

theorem isHarmless_sub? (a b : Int) : IsHarmless (Bounded.sub? a b) := isHarmless_check rfl _

theorem isHarmless_mul? (a b : Int) : IsHarmless (Bounded.mul? a b) := isHarmless_check rfl _

end AirDefense
