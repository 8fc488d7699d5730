import AirDefense.Schedule.Cadence

/-!
# Periods

A task waits again and again.  A wait that begins in time goes on at its deadline, and one that
begins too late goes on at once; the next deadline is one period after that.  So two periods never
begin closer together than a period, and as long as no wait begins too late the deadlines do not
drift.
-/

namespace AirDefense
namespace Cadence

/-- The cadence after the first `k` waits; wait `i` begins at `entry i`. -/
def after (c : Cadence) (entry : Nat -> Nat) : Nat -> Cadence
  | 0 => c
  | k + 1 => (c.after entry k).await (entry k)

variable {c : Cadence} {entry : Nat -> Nat} {k now : Nat}

/-!
## One wait
-/

theorem isLate_iff : c.isLate now = true ↔ c.deadline < now := by
  simp [isLate]

theorem activation_eq_max : c.activation now = max c.deadline now := by
  unfold activation
  by_cases hlate : c.deadline < now
  · rw [if_pos (isLate_iff.mpr hlate)]
    omega
  · rw [if_neg (mt isLate_iff.mp hlate)]
    omega

theorem deadline_le_activation (c : Cadence) (now : Nat) : c.deadline <= c.activation now := by
  rw [activation_eq_max]
  omega

theorem activation_of_punctual (h : now <= c.deadline) : c.activation now = c.deadline := by
  rw [activation_eq_max]
  omega

@[simp] theorem period_await : (c.await now).period = c.period := rfl

@[simp] theorem deadline_await : (c.await now).deadline = c.activation now + c.period := rfl

@[simp] theorem activations_await : (c.await now).activations = c.activations + 1 := rfl

@[simp] theorem overruns_await :
    (c.await now).overruns = c.overruns + if c.isLate now then 1 else 0 := rfl

/-!
## Many waits
-/

@[simp] theorem after_succ : c.after entry (k + 1) = (c.after entry k).await (entry k) := rfl

@[simp] theorem period_after : (c.after entry k).period = c.period := by
  induction k with
  | zero => rfl
  | succ k ih => rw [after_succ, period_await, ih]

theorem activations_after : (c.after entry k).activations = c.activations + k := by
  induction k with
  | zero => rfl
  | succ k ih => rw [after_succ, activations_await, ih, Nat.add_assoc]

theorem overruns_after :
    (c.after entry k).overruns =
      c.overruns + (List.range k).countP fun i => (c.after entry i).isLate (entry i) := by
  induction k with
  | zero => rfl
  | succ k ih =>
      rw [after_succ, overruns_await, ih, List.range_succ, List.countP_append,
        List.countP_singleton, Nat.add_assoc]

def point (c : Cadence) (entry : Nat -> Nat) (k : Nat) : Nat :=
  (c.after entry k).activation (entry k)

theorem deadline_after_succ :
    (c.after entry (k + 1)).deadline = c.point entry k + c.period := by
  rw [after_succ, deadline_await, period_after]
  rfl

theorem point_add_period_le : c.point entry k + c.period <= c.point entry (k + 1) := by
  rw [← deadline_after_succ]
  exact deadline_le_activation ..

theorem point_add_le (n : Nat) : c.point entry k + n * c.period <= c.point entry (k + n) := by
  induction n with
  | zero => simp
  | succ n ih =>
      have hnext : c.point entry (k + n) + c.period <= c.point entry (k + (n + 1)) :=
        point_add_period_le
      rw [Nat.succ_mul]
      omega

/-- Without an overrun the deadlines are a period apart. -/
theorem deadline_after_add {n : Nat}
    (h : forall i, k <= i -> i < k + n -> entry i <= (c.after entry i).deadline) :
    (c.after entry (k + n)).deadline = (c.after entry k).deadline + n * c.period := by
  induction n with
  | zero => simp
  | succ n ih =>
      have hpoint : c.point entry (k + n) = (c.after entry (k + n)).deadline :=
        activation_of_punctual (h (k + n) (by omega) (by omega))
      have hsofar := ih fun i hle hlt => h i hle (by omega)
      rw [← Nat.add_assoc, deadline_after_succ, hpoint, hsofar, Nat.succ_mul, Nat.add_assoc]

/--
Whenever the waits of a task begin, and whatever its period: it goes on from a wait at the moment
the wait begins if that is past the deadline, and at the deadline otherwise, and the next deadline
is a period after that.  So it never goes on twice within a period, not even after overruns.  Over
waits without an overrun the deadlines are an arithmetic progression.  All waits are counted, and
those that began past their deadline.
-/
theorem periods_never_burst_nor_drift (period created : Nat) (entry : Nat -> Nat) :
    let c := (start period created).after entry
    let point := fun k => if (c k).deadline < entry k then entry k else (c k).deadline
    (c 0).deadline = created + period ∧
      (forall k, (c (k + 1)).deadline = point k + period) ∧
      (forall k n, point k + n * period <= point (k + n)) ∧
      (forall k n, (forall i, k <= i -> i < k + n -> entry i <= (c i).deadline) ->
        forall m, m <= n -> (c (k + m)).deadline = (c k).deadline + m * period) ∧
      forall k, (c k).activations = k ∧
        (c k).overruns = (List.range k).countP fun i => (c i).deadline < entry i := by
  intro c point
  have hpoint : forall k, point k = (start period created).point entry k := by
    intro k
    show (if (c k).deadline < entry k then entry k else (c k).deadline) =
      (c k).activation (entry k)
    rw [activation_eq_max]
    split <;> omega
  refine ⟨rfl, fun k => ?_, fun k n => ?_, fun k n hpunctual m hm => ?_, fun k => ⟨?_, ?_⟩⟩
  · rw [hpoint]
    exact deadline_after_succ
  · rw [hpoint, hpoint]
    exact point_add_le n
  · exact deadline_after_add fun i hle hlt => hpunctual i hle (by omega)
  · rw [activations_after]
    exact Nat.zero_add k
  · rw [overruns_after]
    exact Nat.zero_add _

/-- A first wait that is late, and a second one that is in time for the deadline set anew. -/
example : (start 2 0).after (fun k => [10, 11].getD k 0) 2 =
    { period := 2, deadline := 14, activations := 2, overruns := 1 } := by decide

end Cadence
end AirDefense
