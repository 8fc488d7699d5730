/-!
# Calls one after the other

A thing that is called answers each call and goes on in a new state.  Two things that give
the same answers and stay related under each call do so under any sequence of calls.
-/

namespace AirDefense

variable {σ τ κ ρ : Type}

/-- The answers to some calls, and the state in the end. -/
def runCalls (perform : σ -> κ -> ρ × σ) (s : σ) : List κ -> List ρ × σ
  | [] => ([], s)
  | call :: rest =>
      let (answer, next) := perform s call
      let (answers, last) := runCalls perform next rest
      (answer :: answers, last)

theorem runCalls_related {perform : σ -> κ -> ρ × σ} {perform' : τ -> κ -> ρ × τ}
    {R : σ -> τ -> Prop}
    (hstep : forall s t, R s t -> forall call,
      (perform s call).1 = (perform' t call).1 ∧ R (perform s call).2 (perform' t call).2)
    {s : σ} {t : τ} (h : R s t) (calls : List κ) :
    (runCalls perform s calls).1 = (runCalls perform' t calls).1 ∧
      R (runCalls perform s calls).2 (runCalls perform' t calls).2 := by
  induction calls generalizing s t with
  | nil => exact ⟨rfl, h⟩
  | cons call rest ih =>
      rcases hstep s t h call with ⟨hanswer, hnext⟩
      rcases ih hnext with ⟨hanswers, hlast⟩
      refine ⟨?_, hlast⟩
      simp only [runCalls, hanswer, hanswers]

end AirDefense
