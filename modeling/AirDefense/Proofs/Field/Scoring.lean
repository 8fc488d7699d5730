import AirDefense.Proofs.Field.Collision

/-!
# Points

A point is given for one collision at a time, and nothing else on the grid touches
the score.  An attacker has a part in every point: it reaches the goal, or it takes
part in an interception.  An interceptor has a part in interceptions only.
-/

namespace AirDefense

namespace Score

def count (s : Score) : Option Collision -> Score
  | some .goal => { s with attackerPoints := s.attackerPoints + 1 }
  | some (.intercept _) => { s with defenderPoints := s.defenderPoints + 1 }
  | _ => s

def shared (s : Score) : Side -> Nat
  | .attacker => s.attackerPoints + s.defenderPoints
  | .defender => s.defenderPoints

theorem le_count (s : Score) (c? : Option Collision) :
    s.attackerPoints <= (s.count c?).attackerPoints ∧
      s.defenderPoints <= (s.count c?).defenderPoints := by
  cases c? with
  | none => exact ⟨Nat.le_refl _, Nat.le_refl _⟩
  | some c => cases c <;> simp [count]

end Score

namespace Collision

def scorers (mover : MissileId) : Collision -> List MissileId
  | goal => [mover]
  | intercept victim => [mover, victim]
  | friendly _ => []
  | offGrid => []
  | wall => []

theorem eq_of_mem_scorers {mover id : MissileId} {c : Collision} (h : id ∈ c.scorers mover) :
    id = mover ∨ c = intercept id := by
  cases c with
  | goal => exact .inl (List.mem_singleton.mp h)
  | intercept victim =>
      rcases List.mem_cons.mp h with heq | hvictim
      · exact .inl heq
      · exact .inr (by rw [List.mem_singleton.mp hvictim])
  | offGrid | wall | friendly victim => cases h

def IsFair (mover : MissileId) : Collision -> Prop
  | goal => mover.side = .attacker
  | intercept victim => victim.side = mover.side.opponent
  | _ => True

theorem IsFair.shared_count {mover : MissileId} {c : Collision} (h : c.IsFair mover)
    (s : Score) (side : Side) :
    (s.count (some c)).shared side =
      s.shared side + ((c.scorers mover).filter fun id => id.side = side).length := by
  cases c with
  | goal =>
      have hmover : mover.side = .attacker := h
      cases side with
      | attacker => simp [scorers, Score.count, Score.shared, hmover, Nat.add_right_comm]
      | defender => simp [scorers, Score.count, Score.shared, hmover]
  | intercept victim =>
      have hvictim : victim.side = mover.side.opponent := h
      cases hmover : mover.side with
      | attacker =>
          cases side <;>
            simp [scorers, Score.count, Score.shared, hvictim, hmover, Side.opponent,
              Nat.add_assoc]
      | defender =>
          cases side <;>
            simp [scorers, Score.count, Score.shared, hvictim, hmover, Side.opponent,
              Nat.add_assoc]
  | offGrid | wall | friendly victim => rfl

theorem IsFair.length_scorers_le {mover : MissileId} {c : Collision} (h : c.IsFair mover)
    (side : Side) : ((c.scorers mover).filter fun id => id.side = side).length <= 1 := by
  have hcount := h.shared_count .zero side
  have hzero : Score.shared .zero side = 0 := by cases side <;> rfl
  have hone : (Score.count .zero (some c)).shared side <= 1 := by
    cases c <;> cases side <;> simp [Score.count, Score.shared, Score.zero]
  omega

end Collision

namespace Grid

variable {g g' : Grid} {p : Position} {mover id : MissileId}

/-!
## What leaves the score alone
-/

theorem score_ofSettings? {f : FieldSettings} (h : ofSettings? f = .ok g) :
    g.score = .zero := by
  rcases bind_eq_ok.mp h with ⟨area, _, h⟩
  split at h
  · cases h
  · split at h
    · rw [← pure_eq_ok.mp h]
    · rcases bind_eq_ok.mp h with ⟨right, _, h⟩
      rcases bind_eq_ok.mp h with ⟨bottom, _, h⟩
      rw [← pure_eq_ok.mp h]

@[simp] theorem score_clear : (g.clear p id).2.score = g.score := by
  unfold clear
  split
  · split <;> rfl
  · rfl

@[simp] theorem score_stamp : (g.stamp p id).score = g.score := by
  unfold stamp
  split <;> rfl

/-!
## Collisions
-/

@[simp] theorem score_settle (c : Collision) :
    (g.settle p c).score = g.score.count (some c) := by
  cases c <;> rfl

theorem isFair_of_collisionWith {cell : Cell} {c : Collision}
    (h : collisionWith mover cell = some c) : c.IsFair mover := by
  have hmissile : forall {other}, collisionWithMissile mover other = some c ->
      c.IsFair mover := by
    intro other hother
    unfold collisionWithMissile at hother
    split at hother
    · cases hother
    · split at hother
      · rename_i hside
        cases hother
        exact hside
      · cases hother
        trivial
  cases cell with
  | empty => cases h
  | wall =>
      cases h
      trivial
  | goal =>
      simp only [collisionWith] at h
      split at h
      · rename_i hside
        cases h
        exact hside
      · cases h
  | attacker occupant mark => exact hmissile h
  | defender occupant => exact hmissile h

theorem isFair_of_firstCollision {ps : List Position} {spot : Position} {c : Collision}
    (h : g.firstCollision mover ps = some (spot, c)) : c.IsFair mover := by
  rcases List.exists_of_findSome?_eq_some h with ⟨p, _, hp⟩
  rcases Option.map_eq_some_iff.mp hp with ⟨c', hc', heq⟩
  injection heq with _ hcollision
  subst hcollision
  rcases Option.bind_eq_some_iff.mp hc' with ⟨cell, _, hcell⟩
  exact isFair_of_collisionWith hcell

variable {f f' : Fleet} {radius : Int}

theorem score_resolve? {c : Collision}
    (h : g.resolve? f mover p radius = .ok (some c, g', f')) :
    g'.score = g.score.count (some c) ∧ c.IsFair mover := by
  rcases resolve?_eq_some h with ⟨hc, hg, _⟩ | ⟨ps, spot, hfirst, hg, _⟩
  · rw [hc, hg]
    exact ⟨rfl, trivial⟩
  · rw [hg]
    exact ⟨score_settle c, isFair_of_firstCollision hfirst⟩

theorem resolve?_intercept {victim : MissileId}
    (h : g.resolve? f mover p radius = .ok (some (.intercept victim), g', f')) :
    victim ≠ mover ∧ f' = f.markDeleted victim ∧
      exists spot, g.occupant? spot = some victim ∧
        forall q, g'.occupant? q = if q = spot then none else g.occupant? q := by
  rcases resolve?_eq_some h with ⟨hc, _, _⟩ | ⟨ps, spot, hfirst, hg, hf⟩
  · cases hc
  · rcases victim_of_firstCollision hfirst rfl with ⟨hspot, hne⟩
    rw [hg, hf]
    exact ⟨hne, rfl, spot, hspot,
      fun q => occupant?_settle_victim rfl (inBounds_of_occupant? hspot)⟩

end Grid
end AirDefense
