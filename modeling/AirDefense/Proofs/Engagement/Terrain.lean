import AirDefense.Proofs.Engagement.Separation
import AirDefense.Schedule.Cadence
import Mathlib.Data.List.Infix

/-!
# The terrain

A cell that a missile leaves is empty, whatever it was before the missile came.  No
missile comes to a wall and no attacker to the goal band, so all that can wear off is
the goal where interceptors fly.  The heading of interceptors may be any, and one that
does not climb takes them there.
-/

namespace AirDefense
namespace Engagement

variable {s : Settings} {e : Engagement} {p : Position}

/-- An interceptor stands at the position. -/
def Intercepts (e : Engagement) (p : Position) : Prop :=
  exists id, e.world.grid.cell? p = some (.defender id)

theorem IsClear.maneuvers_wall (h : e.IsClear s) (ms : List Maneuver) :
    (e.maneuvers ms).world.grid.cell? p = some .wall ↔ e.world.grid.cell? p = some .wall := by
  induction ms generalizing e with
  | nil => exact Iff.rfl
  | cons m rest ih => exact (ih (h.maneuver m)).trans (h.shifts m).wall_iff

theorem IsClear.maneuvers_goal_of (h : e.IsClear s) (ms : List Maneuver)
    (hp : (e.maneuvers ms).world.grid.cell? p = some .goal) :
    e.world.grid.cell? p = some .goal := by
  induction ms generalizing e with
  | nil => exact hp
  | cons m rest ih => exact (h.shifts m).goal_of (ih (h.maneuver m) hp)

theorem IsClear.maneuvers_goal (h : e.IsClear s) (ms : List Maneuver)
    (hp : e.world.grid.cell? p = some .goal)
    (hfree : forall before, before <+: ms -> ¬ (e.maneuvers before).Intercepts p) :
    (e.maneuvers ms).world.grid.cell? p = some .goal := by
  induction ms generalizing e with
  | nil => exact hp
  | cons m rest ih =>
      rcases (h.shifts m).goal hp with hgoal | hintercepts
      · refine ih (h.maneuver m) hgoal fun before hbefore => ?_
        exact hfree (m :: before) (List.cons_prefix_cons.mpr ⟨rfl, hbefore⟩)
      · exact absurd hintercepts (hfree [m] (List.cons_prefix_cons.mpr ⟨rfl, rest.nil_prefix⟩))

/--
Wherever missiles fly, and in every order of actions, the walls are those that were
painted, there is no goal but where it was painted, and goal is goal until an
interceptor comes to stand there.
-/
theorem terrain_outlasts_attackers {s : Settings} {w : World}
    (hvalid : s.validate = .ok (.ok ())) (hw : World.ofSettings? s = .ok w)
    (ms : List Maneuver) (p : Position) :
    let g := ((start w).maneuvers ms).world.grid
    (g.cell? p = some .wall ↔ w.grid.cell? p = some .wall) ∧
      (g.cell? p = some .goal -> w.grid.cell? p = some .goal) ∧
      (w.grid.cell? p = some .goal ->
        (forall before, before <+: ms -> ¬ ((start w).maneuvers before).Intercepts p) ->
        g.cell? p = some .goal) := by
  have hclear : (start w).IsClear s := start_isClear hvalid hw
  exact ⟨hclear.maneuvers_wall ms, hclear.maneuvers_goal_of ms, hclear.maneuvers_goal ms⟩

theorem terrain_outlasts_attackers_first_flight :
    narrow.validate = .ok (.ok ()) ∧ exists w, World.ofSettings? narrow = .ok w ∧
      let e := (start w).maneuvers (firstFlight.map .act)
      e.world.grid.missileEntries ≠ [] ∧ e.world.grid.cell? ⟨0, 8⟩ = some .wall ∧
        e.world.grid.cell? ⟨2, 10⟩ = some .goal := by
  have hvalid : narrow.validate = .ok (.ok ()) := by decide +kernel
  have hflown : ((World.ofSettings? narrow).toOption.map fun w =>
      let e := (start w).maneuvers (firstFlight.map .act)
      ((w.grid.cell? ⟨0, 8⟩, w.grid.cell? ⟨2, 10⟩), e.world.grid.missileEntries.isEmpty,
        (firstFlight.map Maneuver.act).inits.all fun before =>
          ((start w).maneuvers before).world.grid.occupant? ⟨2, 10⟩ == none)) =
      some ((some .wall, some .goal), false, true) := by
    decide +kernel
  rcases World.exists_ofSettings? hflown with ⟨w, hw, hview⟩
  simp only [Prod.mk.injEq] at hview
  rcases hview with ⟨⟨hwall, hgoal⟩, hmissiles, hnobody⟩
  refine ⟨hvalid, w, hw, ?_, ?_, ?_⟩
  · exact fun hempty => by simp [hempty] at hmissiles
  · exact (terrain_outlasts_attackers hvalid hw (firstFlight.map .act) ⟨0, 8⟩).1.mpr hwall
  · refine (terrain_outlasts_attackers hvalid hw (firstFlight.map .act) ⟨2, 10⟩).2.2 hgoal ?_
    rintro before hbefore ⟨id, hid⟩
    have hnone := List.all_eq_true.mp hnobody before ((List.mem_inits _ _).mpr hbefore)
    rw [Grid.occupant?, hid] at hnone
    cases hnone

def downward : Settings :=
  { field := { width := 9, height := 16, wallThickness := 1, goalStartRow := 9, missileRadius := 1 }
    defender := { missilePeriod := 1000, speed := 5, angle := 90 }
    predictor := { minSamples := 2, maxSamples := 2 } }

def seconds (period : Nat) : Float32 :=
  (Cadence.start (period * Cadence.millisecond) 0).deltaTime

def descent : List Action :=
  [.hire .attacker, .work 0 true 0 0, .work 0 true 0 0, .request] ++
    List.replicate 5 (.work 0 true 0 (seconds downward.attacker.missilePeriod)) ++
    List.replicate 3 (.work 1 true 0 0) ++ [.hire .defender] ++
    (List.range 12).map
      (fun n => .work 2 true (Single.ofInt n) (seconds downward.defender.missilePeriod)) ++
    List.replicate 7 (.work 3 true 0 0)

/-- What an interceptor leaves of the goal band is empty. -/
theorem interceptor_wears_goal_off :
    downward.validate = .ok (.ok ()) ∧ exists w, World.ofSettings? downward = .ok w ∧
      w.grid.cell? ⟨3, 11⟩ = some .goal ∧
        ((start w).run descent).world.grid.cell? ⟨3, 11⟩ = some .empty := by
  have hvalid : downward.validate = .ok (.ok ()) := by decide +kernel
  have hworn : ((World.ofSettings? downward).toOption.map fun w =>
      (w.grid.cell? ⟨3, 11⟩, ((start w).run descent).world.grid.cell? ⟨3, 11⟩)) =
      some (some .goal, some .empty) := by
    decide +kernel
  rcases World.exists_ofSettings? hworn with ⟨w, hw, hview⟩
  injection hview with hgoal hempty
  exact ⟨hvalid, w, hw, hgoal, hempty⟩

end Engagement
end AirDefense
