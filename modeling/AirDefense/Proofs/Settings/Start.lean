import AirDefense.Engagement.World
import AirDefense.Proofs.Fleet.Arena
import AirDefense.Proofs.Settings.Rules
import AirDefense.Proofs.Slots.Admission
import Mathlib.Control.Monad.Basic

/-!
# Starting with valid settings

Two things that a world is made of may fail to come about under valid settings.  No rule
bounds the product of width and height, which the grid computes in 32 bits, and none bounds
the capacities, which the arenas and the chains need room for.
-/

namespace AirDefense

theorem AdmissionQueue.exists_ofCapacity? {capacity : Nat} (h : capacity ≠ 0)
    (hroom : capacity <= SlotChain.room) :
    exists q, AdmissionQueue.ofCapacity? capacity = .ok q := by
  rcases SlotChain.exists_build? h hroom with ⟨c, hc⟩
  exact ⟨_, bind_eq_ok.mpr ⟨c, hc, rfl⟩⟩

theorem SlotPool.exists_ofCapacity? {capacity : Nat} (h : capacity ≠ 0)
    (hroom : capacity <= SlotChain.room) :
    exists p, SlotPool.ofCapacity? capacity = .ok p := by
  rcases SlotChain.exists_build? h hroom with ⟨c, hc⟩
  exact ⟨_, bind_eq_ok.mpr ⟨c, hc, rfl⟩⟩

def Settings.square (side : Int) : Settings :=
  { field := { width := side, height := side } }

namespace World

variable {s : Settings} {g : Grid}

/-- Where there is room for the arenas, there is room for the chains. -/
theorem exists_of_grid (h : s.validate = .ok (.ok ())) (hg : Grid.ofSettings? s.field = .ok g)
    (hattackers : s.attacker.capacity <= Arena.room)
    (hdefenders : s.defender.capacity <= Arena.room) : exists w, World.ofSettings? s = .ok w := by
  have hroom : Arena.room <= SlotChain.room := by decide
  rcases Settings.capacity_pos_of_validate h with ⟨hadmits, hintercepts⟩
  rcases AdmissionQueue.exists_ofCapacity? hadmits (Nat.le_trans hattackers hroom) with
    ⟨admission, hadmission⟩
  rcases SlotPool.exists_ofCapacity? hintercepts (Nat.le_trans hdefenders hroom) with
    ⟨pool, hpool⟩
  rcases Fleet.build?_spec s.attacker.capacity s.defender.capacity with
    ⟨_, _, hfleet⟩ | ⟨hlarge, _⟩
  · exact ⟨_, bind_eq_ok.mpr ⟨g, hg, bind_eq_ok.mpr ⟨_, hfleet, bind_eq_ok.mpr ⟨admission,
      hadmission, bind_eq_ok.mpr ⟨pool, hpool, rfl⟩⟩⟩⟩⟩
  · omega

theorem capacity_le_of_ofSettings? {w : World} (hw : World.ofSettings? s = .ok w) :
    s.attacker.capacity <= Arena.room ∧ s.defender.capacity <= Arena.room := by
  rcases bind_eq_ok.mp hw with ⟨_, _, hw⟩
  rcases bind_eq_ok.mp hw with ⟨fleet, hfleet, _⟩
  rcases Fleet.build?_spec s.attacker.capacity s.defender.capacity with
    ⟨hattackers, hdefenders, _⟩ | ⟨_, hfault⟩
  · exact ⟨hattackers, hdefenders⟩
  · cases hfleet.symm.trans hfault

theorem ofSettings?_of_lt_capacity (hg : Grid.ofSettings? s.field = .ok g)
    (hlarge : Arena.room < s.attacker.capacity ∨ Arena.room < s.defender.capacity) :
    World.ofSettings? s = .error .capacityOverflow := by
  rcases Fleet.build?_spec s.attacker.capacity s.defender.capacity with
    ⟨hattackers, hdefenders, _⟩ | ⟨_, hfleet⟩
  · omega
  · exact bind_eq_error.mpr (.inr ⟨g, hg, bind_eq_error.mpr (.inl hfleet)⟩)

/--
Under valid settings the grid can be built if the area of the field is a number of 32 bits,
and only then; otherwise its area cannot be computed.  A world comes about if there can be
room for the arenas besides, and only then.
-/
theorem valid_settings_start_within_area (h : s.validate = .ok (.ok ())) :
    ((exists g, Grid.ofSettings? s.field = .ok g) ↔
        s.field.width * s.field.height <= Bounded.greatest) ∧
      (Bounded.greatest < s.field.width * s.field.height ->
        Grid.ofSettings? s.field = .error .multiplyOverflow ∧
          World.ofSettings? s = .error .multiplyOverflow) ∧
      ((exists w, World.ofSettings? s = .ok w) ↔
        s.field.width * s.field.height <= Bounded.greatest ∧
          s.attacker.capacity <= Arena.room ∧ s.defender.capacity <= Arena.room) ∧
      (s.field.width * s.field.height <= Bounded.greatest ->
        Arena.room < s.attacker.capacity ∨ Arena.room < s.defender.capacity ->
          World.ofSettings? s = .error .capacityOverflow) := by
  have hgrid := (Settings.hasInterior_of_validate h).exists_grid
  have harea : forall g, Grid.ofSettings? s.field = .ok g ->
      s.field.width * s.field.height <= Bounded.greatest :=
    fun g hg => (Grid.ofSettings?_spec hg).1.2
  refine ⟨⟨fun ⟨g, hg⟩ => harea g hg, hgrid⟩, fun hlarge => ?_, ⟨?_, ?_⟩, fun hsmall hlarge => ?_⟩
  · have hfault := FieldSettings.ofSettings?_of_lt_area hlarge
    exact ⟨hfault, bind_eq_error.mpr (.inl hfault)⟩
  · rintro ⟨w, hw⟩
    rcases bind_eq_ok.mp hw with ⟨g, hg, _⟩
    exact ⟨harea g hg, capacity_le_of_ofSettings? hw⟩
  · rintro ⟨hsmall, hattackers, hdefenders⟩
    rcases hgrid hsmall with ⟨g, hg⟩
    exact exists_of_grid h hg hattackers hdefenders
  · rcases hgrid hsmall with ⟨g, hg⟩
    exact ofSettings?_of_lt_capacity hg hlarge

def crowded : Settings :=
  { attacker := { capacity := 18446744073709551615 } }

theorem valid_settings_start_within_area_square :
    (Settings.square 46340).validate = .ok (.ok ()) ∧
      (exists w, World.ofSettings? (Settings.square 46340) = .ok w) ∧
        (Settings.square 46341).validate = .ok (.ok ()) ∧ Bounded.greatest < 46341 * 46341 ∧
          Grid.ofSettings? (Settings.square 46341).field = .error .multiplyOverflow ∧
            crowded.validate = .ok (.ok ()) ∧
              World.ofSettings? crowded = .error .capacityOverflow := by
  have hgreat : (Settings.square 46340).validate = .ok (.ok ()) := by decide +kernel
  have hgreater : (Settings.square 46341).validate = .ok (.ok ()) := by decide +kernel
  have hcrowded : crowded.validate = .ok (.ok ()) := by decide +kernel
  exact ⟨hgreat, (valid_settings_start_within_area hgreat).2.2.1.mpr (by decide), hgreater,
    by decide, ((valid_settings_start_within_area hgreater).2.1 (by decide)).1, hcrowded,
    (valid_settings_start_within_area hcrowded).2.2.2 (by decide) (by decide)⟩

/-- Valid settings may ask for a grid whose area cannot be computed. -/
theorem valid_settings_without_grid :
    (Settings.square 46341).validate = .ok (.ok ()) ∧
      Grid.ofSettings? (Settings.square 46341).field = .error .multiplyOverflow :=
  ⟨by decide +kernel, rfl⟩

end World
end AirDefense
