import AirDefense.Proofs.Engagement.Placements

/-!
# Marks and assignments in an engagement

Whoever holds the grid, a task that works leaves marks and assignments in agreement,
and with its step it can tell of its missile what it has to.  So can everybody else:
what others do takes nothing away from what a task can tell.
-/

namespace AirDefense

def Claim.IsAt (g : Grid) (claim : Claim) : Prop :=
  exists mark, g.cell? claim.position = some (.attacker claim.target mark)

namespace Engagement

/-- An engagement in order, whoever it is that holds the grid. -/
def Staffed (e : Engagement) : Prop :=
  exists observers, ({ e with observers } : Engagement).Sound

/--
Marks and assignments agree but for the claims in `underway`, and all tasks but the
settled ones can tell of their missiles what they have to.
-/
structure Accounts (underway : MissileId -> MissileId -> Prop) (settled : Nat -> Prop)
    (e : Engagement) : Prop where
  staffed : e.Staffed
  typed : e.world.grid.IsTyped
  agrees : e.world.Agrees underway
  traced : forall i t, e.tasks[i]? = some t -> ¬ settled i -> t.Traced e.world

variable {e : Engagement} {i : Nat} {t u : Task} {c : Conditions} {dt : Float32}
  {underway underway' : MissileId -> MissileId -> Prop} {settled settled' : Nat -> Prop}

theorem Sound.staffed (h : e.Sound) : e.Staffed :=
  ⟨e.observers, h⟩

theorem Staffed.sound (h : e.Staffed) : e.world.Sound := by
  rcases h with ⟨_, h⟩
  exact h.world

theorem Staffed.pass (h : e.Staffed) {w : World} (hk : e.world.Keeps none w) :
    ({ e with world := w } : Engagement).Staffed := by
  rcases h with ⟨observers, h⟩
  exact ⟨observers, h.pass hk⟩

theorem Staffed.relock (h : e.Staffed) {l : FieldLock} (hquiet : l.IsQuiet)
    (hle : l.holders <= 1) :
    ({ e with world := { e.world with lock := l } } : Engagement).Staffed := by
  rcases h with ⟨_, h⟩
  refine ⟨List.replicate l.holders (.releasing default), ?_⟩
  exact
    { world := { h.world with }
      quiet := hquiet
      holders_le := hle
      holders_eq := by simp [List.countP_replicate, Snapshot.Progress.isHolding]
      charge := fun t ht => Charge.sound_relock.mpr (h.charge t ht)
      task := h.task
      exclusive := h.exclusive }

theorem Accounts.mono (h : e.Accounts underway settled)
    (hunderway : forall d a, underway d a -> underway' d a)
    (hsettled : forall i, settled i -> settled' i) : e.Accounts underway' settled' :=
  { h with
    agrees := h.agrees.mono hunderway
    traced := fun i t hi hnot => h.traced i t hi fun hold => hnot (hsettled i hold) }

theorem Accounts.relock (h : e.Accounts underway settled) {l : FieldLock} (hquiet : l.IsQuiet)
    (hle : l.holders <= 1) :
    ({ e with world := { e.world with lock := l } } : Engagement).Accounts underway settled :=
  { staffed := h.staffed.relock hquiet hle
    typed := h.typed
    agrees := { h.agrees with }
    traced := fun i t hi hnot => Task.traced_relock.mpr (h.traced i t hi hnot) }

theorem Accounts.pass (h : e.Accounts underway settled) {w : World} (own : Option Seat)
    (hk : e.world.Keeps none w) (hdrives : e.world.Drives w) (hagrees : w.Agrees underway')
    (hbegins : e.world.BeginsOnly own w) (hsettled : forall i, settled i -> settled' i)
    (hown : forall i t seat, e.tasks[i]? = some t -> t.charge.seat? = some seat ->
      own = some seat -> settled' i) :
    ({ e with world := w } : Engagement).Accounts underway' settled' :=
  { staffed := h.staffed.pass hk
    typed := h.typed.shift hdrives.grid
    agrees := hagrees
    traced := by
      intro i t hi hnot
      rcases h.staffed with ⟨_, hsound⟩
      exact (h.traced i t hi fun hold => hnot (hsettled i hold)).of_keeps
        (hsound.charge t (List.mem_of_getElem? hi)) hk.weaken hbegins
        fun seat hseat heq => hnot (hown i t seat hi hseat heq) }

theorem Accounts.handle (h : e.Accounts underway settled) {w : World}
    (hk : e.world.Keeps none w) (hhandles : e.world.Handles w) (hlasts : e.world.Lasts w) :
    ({ e with world := w } : Engagement).Accounts underway settled :=
  h.pass none hk hhandles.drives
    (h.agrees.tend hhandles.tends hlasts hhandles.eases.beginsNone)
    (Task.beginsOnly_of_eases hhandles.eases) (fun _ hold => hold) fun _ _ _ _ _ => nofun

theorem Accounts.hire (h : e.Accounts underway settled) (side : Side) :
    (e.act (.hire side)).Accounts underway settled := by
  rcases h.staffed with ⟨observers, hsound⟩
  refine ⟨⟨observers, hsound.hire side⟩, h.typed, h.agrees, fun i t hi hnot => ?_⟩
  by_cases hlt : i < e.tasks.length
  · rw [show (e.act (.hire side)).tasks[i]? = e.tasks[i]? from List.getElem?_append_left hlt] at hi
    exact h.traced i t hi hnot
  · rw [show (e.act (.hire side)).tasks[i]? = [launcher side][i - e.tasks.length]? from
      List.getElem?_append_right (Nat.le_of_not_lt hlt)] at hi
    rw [List.mem_singleton.mp (List.mem_of_getElem? hi)]
    cases side <;> trivial

/-!
## The step of a task
-/

theorem Accounts.work_tends (h : e.Accounts underway settled) (hi : e.tasks[i]? = some t)
    (hidle : ¬ settled i) (hclaimant : t.claimant? = none) :
    e.world.Tends (t.step c e.world).2 := by
  rcases h.staffed with ⟨_, hsound⟩
  exact Task.step_tends hsound.world h.typed (h.traced i t hi hidle) hclaimant

theorem starts_of_work {j : Nat} (hj : (e.work i c dt t).tasks[j]? = some u)
    (hge : ¬ j < e.tasks.length) :
    exists id, t.starts? c = some id ∧ u = (Duty.flight id).begin dt := by
  rw [work, List.getElem?_append_right (by rw [List.length_set]; exact Nat.le_of_not_lt hge)] at hj
  rcases List.mem_map.mp (List.mem_of_getElem? hj) with ⟨id, hid, heq⟩
  exact ⟨id, Option.mem_toList.mp hid, heq.symm⟩

/-- A step that makes no claim. -/
theorem Accounts.work (h : e.Accounts underway settled) (hi : e.tasks[i]? = some t)
    (hidle : ¬ settled i) (hclaimant : t.claimant? = none)
    (hlasts : e.world.Lasts (t.step c e.world).2) :
    (e.work i c dt t).Accounts underway settled := by
  rcases h.staffed with ⟨observers, hsound⟩
  have hmem := List.mem_of_getElem? hi
  have hc := hsound.charge t hmem
  have ht := h.traced i t hi hidle
  have hk := Task.step_keeps (c := c) hsound.quiet hsound.world hc (hsound.task t hmem)
  have heases := Task.step_eases (c := c) hsound.quiet hclaimant
  refine
    { staffed := ⟨observers, hsound.work hi c dt⟩
      typed := h.typed.shift (Task.step_drives hsound.world hc).grid
      agrees := h.agrees.tend (h.work_tends hi hidle hclaimant) hlasts heases.beginsNone
      traced := fun j u hj hnot => ?_ }
  by_cases hlt : j < e.tasks.length
  · rw [tasks_work_of_lt hlt] at hj
    split at hj
    · injection hj with hj
      exact hj ▸ Task.step_traced hsound.world hc ht h.agrees hclaimant hlasts
    · rename_i hne
      exact (h.traced j u hj hnot).of_keeps (hsound.charge u (List.mem_of_getElem? hj)) hk
        (Task.beginsOnly_of_eases heases)
        fun seat hseat hown => hne (hsound.exclusive i j t u seat hi hj hown hseat)
  · rcases starts_of_work hj hlt with ⟨id, hstarts, heq⟩
    rw [heq, show (e.work i c dt t).world = e.world from (Task.step_starts hc hstarts).2.2.1]
    exact Task.starts_traced hsound.world hc ht h.agrees hstarts dt

/-!
## The two halves of a claim
-/

section Claims

variable {d : MissileId} {claim : Claim}

theorem Staffed.reserved (h : e.Staffed)
    (hi : e.tasks[i]? = some (.defence (.attempting (.reserved d)))) :
    d.side = .defender ∧ exists m, e.world.fleet.defenders.find? d = some m := by
  rcases h with ⟨_, hsound⟩
  rcases hsound.charge _ (List.mem_of_getElem? hi) with ⟨hseat, _, m, hm, _⟩
  have hside : d.side = .defender := congrArg Seat.side hseat
  rw [Fleet.find?, hside] at hm
  exact ⟨hside, m, hm⟩

theorem Accounts.stamp (h : e.Accounts underway settled)
    (hi : e.tasks[i]? = some (.defence (.attempting (.reserved d))))
    (hat : claim.IsAt e.world.grid)
    (hfree : forall other, ¬ e.world.fleet.defenders.Pursues other claim.target) :
    ({ e with world := { e.world with grid := e.world.grid.stamp claim.position d } } :
      Engagement).Accounts
        (fun other a => underway other a ∨ (other = d ∧ a = claim.target)) settled := by
  rcases hat with ⟨mark, hp⟩
  rcases h.staffed.reserved hi with ⟨_, m, hm⟩
  exact h.pass none (h.staffed.sound.stamp _ _) ⟨rfl, .inl (Grid.thins_stamp _ _ _)⟩
    (h.agrees.stamp hp hm hfree) (fun _ _ hpursues => .inl hpursues) (fun _ hold => hold)
    fun _ _ _ _ _ => nofun

/-- The interceptor is assigned what it has marked, and its task is settled. -/
theorem Accounts.assign (h : e.Accounts underway settled)
    (hi : e.tasks[i]? = some (.defence (.attempting (.reserved d)))) (hidle : ¬ settled i)
    (hp : e.world.grid.cell? claim.position = some (.attacker claim.target (some d)))
    (hunderway : forall other a, underway other a -> other = d ∧ a = claim.target) :
    ({ e with world :=
        { e.world with
          fleet :=
            { e.world.fleet with
              defenders := e.world.fleet.defenders.assign d (some claim.target) } } } :
      Engagement).Accounts (fun _ _ => False) fun j => settled j ∨ j = i := by
  rcases h.staffed.reserved hi with ⟨hside, _⟩
  have hw := h.staffed.sound
  refine h.pass (some d.seat) (hw.assign hside _) (World.drives_of_eq rfl rfl)
    (h.agrees.assign hw hp (h.traced i _ hi hidle) hunderway (h.typed.side hp)) ?_
    (fun _ hold => .inl hold) ?_
  · intro other a hpursues
    rcases Arena.pursues_assign hpursues with ⟨heq, ha⟩ | hold
    · exact .inr ⟨by rw [heq], claim.position, by rw [Grid.occupant?, hp, ha]; rfl⟩
    · exact .inl hold
  · intro j t seat hj hseat hown
    rcases h.staffed with ⟨_, hsound⟩
    refine .inr (hsound.exclusive j i t _ seat hj hi hseat ?_)
    rw [← hown, MissileId.seat, hside]
    rfl

end Claims

end Engagement
end AirDefense
