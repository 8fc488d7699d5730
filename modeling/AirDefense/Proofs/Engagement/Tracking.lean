import AirDefense.Proofs.Engagement.Matching

/-!
# Marks and assignments along a hunt

Whoever finds the grid free finds the marks of attackers and the assignments of
interceptors in agreement, as long as no name is given out twice.
-/

namespace AirDefense

theorem Snapshot.Progress.world_step (p : Snapshot.Progress) (w : World) :
    exists l, (p.step w).2 = { w with lock := l } := by
  cases p with
  | waiting =>
      simp only [step]
      split
      · exact ⟨w.lock, rfl⟩
      · exact ⟨_, rfl⟩
  | releasing s =>
      simp only [step]
      split
      · exact ⟨_, rfl⟩
      · exact ⟨w.lock, rfl⟩
  | holding score missiles | counting score missiles free | done snapshot => exact ⟨w.lock, rfl⟩

/-!
## Counts
-/

def World.Counts (w w' : World) : Prop :=
  forall side slot, (w'.fleet.arena side).count slot <= (w.fleet.arena side).count slot +
    ((w.fleet.arena side).fills (w'.fleet.arena side) slot).toNat

section Counts

variable {w w' : World}

theorem World.Tends.counts (h : w.Tends w') : w.Counts w' :=
  fun side => (h.renews side).count_le

theorem World.counts_of_fleet (h : w'.fleet = w.fleet) : w.Counts w' := by
  intro side slot
  rw [h]
  exact Nat.le_add_right _ _

theorem World.counts_assign {g : Grid} (d target : MissileId) :
    w.Counts
      { w with
        grid := g
        fleet := { w.fleet with defenders := w.fleet.defenders.assign d (some target) } } := by
  intro side slot
  cases side with
  | attacker => exact Nat.le_add_right _ _
  | defender =>
      have hcount : (w.fleet.defenders.assign d (some target)).count slot =
          w.fleet.defenders.count slot := Arena.count_update _
      exact hcount ▸ Nat.le_add_right _ _

theorem Claim.counts_take {interceptor : MissileId} :
    w.Counts
      { w with
        grid := (Claim.take w.grid w.fleet interceptor).2.1
        fleet := (Claim.take w.grid w.fleet interceptor).2.2 } := by
  unfold Claim.take
  cases Claim.first? w.grid w.fleet with
  | none => exact World.counts_of_fleet rfl
  | some claim => exact World.counts_assign _ _

theorem Search.counts_step {s : Search} {interceptor : MissileId} :
    w.Counts (s.step interceptor w).2 := by
  cases s with
  | scanning rest => cases rest <;> exact World.counts_of_fleet rfl
  | asking claim left rest => cases left <;> exact World.counts_of_fleet rfl
  | assigning claim => exact World.counts_assign (g := w.grid) _ _
  | tracing claim trackedBy rest | listing claim slot listed rest | stamping claim
  | leaving claim? | finished => exact World.counts_of_fleet rfl

end Counts

namespace Hunt

variable {h : Hunt} {s : Searcher}

/-!
## Actions
-/

theorem matched_act (hm : h.Matched) {e : Engagement}
    (hsound : ({ h with engagement := e } : Hunt).Sound)
    (haccounts : e.Accounts h.Pends h.HasAssigned)
    (htasks : forall s, s ∈ h.searchers -> s.isOpen = true ->
      e.tasks[s.task]? = h.engagement.tasks[s.task]?)
    (hgrid : h.engagement.world.lock.holders ≠ 0 -> e.world.grid = h.engagement.world.grid) :
    ({ h with engagement := e } : Hunt).Matched :=
  { sound := hsound
    accounts := haccounts
    attends := fun s hs hopen =>
      (hm.attends s hs hopen).of_eq (htasks s hs hopen)
        (hgrid fun hfree => hm.sound.not_open hfree hs hopen) }

theorem Matched.look (hm : h.Matched) (i : Nat) :
    ({ h with engagement := h.engagement.act (.look i) } : Hunt).Matched := by
  have hsound := hm.sound.look i
  cases hi : h.engagement.observers[i]? with
  | none =>
      simpa only [Engagement.act, hi] using hm
  | some p =>
      rcases p.world_step h.engagement.world with ⟨l, hworld⟩
      simp only [Engagement.act, hi, hworld] at hsound ⊢
      have haccounts := hm.accounts.relock hsound.quiet hsound.holders_le
      exact matched_act hm hsound { haccounts with } (fun _ _ _ => rfl) fun _ => rfl

theorem act_waits {i : Nat} {t : Task} {interceptor : MissileId}
    (hi : h.engagement.tasks[i]? = some t) (hclaimant : t.claimant? = some interceptor)
    (hbusy : (h.engagement.world.lock.enter .low).1 ≠ none) (accepting : Bool) (now dt : Float32) :
    h.engagement.act (.work i accepting now dt) = h.engagement := by
  have hstep : t.step { running := h.engagement.running, accepting, now } h.engagement.world =
      (t, h.engagement.world) := by
    rw [Task.eq_of_claimant? hclaimant]
    simp only [Task.step, DefenceLauncher.step, Attempt.step]
    rcases World.inGrid?_enter (w := h.engagement.world) (Attempt.claimTarget interceptor) .low
      with ⟨_, hnone⟩ | ⟨hfree, _⟩
    · rw [hnone]
      rfl
    · exact absurd hfree hbusy
  have hstarts : t.starts? { running := h.engagement.running, accepting, now } = none := by
    rw [Task.eq_of_claimant? hclaimant]
    rfl
  rcases List.getElem?_eq_some_iff.mp hi with ⟨hlt, hget⟩
  simp only [Engagement.act, hi, Engagement.work, hstep, hstarts, Option.toList_none,
    List.map_nil, List.append_nil]
  rw [← hget, List.set_getElem_self]

/-- A claim in one step comes to what a search of its own comes to. -/
theorem Matched.claim (hm : h.Matched) {i : Nat} {t : Task} {interceptor : MissileId}
    (hi : h.engagement.tasks[i]? = some t) (hidle : h.isSearching i = false)
    (hclaimant : t.claimant? = some interceptor) (accepting : Bool) (now dt : Float32) :
    ({ h with engagement := h.engagement.act (.work i accepting now dt) } : Hunt).Matched := by
  have hsound := hm.sound.act (.work i accepting now dt)
  cases henter : h.engagement.world.lock.enter .low with
  | mk ticket held =>
      cases ticket with
      | some ticket =>
          rw [act_waits hi hclaimant (by rw [henter]; exact nofun)]
          exact hm
      | none =>
          have hfree := (FieldLock.enter_eq_none henter).1
          rcases search_alone hi hclaimant hidle hm.sound.quiet (by rw [henter]) accepting now dt
            with ⟨n, hn⟩
          have hsearched : forall n,
              ((h.seek i).run (List.replicate n (.search h.searchers.length))).Matched := by
            intro n
            induction n with
            | zero => exact hm.seek i
            | succ n ih =>
                rw [List.replicate_succ', run_concat]
                simp only [Hunt.move]
                split
                · exact ih
                · rename_i hk
                  exact ih.proceed hk
          have hleft : (h.engagement.act (.work i accepting now dt)).world.lock.holders = 0 := by
            rcases hm.accounts.staffed with ⟨_, hstaffed⟩
            have hmem := List.mem_of_getElem? hi
            simp only [Engagement.act, hi, Engagement.work]
            rw [(Task.step_keeps hstaffed.quiet hstaffed.world (hstaffed.charge t hmem)
              (hstaffed.task t hmem)).lock_eq]
            exact hfree
          have haccounts := (hsearched n).settled (hn ▸ hleft)
          rw [hn] at haccounts
          exact matched_act hm hsound
            (haccounts.mono (fun _ _ => False.elim) fun _ => False.elim)
            (fun s hs hopen => absurd hopen (hm.sound.not_open hfree hs))
            fun hheld => absurd hfree hheld

theorem task_ne_of_idle {i : Nat} (hidle : h.isSearching i = false) (hs : s ∈ h.searchers)
    (hopen : s.isOpen = true) : s.task ≠ i := by
  intro htask
  have hsearching : h.isSearching i = true :=
    List.any_eq_true.mpr ⟨s, hs, by simp [htask, hopen]⟩
  rw [hidle] at hsearching
  cases hsearching

theorem not_hasAssigned_of_idle {i : Nat} (hidle : h.isSearching i = false) :
    ¬ h.HasAssigned i := by
  rintro ⟨s, hs, hassigned⟩
  exact task_ne_of_idle hidle hs hassigned.isOpen hassigned.1

theorem Matched.work (hm : h.Matched) {i : Nat} {t : Task} (hi : h.engagement.tasks[i]? = some t)
    (hidle : h.isSearching i = false) (hclaimant : t.claimant? = none) (accepting : Bool)
    (now dt : Float32)
    (hlasts : h.engagement.world.Lasts (h.engagement.act (.work i accepting now dt)).world) :
    ({ h with engagement := h.engagement.act (.work i accepting now dt) } : Hunt).Matched := by
  have hsound := hm.sound.act (.work i accepting now dt)
  have hnot := not_hasAssigned_of_idle hidle
  simp only [Engagement.act, hi] at hsound hlasts ⊢
  refine matched_act hm hsound (hm.accounts.work hi hnot hclaimant hlasts) ?_
    (hm.accounts.work_tends hi hnot hclaimant).held
  intro s hs hopen
  rw [Engagement.tasks_work_of_lt (List.getElem?_eq_some_iff.mp (hm.attends s hs hopen).task).1,
    if_neg (task_ne_of_idle hidle hs hopen).symm]

theorem Matched.handle (hm : h.Matched) {w : World}
    (hsound : ({ h with engagement := { h.engagement with world := w } } : Hunt).Sound)
    (hk : h.engagement.world.Keeps none w) (hhandles : h.engagement.world.Handles w)
    (hlasts : h.engagement.world.Lasts w) :
    ({ h with engagement := { h.engagement with world := w } } : Hunt).Matched :=
  matched_act hm hsound (hm.accounts.handle hk hhandles hlasts) (fun _ _ _ => rfl)
    fun _ => hhandles.grid_eq

theorem Matched.act (hm : h.Matched) {a : Action} (hidle : h.isBusy a = false)
    (hlasts : h.engagement.world.Lasts (h.engagement.act a).world) :
    ({ h with engagement := h.engagement.act a } : Hunt).Matched := by
  have hsound := hm.sound.act a
  have hw := hm.accounts.staffed.sound
  cases a with
  | hire side =>
      refine matched_act hm hsound (hm.accounts.hire side) (fun s hs hopen => ?_) fun _ => rfl
      exact List.getElem?_append_left
        (List.getElem?_eq_some_iff.mp (hm.attends s hs hopen).task).1
  | work i accepting now dt =>
      cases hi : h.engagement.tasks[i]? with
      | none =>
          simpa only [Engagement.act, hi] using hm
      | some t =>
          cases hclaimant : t.claimant? with
          | none => exact hm.work hi hidle hclaimant accepting now dt hlasts
          | some interceptor => exact hm.claim hi hidle hclaimant accepting now dt
  | look i => exact hm.look i
  | mark id =>
      exact hm.handle hsound (hw.markDeleted id) (World.handles_markDeleted _ id) hlasts
  | request =>
      exact hm.handle hsound (hw.grants_admission hw.admission.request).keeps
        (.supply rfl rfl rfl rfl) hlasts
  | closeAdmission =>
      exact hm.handle hsound (hw.grants_admission hw.admission.close).keeps
        (.supply rfl rfl rfl rfl) hlasts
  | closePool => exact hm.handle hsound hw.closePool (.supply rfl rfl rfl rfl) hlasts
  | watch =>
      have haccounts := hm.accounts
      exact matched_act hm hsound { haccounts with } (fun _ _ _ => rfl) fun _ => rfl
  | stop =>
      have haccounts := hm.accounts
      rcases haccounts.staffed with ⟨observers, hstaffed⟩
      exact matched_act hm hsound { haccounts with staffed := ⟨observers, { hstaffed with }⟩ }
        (fun _ _ _ => rfl) fun _ => rfl

theorem Matched.move (hm : h.Matched) (m : Move)
    (hlasts : h.engagement.world.Lasts (h.move m).engagement.world) : (h.move m).Matched := by
  cases m with
  | act a =>
      simp only [Hunt.move] at hlasts ⊢
      split
      · exact hm
      · rename_i hidle
        rw [if_neg hidle] at hlasts
        exact hm.act (Bool.eq_false_iff.mpr hidle) hlasts
  | seek task => exact hm.seek task
  | search k =>
      simp only [Hunt.move]
      split
      · exact hm
      · rename_i s hk
        exact hm.proceed hk

/-!
## Counts along a run
-/

theorem Matched.count_act (hm : h.Matched) {a : Action} (hidle : h.isBusy a = false) :
    h.engagement.world.Counts (h.engagement.act a).world := by
  cases a with
  | work i accepting now dt =>
      cases hi : h.engagement.tasks[i]? with
      | none =>
          simp only [Engagement.act, hi]
          exact World.counts_of_fleet rfl
      | some t =>
          simp only [Engagement.act, hi, Engagement.work]
          cases hclaimant : t.claimant? with
          | none =>
              exact (hm.accounts.work_tends hi (not_hasAssigned_of_idle hidle) hclaimant).counts
          | some interceptor =>
              rcases Task.step_claims
                (c := { running := h.engagement.running, accepting, now }) hm.sound.quiet hclaimant
                with ⟨_, hstay⟩ | ⟨_, hclaim⟩
              · rw [hstay]
                exact World.counts_of_fleet rfl
              · rw [hclaim, Attempt.claimTarget_eq]
                exact Claim.counts_take
  | look i =>
      cases hi : h.engagement.observers[i]? with
      | none =>
          simp only [Engagement.act, hi]
          exact World.counts_of_fleet rfl
      | some p =>
          rcases p.world_step h.engagement.world with ⟨l, hworld⟩
          simp only [Engagement.act, hi, hworld]
          exact World.counts_of_fleet rfl
  | mark id => exact (World.handles_markDeleted _ id).tends.counts
  | hire side | watch | request | stop | closeAdmission | closePool =>
      exact World.counts_of_fleet rfl

theorem Matched.count_move (hm : h.Matched) (m : Move) :
    h.engagement.world.Counts (h.move m).engagement.world := by
  cases m with
  | act a =>
      simp only [Hunt.move]
      split
      · exact World.counts_of_fleet rfl
      · rename_i hidle
        exact hm.count_act (Bool.eq_false_iff.mpr hidle)
  | seek task =>
      rcases seek_cases h task with hstay | ⟨interceptor, held, _, _, hseek⟩
      · rw [Hunt.move, hstay]
        exact World.counts_of_fleet rfl
      · rw [Hunt.move, hseek]
        exact World.counts_of_fleet rfl
  | search k =>
      simp only [Hunt.move]
      split
      · exact World.counts_of_fleet rfl
      · unfold Hunt.proceed
        split
        · exact World.counts_of_fleet rfl
        · exact World.counts_of_fleet rfl
        · exact Search.counts_step

/-- How many missiles have come into a slot along a run. -/
def spawns (seat : Seat) : Hunt -> List Move -> Nat
  | _, [] => 0
  | h, m :: rest =>
      ((h.engagement.world.fleet.arena seat.side).fills
          ((h.move m).engagement.world.fleet.arena seat.side) seat.slot).toNat +
        spawns seat (h.move m) rest

theorem spawns_le_length (seat : Seat) (h : Hunt) (moves : List Move) :
    spawns seat h moves <= moves.length := by
  induction moves generalizing h with
  | nil => exact Nat.le_refl 0
  | cons m rest ih =>
      have hrest := ih (h.move m)
      have hone := Bool.toNat_le ((h.engagement.world.fleet.arena seat.side).fills
        ((h.move m).engagement.world.fleet.arena seat.side) seat.slot)
      simp only [spawns, List.length_cons]
      omega

/-- As long as no slot's count comes round, marks and assignments are kept in agreement. -/
theorem Matched.run (hm : h.Matched) {moves : List Move}
    (hspawns : forall seat : Seat, (h.engagement.world.fleet.arena seat.side).count seat.slot +
      spawns seat h moves < UInt32.size) : (h.run moves).Matched := by
  induction moves generalizing h with
  | nil => exact hm
  | cons m rest ih =>
      refine ih (hm.move m fun side slot => ?_) fun seat => ?_
      · have hseat := hspawns ⟨side, slot⟩
        simp only [spawns] at hseat
        omega
      · have hseat := hspawns seat
        have hcount := hm.count_move m seat.side seat.slot
        simp only [spawns] at hseat
        omega

theorem start_matched {s : Settings} {w : World} (hvalid : s.validate = .ok (.ok ()))
    (hw : World.ofSettings? s = .ok w) : (start w).Matched := by
  have hfresh := World.isFresh_of_ofSettings? hw
  have hvacant := (Grid.ofSettings?_spec hfresh.grid).2.2.2
  have hempty : forall p a mark, w.grid.cell? p ≠ some (.attacker a mark) := by
    intro p a mark hp
    have hnone := hvacant p
    rw [Grid.occupant?_eq_some_iff.mpr ⟨_, hp, rfl⟩] at hnone
    cases hnone
  have hnobody : forall d a, ¬ w.fleet.defenders.Pursues d a := by
    rintro d a ⟨m, hd, _⟩
    rw [hfresh.fleet_eq] at hd
    exact absurd (Arena.isOccupied_of_find? hd) (Arena.not_isOccupied_ofCapacity _ _)
  exact
    { sound := start_sound hw
      accounts :=
        { staffed := (Engagement.start_sound hvalid hw).staffed
          typed := Grid.isTyped_of_vacant hvacant
          agrees :=
            { marked := fun p a d m hp => absurd hp (hempty p a _)
              pursued := fun p a mark d hp => absurd hp (hempty p a mark)
              marks := fun p a d hp => absurd hp (hempty p a _)
              targets := fun d a hd => absurd hd (hnobody d a) }
          traced := fun i t hi => by cases hi }
      attends := fun s hs => by cases hs }

theorem start_count {s : Settings} {w : World} (hw : World.ofSettings? s = .ok w) (seat : Seat) :
    ((start w).engagement.world.fleet.arena seat.side).count seat.slot = 0 := by
  rw [start, Engagement.start, (World.isFresh_of_ofSettings? hw).fleet_eq]
  cases seat.side <;> exact Arena.count_ofCapacity _ _

/-!
## The mark and the assignment of a claim
-/

section Results

variable {p q : Position} {a d : MissileId} {mark mark' : Option MissileId}

theorem Matched.mark_iff (hm : h.Matched) (hfree : h.engagement.world.lock.holders = 0)
    (hp : h.engagement.world.grid.cell? p = some (.attacker a mark)) :
    (mark = some d ∧ h.interceptors.isLive d = true) ↔ h.interceptors.Pursues d a := by
  have hagrees := (hm.settled hfree).agrees
  constructor
  · rintro ⟨hmark, hlive⟩
    rcases Option.isSome_iff_exists.mp hlive with ⟨m, hm'⟩
    exact (hagrees.marked p a d m (hmark ▸ hp) hm').resolve_right id
  · intro hpursues
    refine ⟨hagrees.pursued p a mark d hp hpursues, ?_⟩
    rcases hpursues with ⟨m, hm', _⟩
    rw [Arena.isLive, hm']
    rfl

theorem Matched.tracked_eq (hm : h.Matched) (hfree : h.engagement.world.lock.holders = 0)
    (hp : h.engagement.world.grid.cell? p = some (.attacker a mark)) :
    mark.any h.interceptors.isLive = h.engagement.world.fleet.isEngaged a := by
  rw [Bool.eq_iff_iff, Fleet.isEngaged_iff, Option.any_eq_true]
  exact exists_congr fun d => hm.mark_iff hfree hp

theorem Matched.tracked_of_view (hm : h.Matched) (hfree : h.engagement.world.lock.holders = 0)
    {v : MissileView}
    (hv : v ∈ Snapshot.missilesOf h.engagement.world.grid h.engagement.world.fleet)
    (hside : v.side = .attacker) :
    exists a mark, h.engagement.world.grid.cell? ⟨v.x, v.y⟩ = some (.attacker a mark) ∧
      a.slot = v.slot ∧ v.tracked = h.engagement.world.fleet.isEngaged a := by
  rcases List.mem_filterMap.mp hv with ⟨⟨p, c⟩, hentry, hview⟩
  have hp := (Grid.cell?_of_mem_missileEntries hentry).1
  cases c with
  | attacker a mark =>
      injection hview with hview
      rw [← hview]
      exact ⟨a, mark, hp, rfl, hm.tracked_eq hfree hp⟩
  | defender d =>
      injection hview with hview
      rw [← hview] at hside
      have hcell := hm.accounts.typed p _ d hp rfl
      rw [Cell.missile, show d.side = .attacker from hside] at hcell
      cases hcell
  | empty | wall | goal => cases hview

theorem Matched.mark_eq_of_flight (hm : h.Matched) {i : Nat} {t : Task} {f : Flight}
    (hi : h.engagement.tasks[i]? = some t) (hflight : t.flight? = some f) (accepting : Bool)
    (now dt : Float32) (hp : h.engagement.world.grid.cell? p = some (.attacker a mark))
    (hq : (h.move (.act (.work i accepting now dt))).engagement.world.grid.cell? q =
      some (.attacker a mark')) : mark' = mark := by
  have hoccupied := Grid.occupant?_eq_some_iff.mpr ⟨_, hp, rfl⟩
  have hsame : forall q', h.engagement.world.grid.cell? q' = some (.attacker a mark') ->
      mark' = mark := by
    intro q' hq'
    have heq := hm.accounts.staffed.sound.alone q' p a
      (Grid.occupant?_eq_some_iff.mpr ⟨_, hq', rfl⟩) hoccupied
    rw [heq, hp] at hq'
    injection hq' with hq'
    injection hq' with _ hmark
    exact hmark.symm
  simp only [Hunt.move] at hq
  split at hq
  · exact hsame q hq
  · rename_i hidle
    have hclaimant : t.claimant? = none := by
      cases t <;> first | rfl | cases hflight
    have htends := hm.accounts.work_tends hi
      (c := { running := h.engagement.running, accepting, now })
      (not_hasAssigned_of_idle (Bool.eq_false_iff.mpr hidle)) hclaimant
    simp only [Engagement.act, hi, Engagement.work] at hq
    rcases htends.carries q a mark' hq with ⟨q', hq'⟩ | ⟨_, hunplaced⟩
    · exact hsame q' hq'
    · exact absurd hoccupied (hunplaced.1 p)

end Results

/--
As long as fewer than 2^32 missiles have come into any slot, whoever finds the grid free
finds that the mark of an attacker stands for a live interceptor just if that interceptor
was assigned the attacker.  So a snapshot shows an attacker as tracked just if it is
engaged; and no step of a flight changes the mark of an attacker on the grid.
-/
theorem marks_agree_with_assignments {s : Settings} {w : World}
    (hvalid : s.validate = .ok (.ok ())) (hw : World.ofSettings? s = .ok w) (moves : List Move)
    (hspawns : forall seat, spawns seat (start w) moves < UInt32.size) :
    let h := (start w).run moves
    let g := h.engagement.world.grid
    let f := h.engagement.world.fleet
    (h.engagement.world.lock.holders = 0 ->
      (forall p a mark d, g.cell? p = some (.attacker a mark) ->
        ((mark = some d ∧ f.defenders.isLive d = true) ↔
          exists m, f.defenders.find? d = some m ∧ m.target = some a)) ∧
      forall v, v ∈ Snapshot.missilesOf g f -> v.side = .attacker ->
        exists a mark, g.cell? ⟨v.x, v.y⟩ = some (.attacker a mark) ∧ a.slot = v.slot ∧
          v.tracked = f.isEngaged a) ∧
    forall i t flight accepting now dt p q a mark mark', h.engagement.tasks[i]? = some t ->
      t.flight? = some flight -> g.cell? p = some (.attacker a mark) ->
      (h.move (.act (.work i accepting now dt))).engagement.world.grid.cell? q =
        some (.attacker a mark') -> mark' = mark := by
  intro h g f
  have hm : h.Matched := (start_matched hvalid hw).run fun seat => by
    rw [start_count hw, Nat.zero_add]
    exact hspawns seat
  refine ⟨fun hfree => ⟨fun p a mark d hp => hm.mark_iff hfree hp,
    fun v hv hside => hm.tracked_of_view hfree hv hside⟩, ?_⟩
  intro i t flight accepting now dt p q a mark mark' hi hflight hp hq
  exact hm.mark_eq_of_flight hi hflight accepting now dt hp hq

def trackedFlight : List Move :=
  [.act (.hire .attacker), .act (.work 0 true 0 0), .act (.work 0 true 0 0), .act .request] ++
    List.replicate 5 (.act (.work 0 true 0 (Float32.ofBits 0x3D000000))) ++
    List.replicate 3 (.act (.work 1 true 0 0)) ++ [.act (.hire .defender)] ++
    List.replicate 3 (.act (.work 2 true 0 0)) ++ .seek 2 :: List.replicate 12 (.search 0) ++
    List.replicate 3 (.act (.work 1 true 0 0))

theorem marks_agree_with_assignments_tracked_flight :
    Engagement.narrow.validate = .ok (.ok ()) ∧ exists w,
      World.ofSettings? Engagement.narrow = .ok w ∧
      (forall seat, spawns seat (start w) trackedFlight < UInt32.size) ∧
      let h := (start w).run trackedFlight
      let f := h.engagement.world.fleet
      h.engagement.world.lock.holders = 0 ∧
      h.engagement.world.grid.cell? ⟨4, 4⟩ =
        some (.attacker ⟨.attacker, 0, 1⟩ (some ⟨.defender, 0, 1⟩)) ∧
      (exists m, f.defenders.find? ⟨.defender, 0, 1⟩ = some m ∧
        m.target = some ⟨.attacker, 0, 1⟩) ∧
      (h.move (.act (.work 1 true 0 0))).engagement.world.grid.cell? ⟨5, 6⟩ =
        some (.attacker ⟨.attacker, 0, 1⟩ (some ⟨.defender, 0, 1⟩)) := by
  have hvalid : Engagement.narrow.validate = .ok (.ok ()) := by decide +kernel
  have hmoved : ((World.ofSettings? Engagement.narrow).toOption.map fun w =>
      let h := (start w).run trackedFlight
      (h.engagement.world.lock.holders, h.engagement.world.grid.cell? ⟨4, 4⟩,
        h.engagement.world.fleet.defenders.isLive ⟨.defender, 0, 1⟩,
        (h.move (.act (.work 1 true 0 0))).engagement.world.grid.cell? ⟨5, 6⟩)) =
      some (0, some (.attacker ⟨.attacker, 0, 1⟩ (some ⟨.defender, 0, 1⟩)), true,
        some (.attacker ⟨.attacker, 0, 1⟩ (some ⟨.defender, 0, 1⟩))) := by
    decide +kernel
  cases hw : World.ofSettings? Engagement.narrow with
  | error fault =>
      rw [hw] at hmoved
      cases hmoved
  | ok w =>
      simp only [hw, Except.toOption, Option.map_some, Option.some.injEq, Prod.mk.injEq] at hmoved
      rcases hmoved with ⟨hfree, hcell, hlive, hnext⟩
      have hspawns : forall seat, spawns seat (start w) trackedFlight < UInt32.size := fun seat =>
        Nat.lt_of_le_of_lt (spawns_le_length seat _ _) (by decide)
      have hagree := marks_agree_with_assignments hvalid hw trackedFlight hspawns
      exact ⟨hvalid, w, rfl, hspawns, hfree, hcell,
        ((hagree.1 hfree).1 _ _ _ _ hcell).mp ⟨rfl, hlive⟩, hnext⟩

end Hunt
end AirDefense
