import AirDefense.Proofs.Engagement.Searches

/-!
# Exclusive engagements

An engagement in which the tasks search for their targets section by section.  A task
that searches holds the grid, and everybody else goes on: other missiles move, are asked
to stop, leave their arenas, and new ones come.  Still no two interceptors that are in
their arena were ever assigned the same attacker.
-/

namespace AirDefense

/-- The search of a task. -/
structure Searcher where
  task : Nat
  interceptor : MissileId
  search : Search

def Search.isOpen : Search -> Bool
  | finished => false
  | _ => true

def Searcher.isOpen (s : Searcher) : Bool := s.search.isOpen

theorem Search.eq_finished {s : Search} (h : s.isOpen = false) : s = finished := by
  cases s with
  | finished => rfl
  | scanning | tracing | listing | asking | stamping | assigning | leaving => cases h

theorem Search.isOpen_step (s : Search) (interceptor : MissileId) (w : World) :
    (s.step interceptor w).1.isOpen = s.isOpen := by
  cases s with
  | scanning rest =>
      cases rest with
      | nil => rfl
      | cons entry rest =>
          simp only [step, glance]
          split
          · split <;> rfl
          · rfl
  | asking claim left rest =>
      cases left with
      | nil => rfl
      | cons id left =>
          simp only [step]
          split <;> rfl
  | tracing claim trackedBy rest | listing claim slot listed rest =>
      simp only [step]
      split <;> rfl
  | stamping claim | assigning claim | leaving claim? | finished => rfl

def Attempt.afterClaim (s : Settings) (interceptor : MissileId) : Option Claim -> Attempt
  | none => retreating interceptor
  | some claim =>
      watching { interceptor, claim, log := .empty, remaining := s.predictor.maxSamples }

theorem Attempt.claimTarget_eq (id : MissileId) (w : World) :
    claimTarget id w =
      (afterClaim w.settings id (Claim.take w.grid w.fleet id).1,
        { w with
          grid := (Claim.take w.grid w.fleet id).2.1
          fleet := (Claim.take w.grid w.fleet id).2.2 }) := by
  unfold claimTarget
  cases hfirst : Claim.first? w.grid w.fleet with
  | none => simp only [Claim.take, hfirst, afterClaim]
  | some claim => simp only [Claim.take, hfirst, afterClaim]

structure Hunt where
  engagement : Engagement
  searchers : List Searcher

inductive Move where
  | act (a : Action)
  /-- A task that has reserved an interceptor takes the grid, and its search begins. -/
  | seek (task : Nat)
  | search (searcher : Nat)

namespace Hunt

def start (w : World) : Hunt :=
  { engagement := .start w, searchers := [] }

def isSearching (h : Hunt) (task : Nat) : Bool :=
  h.searchers.any fun s => s.task == task && s.isOpen

def isBusy (h : Hunt) : Action -> Bool
  | .work i _ _ _ => h.isSearching i
  | _ => false

def seek (h : Hunt) (task : Nat) : Hunt :=
  match (h.engagement.tasks[task]?).bind Task.claimant?, h.isSearching task,
      h.engagement.world.lock.enter .low with
  | some interceptor, false, (none, held) =>
      { engagement :=
          { h.engagement with world := { h.engagement.world with lock := held } }
        searchers :=
          h.searchers ++ [{ task, interceptor, search := .start h.engagement.world }] }
  | _, _, _ => h

def leave (h : Hunt) (k : Nat) (s : Searcher) (claim? : Option Claim) : Hunt :=
  let w := h.engagement.world
  { engagement :=
      { h.engagement with
        world :=
          { w with
            lock := match w.lock.release? .low with
              | .ok lock => lock
              | .error _ => w.lock }
        tasks := h.engagement.tasks.set s.task
          (.defence (.attempting (.afterClaim w.settings s.interceptor claim?))) }
    searchers := h.searchers.set k { s with search := .finished } }

def proceed (h : Hunt) (k : Nat) (s : Searcher) : Hunt :=
  match s.search with
  | .finished => h
  | .leaving claim? => h.leave k s claim?
  | search =>
      { engagement :=
          { h.engagement with
            world := (search.step s.interceptor h.engagement.world).2 }
        searchers :=
          h.searchers.set k
            { s with search := (search.step s.interceptor h.engagement.world).1 } }

/-- One move.  Moves of nobody change nothing. -/
def move (h : Hunt) : Move -> Hunt
  | .act a => if h.isBusy a then h else { h with engagement := h.engagement.act a }
  | .seek task => h.seek task
  | .search k =>
      match h.searchers[k]? with
      | none => h
      | some s => h.proceed k s

def run (h : Hunt) (moves : List Move) : Hunt :=
  moves.foldl move h

/-!
## The invariant
-/

def interceptors (h : Hunt) : Arena := h.engagement.world.fleet.defenders

structure Sound (h : Hunt) : Prop where
  quiet : h.engagement.world.lock.IsQuiet
  holders_le : h.engagement.world.lock.holders <= 1
  holders_eq : h.engagement.world.lock.holders =
    h.engagement.observers.countP Snapshot.Progress.isHolding +
      h.searchers.countP Searcher.isOpen
  exclusive : h.interceptors.IsExclusive
  search : forall s, s ∈ h.searchers -> s.search.Sound h.interceptors

variable {h : Hunt}

theorem start_sound {s : Settings} {w : World} (hw : World.ofSettings? s = .ok w) :
    (start w).Sound := by
  have hfresh := World.isFresh_of_ofSettings? hw
  have hlock := hfresh.lock_eq
  exact
    { quiet := fun t => by rw [start, Engagement.start, hlock]; cases t <;> exact Nat.le_refl 0
      holders_le := by rw [start, Engagement.start, hlock]; exact Nat.zero_le 1
      holders_eq := by rw [start, Engagement.start, hlock]; rfl
      exclusive := by
        rintro target id other ⟨m, hid, _⟩
        rw [interceptors, start, Engagement.start, hfresh.fleet_eq] at hid
        exact absurd (Arena.isOccupied_of_find? hid) (Arena.not_isOccupied_ofCapacity _ _)
      search := fun s hs => by cases hs }

theorem Sound.finished_of_free (hh : h.Sound) (hfree : h.engagement.world.lock.holders = 0)
    {s : Searcher} (hs : s ∈ h.searchers) : s.search = .finished := by
  have hnone : h.searchers.countP Searcher.isOpen = 0 := by
    have heq := hh.holders_eq
    omega
  exact Search.eq_finished (Bool.eq_false_iff.mpr (List.countP_eq_zero.mp hnone s hs))

theorem Sound.ease (hh : h.Sound) {e : Engagement} (heases : h.engagement.world.Eases e.world)
    (hobservers : e.observers = h.engagement.observers) :
    ({ h with engagement := e } : Hunt).Sound :=
  { quiet := heases.lock_eq ▸ hh.quiet
    holders_le := heases.lock_eq ▸ hh.holders_le
    holders_eq := by
      simp only [heases.lock_eq, hobservers]
      exact hh.holders_eq
    exclusive := hh.exclusive.of_beginsNone heases.beginsNone
    search := fun s hs => (hh.search s hs).of_beginsNone heases.beginsNone }

theorem Sound.work (hh : h.Sound) {i : Nat} {t : Task} (c : Conditions) (dt : Float32) :
    ({ h with engagement := h.engagement.work i c dt t } : Hunt).Sound := by
  cases hclaimant : t.claimant? with
  | none => exact hh.ease (Task.step_eases hh.quiet hclaimant) rfl
  | some id =>
      rcases Task.step_claims (c := c) hh.quiet hclaimant with ⟨_, hstay⟩ | ⟨hfree, hclaim⟩
      · refine hh.ease ?_ rfl
        simp only [Engagement.work, hstay]
        exact .refl _
      · have hfinished := fun s hs => hh.finished_of_free hfree (s := s) hs
        rw [Attempt.claimTarget_eq] at hclaim
        exact
          { quiet := by
              simp only [Engagement.work, hclaim]
              exact hh.quiet
            holders_le := by
              simp only [Engagement.work, hclaim]
              exact hh.holders_le
            holders_eq := by
              simp only [Engagement.work, hclaim]
              exact hh.holders_eq
            exclusive := by
              simp only [interceptors, Engagement.work, hclaim]
              exact Claim.isExclusive_take hh.exclusive
            search := by
              intro s hs
              rw [hfinished s hs]
              trivial }

theorem Sound.look (hh : h.Sound) (i : Nat) :
    ({ h with engagement := h.engagement.act (.look i) } : Hunt).Sound := by
  cases hi : h.engagement.observers[i]? with
  | none =>
      simpa only [Engagement.act, hi] using hh
  | some p =>
      have hheld : p.isHolding = true -> h.engagement.world.lock.holders = 1 := by
        intro hholding
        have hpos : 0 < h.engagement.observers.countP Snapshot.Progress.isHolding :=
          List.countP_pos_iff.mpr ⟨p, List.mem_of_getElem? hi, hholding⟩
        have heq := hh.holders_eq
        have hle := hh.holders_le
        omega
      rcases Engagement.step_observer hh.quiet hh.holders_le hheld with
        ⟨l, hworld, hquiet, hle, hholders⟩
      have hcount := countP_set_add (p := Snapshot.Progress.isHolding)
        (d := (p.step h.engagement.world).1) hi
      have hbefore := hh.holders_eq
      simp only [Engagement.act, hi, hworld]
      exact
        { quiet := hquiet
          holders_le := hle
          holders_eq := by
            simp only
            omega
          exclusive := hh.exclusive
          search := hh.search }

theorem Sound.act (hh : h.Sound) (a : Action) :
    ({ h with engagement := h.engagement.act a } : Hunt).Sound := by
  cases a with
  | work i accepting now dt =>
      cases hi : h.engagement.tasks[i]? with
      | none =>
          simpa only [Engagement.act, hi] using hh
      | some t =>
          simp only [Engagement.act, hi]
          exact hh.work _ dt
  | look i => exact hh.look i
  | mark id => exact hh.ease ⟨rfl, Fleet.beginsNone_markDeleted id⟩ rfl
  | watch =>
      have heq := hh.holders_eq
      exact
        { quiet := hh.quiet
          holders_le := hh.holders_le
          holders_eq := by
            simp only [Engagement.act, List.countP_append]
            exact heq
          exclusive := hh.exclusive
          search := hh.search }
  | hire side | request | stop | closeAdmission | closePool =>
      exact hh.ease (World.eases_of_fleet rfl rfl) rfl

theorem Sound.seek (hh : h.Sound) (task : Nat) : (h.seek task).Sound := by
  unfold Hunt.seek
  split
  · rename_i interceptor held _ _ henter
    rcases FieldLock.enter_eq_none henter with ⟨hfree, hheld⟩
    have heq := hh.holders_eq
    rw [hfree] at heq
    exact
      { quiet := by
          rw [hheld]
          exact hh.quiet
        holders_le := Nat.le_of_eq (congrArg FieldLock.holders hheld)
        holders_eq := by
          have hopen : Searcher.isOpen
              { task, interceptor, search := .start h.engagement.world } = true := rfl
          simp only [hheld, List.countP_append, List.countP_singleton, hopen, if_true]
          omega
        exclusive := hh.exclusive
        search := by
          intro s hs
          rcases List.mem_append.mp hs with hold | hnew
          · exact hh.search s hold
          · rw [List.mem_singleton.mp hnew]
            trivial }
  · exact hh

theorem Sound.held (hh : h.Sound) {k : Nat} {s : Searcher} (hk : h.searchers[k]? = some s)
    (hs : s.isOpen = true) :
    h.engagement.world.lock.holders = 1 ∧
      h.engagement.observers.countP Snapshot.Progress.isHolding = 0 ∧
      h.searchers.countP Searcher.isOpen = 1 := by
  have hpos : 0 < h.searchers.countP Searcher.isOpen :=
    List.countP_pos_iff.mpr ⟨s, List.mem_of_getElem? hk, hs⟩
  have heq := hh.holders_eq
  have hle := hh.holders_le
  omega

/-- Of all searchers one at most is in the middle of its search. -/
theorem Sound.sole (hh : h.Sound) {k : Nat} {s r : Searcher} (hk : h.searchers[k]? = some s)
    (hs : s.isOpen = true) (hr : r ∈ h.searchers) (hopen : r.isOpen = true) : r = s := by
  rcases List.getElem?_of_mem hr with ⟨j, hj⟩
  have hjk := eq_of_countP_le_one (Nat.le_of_eq (hh.held hk hs).2.2) hk hj hs hopen
  rw [← hjk, hk] at hj
  exact (Option.some.inj hj).symm

theorem Sound.sole_set (hh : h.Sound) {k : Nat} {s r s' : Searcher}
    (hk : h.searchers[k]? = some s) (hs : s.isOpen = true) (hs' : s' ∈ h.searchers.set k r)
    (hopen : s'.isOpen = true) : s' = r := by
  rcases List.getElem?_of_mem hs' with ⟨j, hj⟩
  rcases getElem?_set_cases hj with ⟨_, heq⟩ | ⟨hne, hold⟩
  · exact heq
  · have hle := Nat.le_of_eq (hh.held hk hs).2.2
    exact absurd (eq_of_countP_le_one hle hold hk hopen hs) hne

theorem Sound.replace (hh : h.Sound) {k : Nat} {s r : Searcher}
    (hk : h.searchers[k]? = some s) (hs : s.isOpen = true) {e : Engagement}
    (hquiet : e.world.lock.IsQuiet) (hholders : e.world.lock.holders = r.isOpen.toNat)
    (hobservers : e.observers = h.engagement.observers)
    (hexclusive : e.world.fleet.defenders.IsExclusive)
    (hr : r.search.Sound e.world.fleet.defenders) :
    ({ engagement := e, searchers := h.searchers.set k r } : Hunt).Sound := by
  rcases hh.held hk hs with ⟨_, hobserved, hopen⟩
  have hcount := countP_set_add (p := Searcher.isOpen) (d := r) hk
  rw [hs, Bool.toNat_true] at hcount
  exact
    { quiet := hquiet
      holders_le := hholders ▸ Bool.toNat_le _
      holders_eq := by
        simp only [hholders, hobservers]
        omega
      exclusive := hexclusive
      search := by
        intro s' hs'
        by_cases hopen' : s'.isOpen = true
        · rw [hh.sole_set hk hs hs' hopen']
          exact hr
        · rw [Search.eq_finished (Bool.eq_false_iff.mpr hopen')]
          trivial }

theorem Sound.leave (hh : h.Sound) {k : Nat} {s : Searcher} (hk : h.searchers[k]? = some s)
    (hs : s.isOpen = true) (claim? : Option Claim) : (h.leave k s claim?).Sound := by
  rcases hh.held hk hs with ⟨hholders, _⟩
  have hrelease := FieldLock.release?_idle hholders (hh.quiet.nextTier .low)
  refine hh.replace hk hs (r := { s with search := .finished }) ?_ ?_ rfl hh.exclusive trivial
  · simp only [hrelease]
    exact hh.quiet
  · simp only [hrelease]
    rfl

theorem Sound.proceed (hh : h.Sound) {k : Nat} {s : Searcher}
    (hk : h.searchers[k]? = some s) : (h.proceed k s).Sound := by
  have hsearch := hh.search s (List.mem_of_getElem? hk)
  unfold Hunt.proceed
  split
  · exact hh
  · rename_i claim? hleaving
    exact hh.leave hk (by simp only [Searcher.isOpen, hleaving, Search.isOpen]) claim?
  · rename_i hgoing _
    have hs : s.isOpen = true := by
      rw [← Bool.not_eq_false]
      exact fun hfinished => hgoing (Search.eq_finished hfinished)
    rcases hsearch.step hh.exclusive s.interceptor with ⟨hsound, hexclusive⟩
    refine hh.replace hk hs ?_ ?_ rfl hexclusive hsound
    · rw [Search.lock_step]
      exact hh.quiet
    · rw [Search.lock_step, (hh.held hk hs).1]
      simp only [Searcher.isOpen, Search.isOpen_step]
      exact (congrArg Bool.toNat hs).symm

theorem Sound.move (hh : h.Sound) (m : Move) : (h.move m).Sound := by
  cases m with
  | act a =>
      simp only [Hunt.move]
      split
      · exact hh
      · exact hh.act a
  | seek task => exact hh.seek task
  | search k =>
      simp only [Hunt.move]
      split
      · exact hh
      · rename_i s hk
        exact hh.proceed hk

theorem Sound.run (hh : h.Sound) (moves : List Move) : (h.run moves).Sound := by
  induction moves generalizing h with
  | nil => exact hh
  | cons m rest ih => exact ih (hh.move m)

/-!
## The sections of one search in a row
-/

theorem proceed_of_going {s : Searcher} (hgoing : s.search.isGoing = true) (k : Nat) :
    h.proceed k s =
      { engagement :=
          { h.engagement with
            world := (s.search.step s.interceptor h.engagement.world).2 }
        searchers :=
          h.searchers.set k
            { s with search := (s.search.step s.interceptor h.engagement.world).1 } } := by
  unfold Hunt.proceed
  split
  · rename_i hfinished
    rw [hfinished] at hgoing
    cases hgoing
  · rename_i hleaving
    rw [hleaving] at hgoing
    cases hgoing
  · rfl

theorem run_concat (h : Hunt) (moves : List Move) (m : Move) :
    h.run (moves ++ [m]) = (h.run moves).move m := by
  rw [run, List.foldl_append]
  rfl

theorem move_leaving {k : Nat} {s : Searcher} {claim? : Option Claim}
    (hk : h.searchers[k]? = some s) (hleaving : s.search = .leaving claim?) :
    h.move (.search k) = h.leave k s claim? := by
  simp only [Hunt.move, hk, proceed, hleaving]

theorem run_of_reaches {interceptor : MissileId} {x y : Search × World}
    (hreaches : Search.Reaches interceptor x y) {h : Hunt} {k task : Nat}
    (hk : h.searchers[k]? = some { task, interceptor, search := x.1 })
    (hw : h.engagement.world = x.2) :
    exists n, h.run (List.replicate n (.search k)) =
      { engagement := { h.engagement with world := y.2 }
        searchers := h.searchers.set k { task, interceptor, search := y.1 } } := by
  induction hreaches generalizing h with
  | refl x =>
      refine ⟨0, ?_⟩
      rcases List.getElem?_eq_some_iff.mp hk with ⟨hlt, hget⟩
      rw [← hw, ← hget, List.set_getElem_self]
      rfl
  | @step x y hgoing hstep ih =>
      have hmove : h.move (.search k) =
          { engagement := { h.engagement with world := (x.1.step interceptor x.2).2 }
            searchers :=
              h.searchers.set k
                { task, interceptor, search := (x.1.step interceptor x.2).1 } } := by
        simp only [Hunt.move, hk]
        rw [proceed_of_going hgoing k, hw]
      rcases ih (h := h.move (.search k)) (by
        rw [hmove, List.getElem?_set_self (List.getElem?_eq_some_iff.mp hk).1]) (by rw [hmove])
        with ⟨n, hn⟩
      refine ⟨n + 1, ?_⟩
      rw [List.replicate_succ]
      show (h.move (.search k)).run _ = _
      rw [hn, hmove]
      simp only [List.set_set]

/-- A search with nobody else at work comes to the same as a claim in one step. -/
theorem search_alone {task : Nat} {t : Task} {interceptor : MissileId}
    (htask : h.engagement.tasks[task]? = some t) (hclaimant : t.claimant? = some interceptor)
    (hidle : h.isSearching task = false) (hquiet : h.engagement.world.lock.IsQuiet)
    (hfree : (h.engagement.world.lock.enter .low).1 = none) (accepting : Bool)
    (now dt : Float32) :
    exists n, ((h.seek task).run
        (List.replicate n (.search h.searchers.length))).engagement =
      h.engagement.act (.work task accepting now dt) := by
  cases henter : h.engagement.world.lock.enter .low with
  | mk ticket held =>
      rw [henter] at hfree
      cases hfree
      have hseek : h.seek task =
          { engagement :=
              { h.engagement with world := { h.engagement.world with lock := held } }
            searchers :=
              h.searchers ++ [{ task, interceptor, search := .start h.engagement.world }] } := by
        simp only [Hunt.seek, htask, Option.bind_some, hclaimant, hidle, henter]
      rcases @run_of_reaches interceptor _ _
        (@Search.reaches_leaving interceptor { h.engagement.world with lock := held })
        (h.seek task) h.searchers.length task
        (by rw [hseek, List.getElem?_concat_length]; rfl) (by rw [hseek]) with ⟨n, hn⟩
      refine ⟨n + 1, ?_⟩
      have hlt : h.searchers.length < (h.seek task).searchers.length := by
        rw [hseek, List.length_append]
        exact Nat.lt_succ_self _
      rw [List.replicate_succ', run_concat, hn, move_leaving (List.getElem?_set_self hlt) rfl]
      have hclaim : t.step { running := h.engagement.running, accepting, now }
          h.engagement.world = (.defence (.attempting (Attempt.claimTarget interceptor
            h.engagement.world).1), (Attempt.claimTarget interceptor h.engagement.world).2) := by
        rcases Task.step_claims hquiet hclaimant with ⟨hbusy, _⟩ | ⟨_, hclaim⟩
        · rw [henter] at hbusy
          exact absurd rfl hbusy
        · exact hclaim
      rw [Attempt.claimTarget_eq] at hclaim
      have hstarts : t.starts? { running := h.engagement.running, accepting, now } = none := by
        rw [Task.eq_of_claimant? hclaimant]
        rfl
      simp only [leave, hseek, Engagement.act, htask, Engagement.work, hclaim, hstarts,
        hquiet.release?_of_enter henter .low, Option.toList_none, List.map_nil, List.append_nil]

/-!
## No attacker is claimed twice
-/

/--
In every order of moves no two interceptors that are in their arena were assigned the same
attacker.  A search that is about to assign an attacker has found one that was assigned to
nobody in the arena.
-/
theorem no_attacker_is_claimed_twice {s : Settings} {w : World}
    (hw : World.ofSettings? s = .ok w) (moves : List Move) :
    let h := (start w).run moves
    (forall id other m n target, h.interceptors.find? id = some m ->
        h.interceptors.find? other = some n -> m.target = some target ->
          n.target = some target -> id = other) ∧
      forall searcher claim, searcher ∈ h.searchers -> searcher.search = .assigning claim ->
        forall id m, h.interceptors.find? id = some m -> m.target ≠ some claim.target := by
  intro h
  have hh : h.Sound := (start_sound hw).run moves
  constructor
  · intro id other m n target hm hn hmtarget hntarget
    exact hh.exclusive target id other ⟨m, hm, hmtarget⟩ ⟨n, hn, hntarget⟩
  · intro searcher claim hsearcher hassigning id m hm hmtarget
    have hsearch := hh.search searcher hsearcher
    rw [hassigning] at hsearch
    exact hsearch id ⟨m, hm, hmtarget⟩

def firstSearch : List Move :=
  Engagement.firstFlight.map .act ++
    [.act (.hire .defender), .act (.hire .defender)] ++
    List.replicate 3 (.act (.work 2 true 0 0)) ++ List.replicate 2 (.act (.work 3 true 0 0)) ++
    .seek 2 :: List.replicate 4 (.search 0) ++ .act (.work 3 true 0 0) :: .seek 3 ::
    List.replicate 9 (.search 0) ++ .seek 3 :: List.replicate 12 (.search 1)

theorem no_attacker_is_claimed_twice_first_search :
    exists w h m, World.ofSettings? Engagement.narrow = .ok w ∧ h = (start w).run firstSearch ∧
      h.interceptors.liveIds = [⟨.defender, 0, 1⟩, ⟨.defender, 1, 1⟩] ∧
      h.interceptors.find? ⟨.defender, 0, 1⟩ = some m ∧ m.target = some ⟨.attacker, 0, 1⟩ ∧
      forall other n, h.interceptors.find? other = some n ->
        n.target = some ⟨.attacker, 0, 1⟩ -> other = ⟨.defender, 0, 1⟩ := by
  have hsearched : ((World.ofSettings? Engagement.narrow).toOption.map fun w =>
      let d := ((start w).run firstSearch).interceptors
      (d.liveIds, (d.find? ⟨.defender, 0, 1⟩).map Missile.target)) =
      some ([⟨.defender, 0, 1⟩, ⟨.defender, 1, 1⟩], some (some ⟨.attacker, 0, 1⟩)) := by
    decide +kernel
  cases hw : World.ofSettings? Engagement.narrow with
  | error fault =>
      rw [hw] at hsearched
      cases hsearched
  | ok w =>
      simp only [hw, Except.toOption, Option.map_some] at hsearched
      injection hsearched with hsearched
      injection hsearched with hlive hfirst
      rcases Option.map_eq_some_iff.mp hfirst with ⟨m, hm, htarget⟩
      refine ⟨w, _, m, rfl, rfl, hlive, hm, htarget, fun other n hn hntarget => ?_⟩
      exact (no_attacker_is_claimed_twice hw firstSearch).1 _ _ _ _ _ hn hm hntarget htarget

end Hunt
end AirDefense
