import AirDefense.Proofs.Engagement.Accounts
import AirDefense.Proofs.Engagement.Exclusivity

/-!
# Searches that mark and assign

A claim takes two sections of a search: it marks the attacker's cell, and then it assigns
the attacker.  Nobody else writes to the grid meanwhile, so the search finds the attacker
where it has seen it, and what is left to be done is for one searcher to do.
-/

namespace AirDefense

/-!
## What a search has seen
-/

def Grid.Lists (g : Grid) (entries : List (Position × Cell)) : Prop :=
  forall entry, entry ∈ entries -> g.cell? entry.1 = some entry.2

namespace Search

/-- The grid is still the one that the search has looked at. -/
def Scans (interceptor : MissileId) (g : Grid) : Search -> Prop
  | scanning rest => g.Lists rest
  | tracing claim _ rest => claim.IsAt g ∧ g.Lists rest
  | listing claim _ _ rest => claim.IsAt g ∧ g.Lists rest
  | asking claim _ rest => claim.IsAt g ∧ g.Lists rest
  | stamping claim => claim.IsAt g
  | assigning claim =>
      g.cell? claim.position = some (.attacker claim.target (some interceptor))
  | leaving _ => True
  | finished => True

variable {s : Search} {interceptor : MissileId} {w : World}

theorem scans_start (interceptor : MissileId) (w : World) :
    (start w).Scans interceptor w.grid := by
  intro entry hentry
  exact (Grid.cell?_of_mem_missileEntries hentry).1

theorem scans_glance {entry : Position × Cell} {rest : List (Position × Cell)}
    (h : w.grid.Lists (entry :: rest)) :
    (glance w.fleet rest entry).Scans interceptor w.grid := by
  have hrest : w.grid.Lists rest := fun e he => h e (List.mem_cons_of_mem _ he)
  rcases entry with ⟨p, c⟩
  have hp : w.grid.cell? p = some c := h (p, c) List.mem_cons_self
  cases c with
  | attacker id mark =>
      simp only [glance]
      split
      · exact ⟨⟨mark, hp⟩, hrest⟩
      · exact hrest
  | empty | wall | goal | defender occupant => exact hrest

theorem Scans.step (h : s.Scans interceptor w.grid) :
    (s.step interceptor w).1.Scans interceptor (s.step interceptor w).2.grid := by
  cases s with
  | scanning rest =>
      cases rest with
      | nil => trivial
      | cons entry rest => exact scans_glance h
  | tracing claim trackedBy rest =>
      simp only [Search.step]
      split
      · exact h.2
      · exact h
  | listing claim slot listed rest =>
      simp only [Search.step]
      split <;> exact h
  | asking claim left rest =>
      cases left with
      | nil => exact h.1
      | cons asked left =>
          simp only [Search.step]
          split
          · exact h.2
          · exact h
  | stamping claim =>
      rcases h with ⟨mark, hmark⟩
      simp only [Search.step, Scans, Grid.cell?_stamp hmark, if_true]
  | assigning claim | leaving claim? | finished => trivial

theorem world_step (hstamping : forall claim, s ≠ stamping claim)
    (hassigning : forall claim, s ≠ assigning claim) : (s.step interceptor w).2 = w := by
  cases s with
  | scanning rest => cases rest <;> rfl
  | asking claim left rest => cases left <;> rfl
  | stamping claim => exact absurd rfl (hstamping claim)
  | assigning claim => exact absurd rfl (hassigning claim)
  | tracing claim trackedBy rest | listing claim slot listed rest | leaving claim? | finished => rfl

end Search

/-!
## One searcher
-/

namespace Searcher

def Pends (s : Searcher) (d a : MissileId) : Prop :=
  exists claim, s.search = .assigning claim ∧ s.interceptor = d ∧ claim.target = a

def HasAssigned (s : Searcher) (task : Nat) : Prop :=
  s.task = task ∧ exists claim, s.search = .leaving (some claim)

/-- The task waits for the end of its search, and the grid is as the search has seen it. -/
structure Attends (s : Searcher) (e : Engagement) : Prop where
  task : e.tasks[s.task]? = some (.defence (.attempting (.reserved s.interceptor)))
  scans : s.search.Scans s.interceptor e.world.grid

def next (s : Searcher) (w : World) : Searcher :=
  { s with search := (s.search.step s.interceptor w).1 }

variable {s : Searcher} {e e' : Engagement}

theorem Attends.of_eq (h : s.Attends e) (htask : e'.tasks[s.task]? = e.tasks[s.task]?)
    (hgrid : e'.world.grid = e.world.grid) : s.Attends e' :=
  ⟨htask.trans h.task, hgrid ▸ h.scans⟩

theorem Attends.next (h : s.Attends e) :
    (s.next e.world).Attends
      { e with world := (s.search.step s.interceptor e.world).2 } :=
  ⟨h.task, h.scans.step⟩

theorem accounts_looking (h : e.Accounts s.Pends s.HasAssigned)
    (hstamping : forall claim, s.search ≠ .stamping claim)
    (hassigning : forall claim, s.search ≠ .assigning claim)
    (hleaving : forall claim?, s.search ≠ .leaving claim?) :
    ({ e with world := (s.search.step s.interceptor e.world).2 } : Engagement).Accounts
      (s.next e.world).Pends (s.next e.world).HasAssigned := by
  rw [Search.world_step hstamping hassigning]
  refine h.mono ?_ ?_
  · rintro d a ⟨claim, hclaim, _⟩
    exact absurd hclaim (hassigning claim)
  · rintro i ⟨_, claim, hclaim⟩
    exact absurd hclaim (hleaving (some claim))

/-- One section of a search. -/
theorem accounts_next (h : e.Accounts s.Pends s.HasAssigned) (hs : s.Attends e)
    (hsearch : s.search.Sound e.world.fleet.defenders)
    (hleaving : forall claim?, s.search ≠ .leaving claim?) :
    ({ e with world := (s.search.step s.interceptor e.world).2 } : Engagement).Accounts
      (s.next e.world).Pends (s.next e.world).HasAssigned := by
  rcases s with ⟨task, interceptor, search⟩
  cases search with
  | stamping claim =>
      refine (h.stamp hs.task hs.scans hsearch).mono ?_ ?_
      · rintro d a (⟨other, hother, _⟩ | ⟨hd, ha⟩)
        · cases hother
        · exact ⟨claim, rfl, hd.symm, ha.symm⟩
      · rintro i ⟨_, other, hother⟩
        cases hother
  | assigning claim =>
      have hidle : ¬ HasAssigned ⟨task, interceptor, .assigning claim⟩ task := by
        rintro ⟨_, other, hother⟩
        cases hother
      refine (h.assign hs.task hidle hs.scans ?_).mono (fun _ _ => False.elim) ?_
      · rintro d a ⟨other, hother, hd, ha⟩
        injection hother with hother
        exact ⟨hd.symm, by rw [← ha, ← hother]⟩
      · rintro i (⟨_, other, hother⟩ | heq)
        · cases hother
        · exact ⟨heq.symm, claim, rfl⟩
  | leaving claim? => exact absurd rfl (hleaving claim?)
  | scanning rest | tracing claim trackedBy rest | listing claim slot listed rest
  | asking claim left rest | finished =>
      exact accounts_looking h (fun _ => nofun) (fun _ => nofun) fun _ => nofun

theorem Pends.isOpen {d a : MissileId} (h : s.Pends d a) : s.isOpen = true := by
  rcases h with ⟨claim, hclaim, _⟩
  rw [Searcher.isOpen, hclaim]
  rfl

theorem HasAssigned.isOpen {task : Nat} (h : s.HasAssigned task) : s.isOpen = true := by
  rcases h with ⟨_, claim, hclaim⟩
  rw [Searcher.isOpen, hclaim]
  rfl

end Searcher

/-!
## Hunts
-/

namespace Hunt

def Pends (h : Hunt) (d a : MissileId) : Prop :=
  exists s, s ∈ h.searchers ∧ s.Pends d a

def HasAssigned (h : Hunt) (task : Nat) : Prop :=
  exists s, s ∈ h.searchers ∧ s.HasAssigned task

structure Matched (h : Hunt) : Prop where
  sound : h.Sound
  accounts : h.engagement.Accounts h.Pends h.HasAssigned
  attends : forall s, s ∈ h.searchers -> s.isOpen = true -> s.Attends h.engagement

variable {h : Hunt} {k : Nat} {s r : Searcher}

theorem Sound.not_open (hh : h.Sound) (hfree : h.engagement.world.lock.holders = 0)
    (hs : s ∈ h.searchers) : s.isOpen ≠ true := by
  rw [Searcher.isOpen, hh.finished_of_free hfree hs]
  exact Bool.false_ne_true

theorem Sound.not_pends (hh : h.Sound) (hfree : h.engagement.world.lock.holders = 0)
    (d a : MissileId) : ¬ h.Pends d a := by
  rintro ⟨s, hs, hpends⟩
  exact hh.not_open hfree hs hpends.isOpen

theorem Sound.not_hasAssigned (hh : h.Sound) (hfree : h.engagement.world.lock.holders = 0)
    (task : Nat) : ¬ h.HasAssigned task := by
  rintro ⟨s, hs, hassigned⟩
  exact hh.not_open hfree hs hassigned.isOpen

theorem Matched.settled (hm : h.Matched) (hfree : h.engagement.world.lock.holders = 0) :
    h.engagement.Accounts (fun _ _ => False) fun _ => False :=
  hm.accounts.mono (hm.sound.not_pends hfree) (hm.sound.not_hasAssigned hfree)

/-!
## Sections of a search
-/

theorem Matched.sole (hm : h.Matched) (hk : h.searchers[k]? = some s) (hs : s.isOpen = true) :
    h.engagement.Accounts s.Pends s.HasAssigned := by
  refine hm.accounts.mono ?_ ?_
  · rintro d a ⟨r, hr, hpends⟩
    exact hm.sound.sole hk hs hr hpends.isOpen ▸ hpends
  · rintro i ⟨r, hr, hassigned⟩
    exact hm.sound.sole hk hs hr hassigned.isOpen ▸ hassigned

theorem matched_set (hh : h.Sound) (hk : h.searchers[k]? = some s) (hs : s.isOpen = true)
    {e : Engagement} (hsound : ({ engagement := e, searchers := h.searchers.set k r } : Hunt).Sound)
    (haccounts : e.Accounts r.Pends r.HasAssigned) (hattends : r.isOpen = true -> r.Attends e) :
    ({ engagement := e, searchers := h.searchers.set k r } : Hunt).Matched := by
  have hr : r ∈ h.searchers.set k r := List.mem_set (List.getElem?_eq_some_iff.mp hk).1 r
  refine ⟨hsound, haccounts.mono (fun d a hpends => ⟨r, hr, hpends⟩)
    fun i hassigned => ⟨r, hr, hassigned⟩, fun s' hs' hopen => ?_⟩
  have heq := hh.sole_set hk hs hs' hopen
  subst heq
  exact hattends hopen

theorem Matched.leave (hm : h.Matched) (hk : h.searchers[k]? = some s) {claim? : Option Claim}
    (hleaving : s.search = .leaving claim?) : (h.leave k s claim?).Matched := by
  have hs : s.isOpen = true := by rw [Searcher.isOpen, hleaving]; rfl
  have hsound := hm.sound.leave hk hs claim?
  have hattends := hm.attends s (List.mem_of_getElem? hk) hs
  have haccounts := hm.sole hk hs
  refine matched_set hm.sound hk hs hsound ?_ fun hopen => by cases hopen
  refine Engagement.Accounts.relock (e := { h.engagement with
    tasks := h.engagement.tasks.set s.task (.defence (.attempting (.afterClaim
      h.engagement.world.settings s.interceptor claim?))) }) ?_ hsound.quiet hsound.holders_le
  rcases haccounts.staffed with ⟨observers, hstaffed⟩
  refine
    { staffed := ⟨observers, ?_⟩
      typed := haccounts.typed
      agrees := haccounts.agrees.mono ?_
      traced := fun i t hi _ => ?_ }
  · have hcharge := hstaffed.charge _ (List.mem_of_getElem? hattends.task)
    refine hstaffed.replace hattends.task (w := h.engagement.world) ?_ ?_
    · cases claim? <;> exact hcharge.stays hstaffed.world
    · cases claim? <;> trivial
  · rintro d a ⟨claim, hclaim, _⟩
    rw [hleaving] at hclaim
    cases hclaim
  · rcases getElem?_set_cases hi with ⟨_, heq⟩ | ⟨hne, hold⟩
    · rw [heq]
      cases claim? <;> trivial
    · exact haccounts.traced i t hold fun hassigned => hne hassigned.1.symm

theorem Matched.proceed (hm : h.Matched) (hk : h.searchers[k]? = some s) :
    (h.proceed k s).Matched := by
  have hproceed := hm.sound.proceed hk
  by_cases hgoing : s.search.isGoing = true
  · have hs : s.isOpen = true := by
      rw [Searcher.isOpen]
      cases hsearch : s.search <;> rw [hsearch] at hgoing <;> first | rfl | cases hgoing
    have hattends := hm.attends s (List.mem_of_getElem? hk) hs
    rw [proceed_of_going hgoing] at hproceed ⊢
    refine matched_set hm.sound hk hs hproceed ?_ fun _ => hattends.next
    refine Searcher.accounts_next (hm.sole hk hs) hattends
      (hm.sound.search s (List.mem_of_getElem? hk)) fun claim? hleaving => ?_
    rw [hleaving] at hgoing
    cases hgoing
  · cases hsearch : s.search with
    | leaving claim? =>
        have hleave : h.proceed k s = h.leave k s claim? := by simp only [Hunt.proceed, hsearch]
        rw [hleave]
        exact hm.leave hk hsearch
    | finished =>
        have hstay : h.proceed k s = h := by simp only [Hunt.proceed, hsearch]
        rw [hstay]
        exact hm
    | scanning | tracing | listing | asking | stamping | assigning =>
        rw [hsearch] at hgoing
        exact absurd rfl hgoing

theorem seek_cases (h : Hunt) (task : Nat) :
    h.seek task = h ∨ exists interceptor held,
      (h.engagement.tasks[task]?).bind Task.claimant? = some interceptor ∧
      h.engagement.world.lock.enter .low = (none, held) ∧
      h.seek task =
        { engagement :=
            { h.engagement with world := { h.engagement.world with lock := held } }
          searchers :=
            h.searchers ++ [{ task, interceptor, search := .start h.engagement.world }] } := by
  unfold Hunt.seek
  split
  · rename_i interceptor held hclaimant _ henter
    exact .inr ⟨interceptor, held, hclaimant, henter, rfl⟩
  · exact .inl rfl

theorem Matched.seek (hm : h.Matched) (task : Nat) : (h.seek task).Matched := by
  have hsound := hm.sound.seek task
  rcases seek_cases h task with hstay | ⟨interceptor, held, hclaimant, henter, hseek⟩
  · rw [hstay]
    exact hm
  · rw [hseek] at hsound ⊢
    have hfree := (FieldLock.enter_eq_none henter).1
    refine ⟨hsound, ?_, fun s hs hopen => ?_⟩
    · exact ((hm.settled hfree).relock hsound.quiet hsound.holders_le).mono
        (fun _ _ => False.elim) fun _ => False.elim
    · rcases List.mem_append.mp hs with hold | hnew
      · exact absurd hopen (hm.sound.not_open hfree hold)
      · rw [List.mem_singleton.mp hnew]
        rcases Option.bind_eq_some_iff.mp hclaimant with ⟨t, ht, hid⟩
        exact ⟨ht.trans (congrArg some (Task.eq_of_claimant? hid)),
          Search.scans_start interceptor h.engagement.world⟩

end Hunt
end AirDefense
