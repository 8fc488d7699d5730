import AirDefense.Proofs.Engagement.Claims

/-!
# Searching for a target

A claim is one step of its task, with the grid held.  Below that step it is a search: it
goes through the cells, and for each attacker it looks into the arenas, one slot at a
time.  Others have no access to the grid meanwhile, but they do have access to the
arenas.

With nobody else at work a search comes to the same end as the claim.  With others at
work it still ends with an attacker that nobody pursues.
-/

namespace AirDefense

def Arena.occupantOf (a : Arena) (slot : Nat) : Option MissileId :=
  match a.slots[slot]? with
  | some s => s.missile.map fun _ => ⟨a.side, slot, s.generation⟩
  | none => none

/-- How far a search has come. -/
inductive Search where
  | scanning (rest : List (Position × Cell))
  /-- The attacker is active; about to look for the claimant that its cell names. -/
  | tracing (claim : Claim) (trackedBy : Option MissileId) (rest : List (Position × Cell))
  /-- Listing the interceptors, slot by slot. -/
  | listing (claim : Claim) (slot : Nat) (listed : List MissileId)
      (rest : List (Position × Cell))
  /-- Asking the listed interceptors for their targets. -/
  | asking (claim : Claim) (left : List MissileId) (rest : List (Position × Cell))
  /-- Nobody is after the attacker; about to mark its cell. -/
  | stamping (claim : Claim)
  | assigning (claim : Claim)
  | leaving (claim? : Option Claim)
  | finished

namespace Search

def start (w : World) : Search :=
  scanning w.grid.missileEntries

def glance (f : Fleet) (rest : List (Position × Cell)) : Position × Cell -> Search
  | (p, .attacker id trackedBy) =>
      if f.attackers.isActive id then tracing ⟨id, p⟩ trackedBy rest else scanning rest
  | _ => scanning rest

def step (interceptor : MissileId) (s : Search) (w : World) : Search × World :=
  match s with
  | scanning [] => (leaving none, w)
  | scanning (entry :: rest) => (glance w.fleet rest entry, w)
  | tracing claim trackedBy rest =>
      (if trackedBy.any w.fleet.defenders.isLive then scanning rest
        else listing claim 0 [] rest, w)
  | listing claim slot listed rest =>
      (if slot < w.fleet.defenders.capacity then
          listing claim (slot + 1) (listed ++ (w.fleet.defenders.occupantOf slot).toList) rest
        else asking claim listed rest, w)
  | asking claim [] _ => (stamping claim, w)
  | asking claim (id :: left) rest =>
      (if (w.fleet.defenders.find? id).any fun m => m.target = some claim.target then
          scanning rest
        else asking claim left rest, w)
  | stamping claim =>
      (assigning claim, { w with grid := w.grid.stamp claim.position interceptor })
  | assigning claim =>
      (leaving (some claim),
        { w with
          fleet :=
            { w.fleet with
              defenders := w.fleet.defenders.assign interceptor (some claim.target) } })
  | leaving claim? => (leaving claim?, w)
  | finished => (finished, w)

/-!
## A search with nobody else at work
-/

def isGoing : Search -> Bool
  | leaving _ => false
  | finished => false
  | _ => true

inductive Reaches (interceptor : MissileId) : Search × World -> Search × World -> Prop where
  | refl (x : Search × World) : Reaches interceptor x x
  | step {x y : Search × World} (hgoing : x.1.isGoing = true)
      (h : Reaches interceptor (x.1.step interceptor x.2) y) : Reaches interceptor x y

variable {interceptor : MissileId} {w : World} {claim : Claim} {rest : List (Position × Cell)}

theorem Reaches.trans {x y z : Search × World} (h : Reaches interceptor x y)
    (h' : Reaches interceptor y z) : Reaches interceptor x z := by
  induction h with
  | refl x => exact h'
  | step hgoing _ ih => exact .step hgoing (ih h')

def listedBelow (a : Arena) (slot : Nat) : List MissileId :=
  (List.range slot).filterMap a.occupantOf

theorem reaches_asking (slot : Nat) (hslot : slot <= w.fleet.defenders.capacity) :
    Reaches interceptor (listing claim slot (listedBelow w.fleet.defenders slot) rest, w)
      (asking claim w.fleet.defenders.liveIds rest, w) := by
  induction hleft : w.fleet.defenders.capacity - slot generalizing slot with
  | zero =>
      have hend : slot = w.fleet.defenders.capacity := by omega
      subst hend
      apply Reaches.step rfl
      simp only [step, Nat.lt_irrefl, if_false]
      exact .refl _
  | succ n ih =>
      have hlt : slot < w.fleet.defenders.capacity := by omega
      apply Reaches.step rfl
      simp only [step, hlt, if_true]
      have hnext : listedBelow w.fleet.defenders slot ++
          (w.fleet.defenders.occupantOf slot).toList =
            listedBelow w.fleet.defenders (slot + 1) := by
        simp only [listedBelow, List.range_succ, List.filterMap_append]
        cases hoccupant : w.fleet.defenders.occupantOf slot <;> simp [hoccupant]
      rw [hnext]
      exact ih (slot + 1) hlt (by omega)

theorem reaches_answer (left : List MissileId) :
    Reaches interceptor (asking claim left rest, w)
      (if left.any fun id => (w.fleet.defenders.find? id).any fun m =>
          m.target = some claim.target then scanning rest else stamping claim, w) := by
  induction left with
  | nil => exact .step rfl (.refl _)
  | cons id left ih =>
      apply Reaches.step rfl
      simp only [step, List.any_cons]
      by_cases hasked : ((w.fleet.defenders.find? id).any fun m =>
          m.target = some claim.target) = true
      · simp only [hasked, Bool.true_or, if_true]
        exact .refl _
      · simp only [hasked, Bool.false_or]
        exact ih

theorem reaches_verdict (entry : Position × Cell) :
    Reaches interceptor (glance w.fleet rest entry, w)
      (match Claim.ofCell w.fleet entry with
        | some claim => stamping claim
        | none => scanning rest, w) := by
  rcases entry with ⟨p, c⟩
  cases c with
  | attacker target trackedBy =>
      by_cases hactive : w.fleet.attackers.isActive target = true
      · simp only [glance, Claim.ofCell, Fleet.isUnclaimed, hactive, if_true, Bool.true_and]
        apply Reaches.step rfl
        by_cases htracked : trackedBy.any w.fleet.defenders.isLive = true
        · simp only [step, htracked, if_true, Bool.not_true, Bool.false_and]
          exact .refl _
        · simp only [step, htracked, Bool.not_false, Bool.true_and]
          have hanswer : Reaches interceptor
              (asking ⟨target, p⟩ w.fleet.defenders.liveIds rest, w)
              (if w.fleet.isEngaged target then scanning rest else stamping ⟨target, p⟩, w) :=
            reaches_answer _
          refine (reaches_asking 0 (Nat.zero_le _)).trans (hanswer.trans ?_)
          by_cases hengaged : w.fleet.isEngaged target = true
          · simp only [hengaged, if_true, Bool.not_true]
            exact .refl _
          · simp only [hengaged, Bool.not_false]
            exact .refl _
      · simp only [glance, Claim.ofCell, Fleet.isUnclaimed, hactive]
        exact .refl _
  | empty | wall | goal | defender occupant => exact .refl _

/-- What a search with nobody else at work comes to. -/
theorem reaches_leaving :
    Reaches interceptor (start w, w)
      (leaving (Claim.take w.grid w.fleet interceptor).1,
        { w with
          grid := (Claim.take w.grid w.fleet interceptor).2.1
          fleet := (Claim.take w.grid w.fleet interceptor).2.2 }) := by
  have hscan : forall rest, Reaches interceptor (scanning rest, w)
      (match rest.findSome? (Claim.ofCell w.fleet) with
        | some claim => stamping claim
        | none => leaving none, w) := by
    intro rest
    induction rest with
    | nil => exact .step rfl (.refl _)
    | cons entry rest ih =>
        apply Reaches.step rfl
        refine (reaches_verdict entry).trans ?_
        rw [List.findSome?_cons]
        cases Claim.ofCell w.fleet entry with
        | none => exact ih
        | some claim => exact .refl _
  refine (hscan w.grid.missileEntries).trans ?_
  unfold Claim.take Claim.first?
  cases w.grid.missileEntries.findSome? (Claim.ofCell w.fleet) with
  | none => exact .refl _
  | some claim => exact .step rfl (.step rfl (.refl _))

/-!
## A search with others at work

Others end pursuits and begin none.  So whoever pursues the attacker at the end of a
search has done so all the time, and the search has met it.
-/

/-- What a search has made sure of about the interceptors in `a`. -/
def Sound (a : Arena) : Search -> Prop
  | listing claim slot listed _ =>
      forall id, a.Pursues id claim.target -> id ∈ listed ∨ slot <= id.slot
  | asking claim left _ => forall id, a.Pursues id claim.target -> id ∈ left
  | stamping claim => forall id, ¬ a.Pursues id claim.target
  | assigning claim => forall id, ¬ a.Pursues id claim.target
  | scanning _ => True
  | tracing _ _ _ => True
  | leaving _ => True
  | finished => True

variable {s : Search}

theorem Sound.of_beginsNone {a b : Arena} (h : s.Sound a) (hnone : a.BeginsNone b) :
    s.Sound b := by
  cases s with
  | listing claim slot listed rest => exact fun id hid => h id (hnone id _ hid)
  | asking claim left rest => exact fun id hid => h id (hnone id _ hid)
  | stamping claim | assigning claim => exact fun id hid => h id (hnone id _ hid)
  | scanning rest | tracing claim trackedBy rest | leaving claim? | finished => trivial

theorem sound_glance (a : Arena) (f : Fleet) (entry : Position × Cell) :
    (glance f rest entry).Sound a := by
  unfold glance
  split
  · split <;> trivial
  · trivial

theorem mem_listed {a : Arena} {id target : MissileId} (h : a.Pursues id target) :
    a.occupantOf id.slot = some id ∧ id.slot < a.capacity := by
  rcases h with ⟨m, hid, _⟩
  rcases Arena.find?_eq_some_iff.mp hid with ⟨hside, hslot⟩
  refine ⟨?_, (Array.getElem?_eq_some_iff.mp hslot).1⟩
  simp only [Arena.occupantOf, hslot, Option.map_some, ← hside]

theorem Sound.step (h : s.Sound w.fleet.defenders) (hw : w.fleet.defenders.IsExclusive)
    (interceptor : MissileId) :
    (s.step interceptor w).1.Sound (s.step interceptor w).2.fleet.defenders ∧
      (s.step interceptor w).2.fleet.defenders.IsExclusive := by
  cases s with
  | scanning rest =>
      cases rest with
      | nil => exact ⟨trivial, hw⟩
      | cons entry rest => exact ⟨sound_glance _ _ _, hw⟩
  | tracing claim trackedBy rest =>
      simp only [Search.step]
      split
      · exact ⟨trivial, hw⟩
      · exact ⟨fun id _ => .inr (Nat.zero_le _), hw⟩
  | listing claim slot listed rest =>
      simp only [Search.step]
      split
      · refine ⟨fun id hid => ?_, hw⟩
        rcases h id hid with hlisted | hlater
        · exact .inl (List.mem_append_left _ hlisted)
        · rcases Nat.eq_or_lt_of_le hlater with heq | hlt
          · refine .inl (List.mem_append_right _ ?_)
            rw [heq, (mem_listed hid).1]
            exact List.mem_singleton_self id
          · exact .inr hlt
      · rename_i hend
        refine ⟨fun id hid => (h id hid).resolve_right fun hlater => ?_, hw⟩
        exact hend (Nat.lt_of_le_of_lt hlater (mem_listed hid).2)
  | asking claim left rest =>
      cases left with
      | nil => exact ⟨fun id hid => List.not_mem_nil (h id hid), hw⟩
      | cons asked left =>
          simp only [Search.step]
          split
          · exact ⟨trivial, hw⟩
          · rename_i hother
            refine ⟨fun id hid => ?_, hw⟩
            rcases List.mem_cons.mp (h id hid) with heq | hleft
            · subst heq
              rcases hid with ⟨m, hm, ht⟩
              exact absurd (by simp [hm, ht]) hother
            · exact hleft
  | stamping claim => exact ⟨h, hw⟩
  | assigning claim => exact ⟨trivial, hw.assign h⟩
  | leaving claim? | finished => exact ⟨trivial, hw⟩

theorem lock_step : (s.step interceptor w).2.lock = w.lock := by
  cases s with
  | scanning rest => cases rest <;> rfl
  | asking claim left rest => cases left <;> rfl
  | tracing claim trackedBy rest | listing claim slot listed rest => rfl
  | stamping claim | assigning claim | leaving claim? | finished => rfl

end Search
end AirDefense
