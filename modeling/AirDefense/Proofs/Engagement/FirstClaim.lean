import AirDefense.Proofs.Engagement.Marks
import AirDefense.Proofs.Field.RowOrder
import AirDefense.Proofs.Field.Scoring

/-!
# The first attacker that is open

An attacker is open to a claim while it flies, no live interceptor has marked it and none
pursues it.  Of all that are open an interceptor claims the first, row by row: it marks the
cell, it is assigned the attacker, and nothing else changes.
-/

namespace AirDefense

/-!
## Marks
-/

namespace Grid

variable {g : Grid} {p : Position}

structure Marked (g : Grid) (p : Position) (target claimant : MissileId) (g' : Grid) :
    Prop where
  width_eq : g'.width = g.width
  height_eq : g'.height = g.height
  cell?_eq : forall q, g'.cell? q =
    if q = p then some (.attacker target (some claimant)) else g.cell? q
  score_eq : g'.score = g.score

theorem marked_iff {target claimant : MissileId} {mark : Option MissileId} {g' : Grid}
    (h : g.cell? p = some (.attacker target mark)) :
    g.Marked p target claimant g' ↔ g' = g.stamp p claimant := by
  constructor
  · intro hmarked
    refine ext_of_cell? (hmarked.width_eq.trans width_stamp.symm)
      (hmarked.height_eq.trans height_stamp.symm) (fun q => ?_)
      (hmarked.score_eq.trans score_stamp.symm)
    exact (hmarked.cell?_eq q).trans (cell?_stamp h).symm
  · intro heq
    subst heq
    exact ⟨width_stamp, height_stamp, fun q => cell?_stamp h, score_stamp⟩

end Grid

/-!
## Assignments
-/

namespace Fleet

structure Assigned (f : Fleet) (id target : MissileId) (f' : Fleet) : Prop where
  attackers_eq : f'.attackers = f.attackers
  side_eq : f'.defenders.side = f.defenders.side
  slots_eq : forall slot : Nat, f'.defenders.slots[slot]? =
    if slot = id.slot then
      some ⟨id.generation,
        (f.defenders.find? id).map fun m => { m with target := some target }⟩
    else f.defenders.slots[slot]?

variable {f f' : Fleet} {id target : MissileId}

theorem slots_assign {m : Missile} (h : f.defenders.find? id = some m) (slot : Nat) :
    (f.defenders.assign id (some target)).slots[slot]? =
      if slot = id.slot then
        some ⟨id.generation,
          (f.defenders.find? id).map fun m => { m with target := some target }⟩
      else f.defenders.slots[slot]? := by
  rw [Arena.assign, Arena.update_eq_putMissile h, Arena.slots_putMissile h, h, Option.map_some]

theorem assigned_iff (hlive : f.defenders.isLive id = true) :
    f.Assigned id target f' ↔
      f' = { f with defenders := f.defenders.assign id (some target) } := by
  rcases Option.isSome_iff_exists.mp hlive with ⟨m, hm⟩
  constructor
  · intro h
    have hdefenders : f'.defenders = f.defenders.assign id (some target) :=
      Arena.ext_of_slots (h.side_eq.trans (Arena.side_update _).symm)
        fun slot => (h.slots_eq slot).trans (slots_assign hm slot).symm
    rcases f' with ⟨attackers, defenders⟩
    rw [← hdefenders, ← h.attackers_eq]
  · intro heq
    subst heq
    exact ⟨rfl, Arena.side_update _, slots_assign hm⟩

theorem Assigned.pursues (h : f.Assigned id target f') (hlive : f.defenders.isLive id = true) :
    f'.defenders.Pursues id target := by
  rcases Option.isSome_iff_exists.mp hlive with ⟨m, hm⟩
  refine ⟨{ m with target := some target }, ?_, rfl⟩
  rw [(assigned_iff hlive).mp h, Arena.assign, Arena.find?_update, if_pos rfl, hm,
    Option.map_some]

theorem isUnclaimed_iff {mark : Option MissileId} :
    f.isUnclaimed target mark = true ↔
      (exists m, f.attackers.find? target = some m ∧ m.deleted = false) ∧
        (forall d, mark = some d -> f.defenders.find? d = none) ∧
        forall d, ¬ f.defenders.Pursues d target := by
  have hengaged : f.isEngaged target = false ↔ forall d, ¬ f.defenders.Pursues d target := by
    rw [← Bool.not_eq_true, isEngaged_iff, not_exists]
  cases mark with
  | none => simp [isUnclaimed, Arena.isActive_iff, hengaged]
  | some d => simp [isUnclaimed, Arena.isActive_iff, hengaged, Arena.isLive, and_assoc]

theorem isUnclaimed_of_pursues {d : MissileId} (h : f.defenders.Pursues d target)
    (mark : Option MissileId) : f.isUnclaimed target mark = false :=
  Bool.eq_false_iff.mpr fun hunclaimed => (isUnclaimed_iff.mp hunclaimed).2.2 d h

end Fleet

/-!
## Claims
-/

namespace Claim

/-- The attacker `target` at `p` flies, and no live interceptor marks it or pursues it. -/
structure IsOpen (g : Grid) (f : Fleet) (p : Position) (target : MissileId)
    (mark : Option MissileId) : Prop where
  cell_eq : g.cell? p = some (.attacker target mark)
  active : exists m, f.attackers.find? target = some m ∧ m.deleted = false
  unmarked : forall d, mark = some d -> f.defenders.find? d = none
  unpursued : forall d, ¬ f.defenders.Pursues d target

/-- What an interceptor claims, and what has changed then. -/
inductive Takes (g : Grid) (f : Fleet) (interceptor : MissileId) :
    Option Claim -> Grid -> Fleet -> Prop where
  | nothing (hnone : forall p target mark, ¬ IsOpen g f p target mark) :
      Takes g f interceptor none g f
  | first {p : Position} {target : MissileId} {mark : Option MissileId} {g' : Grid}
      {f' : Fleet} (hopen : IsOpen g f p target mark)
      (hfirst : forall q other mark, q.Precedes p -> ¬ IsOpen g f q other mark)
      (hgrid : g.Marked p target interceptor g') (hfleet : f.Assigned interceptor target f') :
      Takes g f interceptor (some ⟨target, p⟩) g' f'

variable {g g' : Grid} {f f' : Fleet} {d target : MissileId} {p : Position} {c : Cell}
  {claim : Claim} {c? : Option Claim}

theorem ofCell_eq_some_iff : ofCell f (p, c) = some claim ↔
    claim.position = p ∧ exists mark, c = .attacker claim.target mark ∧
      f.isUnclaimed claim.target mark = true := by
  cases c with
  | attacker target mark =>
      simp only [ofCell, Option.ite_none_right_eq_some]
      constructor
      · rintro ⟨hunclaimed, heq⟩
        injection heq with heq
        subst heq
        exact ⟨rfl, mark, rfl, hunclaimed⟩
      · rintro ⟨hp, mark', heq, hunclaimed⟩
        injection heq with htarget hmark
        subst hp htarget hmark
        exact ⟨hunclaimed, rfl⟩
  | empty | wall | goal | defender occupant => simp [ofCell]

theorem isOpen_iff {mark : Option MissileId} :
    IsOpen g f p target mark ↔
      g.cell? p = some (.attacker target mark) ∧ f.isUnclaimed target mark = true := by
  rw [Fleet.isUnclaimed_iff]
  exact ⟨fun h => ⟨h.cell_eq, h.active, h.unmarked, h.unpursued⟩,
    fun ⟨hcell, hactive, hunmarked, hunpursued⟩ => ⟨hcell, hactive, hunmarked, hunpursued⟩⟩

/-- The cells that allow a claim are those of the attackers that are open. -/
theorem exists_ofCell_iff : (exists c, (p, c) ∈ g.missileEntries ∧ ofCell f (p, c) = some claim) ↔
    claim.position = p ∧ exists mark, IsOpen g f p claim.target mark := by
  constructor
  · rintro ⟨c, hmem, hclaim⟩
    rcases ofCell_eq_some_iff.mp hclaim with ⟨hp, mark, hc, hunclaimed⟩
    exact ⟨hp, mark, isOpen_iff.mpr ⟨hc ▸ (Grid.mem_missileEntries.mp hmem).1, hunclaimed⟩⟩
  · rintro ⟨hp, mark, hopen⟩
    rcases isOpen_iff.mp hopen with ⟨hcell, hunclaimed⟩
    exact ⟨.attacker claim.target mark, Grid.mem_missileEntries.mpr ⟨hcell, rfl⟩,
      ofCell_eq_some_iff.mpr ⟨hp, mark, rfl, hunclaimed⟩⟩

theorem ofCell_eq_none_iff (hmem : (p, c) ∈ g.missileEntries) :
    ofCell f (p, c) = none ↔ forall target mark, ¬ IsOpen g f p target mark := by
  have hcell := (Grid.mem_missileEntries.mp hmem).1
  rw [Option.eq_none_iff_forall_ne_some]
  constructor
  · intro hnone target mark hopen
    have hallowed : exists c, (p, c) ∈ g.missileEntries ∧ ofCell f (p, c) = some ⟨target, p⟩ :=
      exists_ofCell_iff.mpr ⟨rfl, mark, hopen⟩
    rcases hallowed with ⟨c', hmem', hclaim⟩
    have heq := hcell.symm.trans (Grid.mem_missileEntries.mp hmem').1
    injection heq with heq
    exact hnone ⟨target, p⟩ (heq ▸ hclaim)
  · intro hnone claim hclaim
    rcases exists_ofCell_iff.mp ⟨c, hmem, hclaim⟩ with ⟨_, mark, hopen⟩
    exact hnone _ mark hopen

theorem first?_eq_none_iff :
    first? g f = none ↔ forall p target mark, ¬ IsOpen g f p target mark := by
  rw [first?, List.findSome?_eq_none_iff]
  constructor
  · intro hnone p target mark hopen
    have hmem : (p, Cell.attacker target mark) ∈ g.missileEntries :=
      Grid.mem_missileEntries.mpr ⟨hopen.cell_eq, rfl⟩
    exact (ofCell_eq_none_iff hmem).mp (hnone _ hmem) target mark hopen
  · rintro hnone ⟨p, c⟩ hmem
    exact (ofCell_eq_none_iff hmem).mpr (hnone p)

theorem first?_eq_some_iff :
    first? g f = some claim ↔ (exists mark, IsOpen g f claim.position claim.target mark) ∧
      forall q other mark, q.Precedes claim.position -> ¬ IsOpen g f q other mark := by
  rw [first?, Grid.findSome?_eq_some_iff_of_pairwise (fun _ _ => Position.Precedes.asymm)
    g.pairwise_precedes_missileEntries]
  constructor
  · rintro ⟨⟨p, c⟩, hmem, hclaim, hfirst⟩
    rcases exists_ofCell_iff.mp ⟨c, hmem, hclaim⟩ with ⟨hp, hopen⟩
    subst hp
    refine ⟨hopen, fun q other mark hq hother => ?_⟩
    have hmem' : (q, Cell.attacker other mark) ∈ g.missileEntries :=
      Grid.mem_missileEntries.mpr ⟨hother.cell_eq, rfl⟩
    exact (ofCell_eq_none_iff hmem').mp (hfirst _ hmem' hq) other mark hother
  · rintro ⟨hopen, hfirst⟩
    rcases exists_ofCell_iff.mpr ⟨rfl, hopen⟩ with ⟨c, hmem, hclaim⟩
    refine ⟨_, hmem, hclaim, ?_⟩
    rintro ⟨q, b⟩ hmem' hq
    exact (ofCell_eq_none_iff hmem').mpr fun other mark => hfirst q other mark hq

theorem takes_iff (hlive : f.defenders.isLive d = true) :
    Takes g f d c? g' f' ↔ take g f d = (c?, g', f') := by
  unfold take
  constructor
  · intro h
    cases h with
    | nothing hnone => rw [first?_eq_none_iff.mpr hnone]
    | @first p target mark _ _ hopen hfirst hgrid hfleet =>
        have hclaim : first? g f = some ⟨target, p⟩ :=
          first?_eq_some_iff.mpr ⟨⟨mark, hopen⟩, hfirst⟩
        rw [hclaim, (Grid.marked_iff hopen.cell_eq).mp hgrid, (Fleet.assigned_iff hlive).mp hfleet]
  · cases hclaim : first? g f with
    | none =>
        rintro ⟨⟩
        exact .nothing (first?_eq_none_iff.mp hclaim)
    | some claim =>
        rintro ⟨⟩
        rcases first?_eq_some_iff.mp hclaim with ⟨⟨mark, hopen⟩, hfirst⟩
        exact .first hopen hfirst ((Grid.marked_iff hopen.cell_eq).mpr rfl)
          ((Fleet.assigned_iff hlive).mpr rfl)

/--
A live interceptor claims the first attacker that is open, row by row, and nothing if none is
open.  What is claimed is unclaimed no more, whatever mark one asks about.
-/
theorem take_claims_first_open (hlive : f.defenders.isLive d = true) :
    (forall c? g' f', take g f d = (c?, g', f') ↔ Takes g f d c? g' f') ∧
      forall claim g' f', take g f d = (some claim, g', f') ->
        forall mark, f'.isUnclaimed claim.target mark = false := by
  refine ⟨fun c? g' f' => (takes_iff hlive).symm, fun claim g' f' htake => ?_⟩
  cases (takes_iff hlive).mpr htake with
  | first _ _ _ hfleet => exact Fleet.isUnclaimed_of_pursues (hfleet.pursues hlive)

theorem take_claims_first_open_lapsed :
    exists (g : Grid) (f : Fleet),
      g.cells = #[.attacker ⟨.attacker, 0, 1⟩ none,
        .attacker ⟨.attacker, 1, 1⟩ (some ⟨.defender, 0, 1⟩), .attacker ⟨.attacker, 2, 1⟩ none] ∧
      f.defenders.isLive ⟨.defender, 1, 1⟩ = true ∧
      f.defenders.isLive ⟨.defender, 0, 1⟩ = false ∧
      (take g f ⟨.defender, 1, 1⟩).1 = some ⟨⟨.attacker, 1, 1⟩, ⟨1, 0⟩⟩ ∧
      Takes g f ⟨.defender, 1, 1⟩ (some ⟨⟨.attacker, 1, 1⟩, ⟨1, 0⟩⟩)
        (take g f ⟨.defender, 1, 1⟩).2.1 (take g f ⟨.defender, 1, 1⟩).2.2 := by
  let zero := Single.ofInt 0
  let attacker := Missile.launchedAt .attacker .origin zero zero
  let stopped := { attacker with deleted := true }
  let defender := Missile.launchedAt .defender .origin zero zero
  let g : Grid :=
    { width := 3
      height := 1
      cells := #[.attacker ⟨.attacker, 0, 1⟩ none,
        .attacker ⟨.attacker, 1, 1⟩ (some ⟨.defender, 0, 1⟩), .attacker ⟨.attacker, 2, 1⟩ none]
      score := .zero
      size_cells := rfl }
  let f : Fleet :=
    { attackers := ⟨.attacker, #[⟨1, some stopped⟩, ⟨1, some attacker⟩, ⟨1, some attacker⟩]⟩
      defenders := ⟨.defender, #[⟨1, none⟩, ⟨1, some defender⟩]⟩ }
  have hlive : f.defenders.isLive ⟨.defender, 1, 1⟩ = true := by decide +kernel
  have hclaim : (take g f ⟨.defender, 1, 1⟩).1 = some ⟨⟨.attacker, 1, 1⟩, ⟨1, 0⟩⟩ := by
    decide +kernel
  refine ⟨g, f, rfl, hlive, by decide +kernel, hclaim, ?_⟩
  exact ((take_claims_first_open hlive).1 _ _ _).mp (Prod.ext hclaim rfl)

end Claim
end AirDefense
