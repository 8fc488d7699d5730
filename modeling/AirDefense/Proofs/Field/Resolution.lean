import AirDefense.Proofs.Field.Separation
import AirDefense.Proofs.Field.Words
import AirDefense.Proofs.Fleet.Arena

/-!
# What stops a move

The rule for a move, without a search and without writes: of all cells within the radius, row
by row, the first one that stops the mover tells how the move ends, and a missile that is hit
is all that changes, with a point where one is due.  The search for a collision ends whenever
the bounds of its square are numbers of 32 bits, and it ends as the rule says.
-/

namespace AirDefense

namespace Position

/-- Row by row, `p` comes before `q`. -/
def Precedes (p q : Position) : Prop :=
  p.y < q.y ∨ p.y = q.y ∧ p.x < q.x

theorem Precedes.asymm {p q : Position} (h : p.Precedes q) : ¬ q.Precedes p := by
  unfold Precedes at *
  omega

end Position

def Cell.Stops (mover : MissileId) : Cell -> Prop
  | empty => False
  | wall => True
  | goal => mover.side = .attacker
  | attacker id _ => id ≠ mover
  | defender id => id ≠ mover

namespace Fleet

structure Stopped (f : Fleet) (id : MissileId) (f' : Fleet) : Prop where
  side_eq : forall side, (f'.arena side).side = (f.arena side).side
  slots_eq : forall side slot, (f'.arena side).slots[slot]? =
    if side = id.side ∧ slot = id.slot ∧ (f.find? id).isSome = true then
      some ⟨id.generation, (f.find? id).map fun m => { m with deleted := true }⟩
    else (f.arena side).slots[slot]?

variable {f f' : Fleet} {id : MissileId}

theorem stopped_markDeleted (f : Fleet) (id : MissileId) : f.Stopped id (f.markDeleted id) := by
  unfold markDeleted Arena.markDeleted
  refine ⟨fun side => ?_, fun side slot => ?_⟩
  · rw [arena_setArena]
    split
    · rename_i hside
      rw [Arena.side_update, hside]
    · rfl
  · rw [arena_setArena]
    by_cases hside : side = id.side
    · rw [if_pos hside, hside]
      cases hfind : f.find? id with
      | none =>
          rw [Arena.update_eq_self hfind]
          simp
      | some m =>
          rw [Arena.update_eq_putMissile hfind, Arena.slots_putMissile hfind]
          simp
    · rw [if_neg hside, if_neg fun h => hside h.1]

theorem stopped_iff : f.Stopped id f' ↔ f' = f.markDeleted id := by
  have hmark := f.stopped_markDeleted id
  constructor
  · intro h
    exact ext_of_slots (fun side => (h.side_eq side).trans (hmark.side_eq side).symm)
      fun side slot => (h.slots_eq side slot).trans (hmark.slots_eq side slot).symm
  · intro h
    rwa [h]

end Fleet

namespace Grid

structure Emptied (g : Grid) (p : Position) (score : Score) (g' : Grid) : Prop where
  width_eq : g'.width = g.width
  height_eq : g'.height = g.height
  cell?_eq : forall q, g'.cell? q = if q = p then some .empty else g.cell? q
  score_eq : g'.score = score

/-- Row by row, the cell `c` at `p` is the first one around the mover that stops it. -/
structure FirstStop (g : Grid) (mover : MissileId) (centre : Position) (radius : Int)
    (p : Position) (c : Cell) : Prop where
  cell_eq : g.cell? p = some c
  near : centre.distance p <= radius
  stops : c.Stops mover
  first : forall q d, q.Precedes p -> centre.distance q <= radius -> g.cell? q = some d ->
    ¬ d.Stops mover

/-- How the move of a missile to `centre` ends, and what has changed then. -/
inductive Resolves (g : Grid) (f : Fleet) (mover : MissileId) (centre : Position)
    (radius : Int) : Option Collision -> Grid -> Fleet -> Prop where
  | offGrid (hcentre : g.inBounds centre = false) :
      Resolves g f mover centre radius (some .offGrid) g f
  | clear (hcentre : g.inBounds centre = true)
      (hclear : forall p c, centre.distance p <= radius -> g.cell? p = some c ->
        ¬ c.Stops mover) :
      Resolves g f mover centre radius none g f
  | wall {p : Position} (hcentre : g.inBounds centre = true)
      (hfirst : g.FirstStop mover centre radius p .wall) :
      Resolves g f mover centre radius (some .wall) g f
  | goal {p : Position} (hcentre : g.inBounds centre = true)
      (hfirst : g.FirstStop mover centre radius p .goal) :
      Resolves g f mover centre radius (some .goal)
        { g with score := { g.score with attackerPoints := g.score.attackerPoints + 1 } } f
  | intercept {p : Position} {c : Cell} {victim : MissileId} {g' : Grid} {f' : Fleet}
      (hcentre : g.inBounds centre = true)
      (hfirst : g.FirstStop mover centre radius p c)
      (hvictim : c.occupant? = some victim) (hside : victim.side = mover.side.opponent)
      (hgrid : g.Emptied p { g.score with defenderPoints := g.score.defenderPoints + 1 } g')
      (hfleet : f.Stopped victim f') :
      Resolves g f mover centre radius (some (.intercept victim)) g' f'
  | friendly {p : Position} {c : Cell} {victim : MissileId} {g' : Grid} {f' : Fleet}
      (hcentre : g.inBounds centre = true)
      (hfirst : g.FirstStop mover centre radius p c)
      (hvictim : c.occupant? = some victim) (hside : victim.side = mover.side)
      (hgrid : g.Emptied p g.score g') (hfleet : f.Stopped victim f') :
      Resolves g f mover centre radius (some (.friendly victim)) g' f'

variable {g g' : Grid} {f f' : Fleet} {mover id : MissileId} {centre p q : Position}
  {radius : Int} {c : Cell} {ps : List Position} {score : Score}

/-!
## The order of the search
-/

theorem pairwise_span (first last : Int) : (span first last).Pairwise (· < ·) := by
  unfold span
  rw [List.pairwise_map]
  exact List.pairwise_lt_range.imp fun h => by omega

theorem pairwise_rows (top bottom left right : Int) :
    ((span top bottom).flatMap fun y => (span left right).map fun x =>
      (⟨x, y⟩ : Position)).Pairwise Position.Precedes := by
  rw [List.pairwise_flatMap]
  constructor
  · intro y _
    rw [List.pairwise_map]
    exact (pairwise_span _ _).imp fun hlt => .inr ⟨rfl, hlt⟩
  · refine (pairwise_span _ _).imp fun hlt p hp q hq => ?_
    rcases List.mem_map.mp hp with ⟨_, _, hp⟩
    rcases List.mem_map.mp hq with ⟨_, _, hq⟩
    rw [← hp, ← hq]
    exact .inl hlt

theorem pairwise_square (h : g.square? centre radius = .ok ps) :
    ps.Pairwise Position.Precedes := by
  rw [← (square?_eq_ok_iff.mp h).2]
  exact pairwise_rows ..

theorem mem_square_of_cell? (h : g.square? centre radius = .ok ps) (hc : g.cell? p = some c) :
    p ∈ ps ↔ centre.distance p <= radius := by
  rw [mem_square h, Position.distance_le_iff, inBounds_of_cell? hc]
  simp

/-- In a list in order, the first hit is a hit with none before it. -/
theorem findSome?_eq_some_iff_of_pairwise {α β : Type} {R : α -> α -> Prop} {l : List α}
    {hit : α -> Option β} {b : β} (hasymm : forall x y, R x y -> ¬ R y x) (h : l.Pairwise R) :
    l.findSome? hit = some b ↔
      exists x, x ∈ l ∧ hit x = some b ∧ forall y, y ∈ l -> R y x -> hit y = none := by
  rw [List.findSome?_eq_some_iff]
  constructor
  · rintro ⟨before, x, rest, hl, hx, hbefore⟩
    subst hl
    refine ⟨x, by simp, hx, fun y hy hyx => ?_⟩
    rcases List.pairwise_append.mp h with ⟨_, hrest, _⟩
    rcases List.mem_append.mp hy with hy | hy
    · exact hbefore y hy
    · rcases List.mem_cons.mp hy with heq | hy
      · subst heq
        exact absurd hyx (hasymm _ _ hyx)
      · exact absurd hyx (hasymm _ _ ((List.pairwise_cons.mp hrest).1 y hy))
  · rintro ⟨x, hmem, hx, hfirst⟩
    rcases List.append_of_mem hmem with ⟨before, rest, hl⟩
    subst hl
    refine ⟨before, x, rest, rfl, hx, fun y hy => ?_⟩
    exact hfirst y (by simp [hy]) ((List.pairwise_append.mp h).2.2 y hy x (by simp))

/-!
## What the search finds
-/

theorem collisionWith_of_occupant (h : c.occupant? = some id) :
    collisionWith mover c = collisionWithMissile mover id := by
  cases c with
  | attacker occupant mark | defender occupant =>
      injection h with h
      rw [← h]
      rfl
  | empty | wall | goal => cases h

theorem collisionWith_eq_none_iff : collisionWith mover c = none ↔ ¬ c.Stops mover := by
  cases c with
  | empty => exact ⟨fun _ h => h, fun _ => rfl⟩
  | wall => exact ⟨nofun, fun h => absurd trivial h⟩
  | goal => simp [collisionWith, Cell.Stops]
  | attacker occupant mark | defender occupant =>
      by_cases heq : occupant = mover
      · simp [collisionWith, collisionWithMissile, Cell.Stops, heq]
      · by_cases hside : occupant.side = mover.side.opponent <;>
          simp [collisionWith, collisionWithMissile, Cell.Stops, heq, hside]

theorem ne_of_stops (hid : c.occupant? = some id) (h : c.Stops mover) : id ≠ mover := by
  cases c with
  | attacker occupant mark | defender occupant =>
      injection hid with hid
      exact hid ▸ h
  | empty | wall | goal => cases hid

theorem stops_of_collisionWith {collision : Collision}
    (h : collisionWith mover c = some collision) : c.Stops mover :=
  Classical.byContradiction fun hfree => by
    rw [collisionWith_eq_none_iff.mpr hfree] at h
    cases h

theorem firstCollision_eq_none_iff (h : g.square? centre radius = .ok ps) :
    g.firstCollision mover ps = none ↔
      forall p c, centre.distance p <= radius -> g.cell? p = some c -> ¬ c.Stops mover := by
  unfold firstCollision
  rw [List.findSome?_eq_none_iff]
  constructor
  · intro hnone p c hnear hc
    have hp := hnone p ((mem_square_of_cell? h hc).mpr hnear)
    rw [hc, Option.map_eq_none_iff] at hp
    exact collisionWith_eq_none_iff.mp hp
  · intro hclear p hp
    cases hc : g.cell? p with
    | none => rfl
    | some c =>
        have hstops := hclear p c ((mem_square_of_cell? h hc).mp hp) hc
        simp [collisionWith_eq_none_iff.mpr hstops]

theorem firstCollision_eq_some_iff {collision : Collision}
    (h : g.square? centre radius = .ok ps) :
    g.firstCollision mover ps = some (p, collision) ↔
      exists c, g.FirstStop mover centre radius p c ∧ collisionWith mover c = some collision := by
  unfold firstCollision
  rw [findSome?_eq_some_iff_of_pairwise (fun _ _ => Position.Precedes.asymm) (pairwise_square h)]
  constructor
  · rintro ⟨q, hq, hhit, hfirst⟩
    rcases Option.map_eq_some_iff.mp hhit with ⟨found, hfound, heq⟩
    injection heq with hp hcollision
    subst hp hcollision
    rcases Option.bind_eq_some_iff.mp hfound with ⟨c, hc, hstop⟩
    refine ⟨c, ⟨hc, (mem_square_of_cell? h hc).mp hq, stops_of_collisionWith hstop,
      fun r d hr hnear hd => ?_⟩, hstop⟩
    have hnone := hfirst r ((mem_square_of_cell? h hd).mpr hnear) hr
    rw [hd, Option.map_eq_none_iff] at hnone
    exact collisionWith_eq_none_iff.mp hnone
  · rintro ⟨c, hstop, hcollision⟩
    refine ⟨p, (mem_square_of_cell? h hstop.cell_eq).mpr hstop.near, ?_, fun r hr hbefore => ?_⟩
    · rw [hstop.cell_eq, Option.bind_some, hcollision]
      rfl
    · cases hd : g.cell? r with
      | none => rfl
      | some d =>
          have hfree := hstop.first r d hbefore ((mem_square_of_cell? h hd).mp hr) hd
          simp [collisionWith_eq_none_iff.mpr hfree]

/-!
## What changes
-/

theorem ext_of_cell? (hwidth : g'.width = g.width) (hheight : g'.height = g.height)
    (hcells : forall q, g'.cell? q = g.cell? q) (hscore : g'.score = g.score) : g' = g := by
  have hsize : g'.cells.size = g.cells.size := by
    rw [g'.size_cells, g.size_cells, hwidth, hheight]
  have hcells' : g'.cells = g.cells := by
    refine Array.ext hsize fun i hi' hi => ?_
    have hposition : g'.positionOf i = g.positionOf i := by
      simp only [positionOf, hwidth]
    have hcell := hcells (g.positionOf i)
    rw [cell?_positionOf hi, ← hposition, cell?_positionOf hi',
      Array.getElem?_eq_getElem hi', Array.getElem?_eq_getElem hi] at hcell
    exact Option.some.inj hcell
  rcases g with ⟨width, height, cells, score, _⟩
  rcases g' with ⟨width', height', cells', score', _⟩
  simp only at hwidth hheight hcells' hscore
  subst hwidth hheight hcells' hscore
  rfl

theorem emptied_iff (hp : g.inBounds p = true) :
    g.Emptied p score g' ↔ g' = { g.write p .empty with score := score } := by
  constructor
  · intro h
    refine ext_of_cell? h.width_eq h.height_eq (fun q => ?_) h.score_eq
    exact (h.cell?_eq q).trans (cell?_write hp .empty).symm
  · intro h
    subst h
    exact ⟨rfl, rfl, fun q => cell?_write hp .empty, rfl⟩

/-!
## Moves by the rule
-/

theorem Resolves.of_stop (hcentre : g.inBounds centre = true)
    (hfirst : g.FirstStop mover centre radius p c) {collision : Collision}
    (hcollision : collisionWith mover c = some collision) (f : Fleet) :
    g.Resolves f mover centre radius (some collision) (g.settle p collision)
      (strike f collision) := by
  have hp := inBounds_of_cell? hfirst.cell_eq
  cases hoccupant : c.occupant? with
  | some victim =>
      rw [collisionWith_of_occupant hoccupant] at hcollision
      unfold collisionWithMissile at hcollision
      split at hcollision
      · cases hcollision
      · split at hcollision <;> cases hcollision
        · rename_i hside
          exact .intercept hcentre hfirst hoccupant hside ((emptied_iff hp).mpr rfl)
            (Fleet.stopped_iff.mpr rfl)
        · rename_i hside
          exact .friendly hcentre hfirst hoccupant (Side.eq_of_ne_opponent hside)
            ((emptied_iff hp).mpr rfl) (Fleet.stopped_iff.mpr rfl)
  | none =>
      cases c with
      | attacker occupant mark | defender occupant => cases hoccupant
      | empty => cases hcollision
      | wall =>
          cases hcollision
          exact .wall hcentre hfirst
      | goal =>
          simp only [collisionWith] at hcollision
          split at hcollision <;> cases hcollision
          exact .goal hcentre hfirst

theorem resolves_of_resolve? {c? : Option Collision}
    (h : g.resolve? f mover centre radius = .ok (c?, g', f')) :
    (g.inBounds centre = true -> centre.SquareFits radius) ∧
      g.Resolves f mover centre radius c? g' f' := by
  rcases resolve?_cases h with ⟨hcentre, hc, hg, hf⟩ | ⟨hcentre, ps, hps, hfound⟩
  · rw [hc, hg, hf]
    exact ⟨fun hin => absurd (hcentre.symm.trans hin) Bool.false_ne_true, .offGrid hcentre⟩
  · refine ⟨fun _ => (square?_eq_ok_iff.mp hps).1, ?_⟩
    rcases hfound with ⟨hnone, hc, hg, hf⟩ | ⟨p, collision, hsome, hc, hg, hf⟩
    · rw [hc, hg, hf]
      exact .clear hcentre ((firstCollision_eq_none_iff hps).mp hnone)
    · rcases (firstCollision_eq_some_iff hps).mp hsome with ⟨c, hfirst, hcollision⟩
      rw [hc, hg, hf]
      exact .of_stop hcentre hfirst hcollision f

theorem resolve?_of_stop (hfits : centre.SquareFits radius) (hcentre : g.inBounds centre = true)
    (hfirst : g.FirstStop mover centre radius p c) {collision : Collision}
    (hcollision : collisionWith mover c = some collision) (f : Fleet) :
    g.resolve? f mover centre radius =
      .ok (some collision, g.settle p collision, strike f collision) := by
  rcases exists_square?_iff.mpr hfits with ⟨ps, hps⟩
  rw [resolve?_of_square hcentre hps,
    (firstCollision_eq_some_iff hps).mpr ⟨c, hfirst, hcollision⟩]

theorem resolve?_of_resolves {c? : Option Collision}
    (hfits : g.inBounds centre = true -> centre.SquareFits radius)
    (h : g.Resolves f mover centre radius c? g' f') :
    g.resolve? f mover centre radius = .ok (c?, g', f') := by
  cases h with
  | offGrid hcentre =>
      rw [resolve?, hcentre]
      rfl
  | clear hcentre hclear =>
      rcases exists_square?_iff.mpr (hfits hcentre) with ⟨ps, hps⟩
      rw [resolve?_of_square hcentre hps, (firstCollision_eq_none_iff hps).mpr hclear]
  | wall hcentre hfirst => exact resolve?_of_stop (hfits hcentre) hcentre hfirst rfl f
  | goal hcentre hfirst =>
      exact resolve?_of_stop (hfits hcentre) hcentre hfirst (if_pos hfirst.stops) f
  | @intercept p c victim _ _ hcentre hfirst hvictim hside hgrid hfleet =>
      have hne : victim ≠ mover := fun heq => Side.opponent_ne _ (heq ▸ hside).symm
      have hcollision : collisionWith mover c = some (.intercept victim) := by
        rw [collisionWith_of_occupant hvictim, collisionWithMissile, if_neg hne, if_pos hside]
      rw [(emptied_iff (inBounds_of_cell? hfirst.cell_eq)).mp hgrid, Fleet.stopped_iff.mp hfleet]
      exact resolve?_of_stop (hfits hcentre) hcentre hfirst hcollision f
  | @friendly p c victim _ _ hcentre hfirst hvictim hside hgrid hfleet =>
      have hopponent : victim.side ≠ mover.side.opponent :=
        hside ▸ (Side.opponent_ne _).symm
      have hcollision : collisionWith mover c = some (.friendly victim) := by
        rw [collisionWith_of_occupant hvictim, collisionWithMissile,
          if_neg (ne_of_stops hvictim hfirst.stops), if_neg hopponent]
      rw [(emptied_iff (inBounds_of_cell? hfirst.cell_eq)).mp hgrid, Fleet.stopped_iff.mp hfleet]
      exact resolve?_of_stop (hfits hcentre) hcentre hfirst hcollision f

/--
A search for collisions returns just when its bounds do not overflow, and then what it returns
is what the rule says, and all that the rule allows.  With checked places and indices, on a
grid whose area is a number of 32 bits, it does the same.
-/
theorem resolve?_finds_first_stop (g : Grid) (f : Fleet) (mover : MissileId)
    (centre : Position) (radius : Int) :
    ((exists outcome, g.resolve? f mover centre radius = .ok outcome) ↔
        (g.inBounds centre = true -> centre.SquareFits radius)) ∧
      (forall c? g' f', g.resolve? f mover centre radius = .ok (c?, g', f') ↔
        (g.inBounds centre = true -> centre.SquareFits radius) ∧
          g.Resolves f mover centre radius c? g' f') ∧
      (g.Addressable ->
        Words.resolve? g f mover centre radius =
          InWords.lift (g.resolve? f mover centre radius)) := by
  refine ⟨⟨?_, fun hfits => ?_⟩, fun c? g' f' => ⟨resolves_of_resolve?, fun h => ?_⟩,
    fun h => Words.resolve?_eq_lift h f mover centre radius⟩
  · rintro ⟨⟨c?, g', f'⟩, h⟩
    exact (resolves_of_resolve? h).1
  · cases hcentre : g.inBounds centre with
    | false => exact ⟨_, resolve?_of_resolves hfits (.offGrid hcentre)⟩
    | true =>
        rcases exists_square?_iff.mpr (hfits hcentre) with ⟨ps, hps⟩
        exact ⟨_, resolve?_of_square hcentre hps f mover⟩
  · exact resolve?_of_resolves h.1 h.2

end Grid
end AirDefense
