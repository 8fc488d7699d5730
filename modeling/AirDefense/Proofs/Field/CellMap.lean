import AirDefense.Proofs.Field.Bands
import AirDefense.Proofs.Field.RowOrder
import Mathlib.Data.List.Sort

/-!
# The grid is a map

A grid keeps its cells in one array, row after row.  Nothing of this shows: whatever is done to a
grid, it answers as a map from positions to cells would that is written at one position at a time,
and it lists its cells as the map does, position by position.
-/

namespace AirDefense

namespace Position

instance : Std.Antisymm Precedes where
  antisymm _ _ h h' := absurd h' h.asymm

instance : Std.Irrefl Precedes where
  irrefl _ h := h.asymm h

end Position

/-!
## Changes
-/

/-- What can be done to a grid. -/
inductive GridChange where
  | put (p : Position) (c : Cell)
  | clear (p : Position) (id : MissileId)
  | stamp (p : Position) (claimant : MissileId)
  | resolve (f : Fleet) (mover : MissileId) (p : Position) (radius : Int)

namespace GridChange

inductive Answer where
  | done
  | cleared (c : Option Cell)
  | collision (c : Option Collision)

/-- Changes one after the other, with all that they come to. -/
def run {σ : Type} (step : σ -> GridChange -> Except Fault Answer × σ) :
    σ -> List GridChange -> List (Except Fault Answer) × σ
  | s, [] => ([], s)
  | s, a :: rest =>
      let (answer, s) := step s a
      let (answers, s) := run step s rest
      (answer :: answers, s)

end GridChange

/-- Makes a change to a grid; one that fails leaves the grid as it is. -/
def Grid.change (g : Grid) : GridChange -> Except Fault GridChange.Answer × Grid
  | .put p c =>
      match g.put? p c with
      | .ok g => (.ok .done, g)
      | .error fault => (.error fault, g)
  | .clear p id => (.ok (.cleared (g.clear p id).1), (g.clear p id).2)
  | .stamp p claimant => (.ok .done, g.stamp p claimant)
  | .resolve f mover p radius =>
      match g.resolve? f mover p radius with
      | .ok (c, g, _) => (.ok (.collision c), g)
      | .error fault => (.error fault, g)

/-- The cells of a field; what is off the field does not count. -/
structure CellMap where
  width : Int
  height : Int
  cellAt : Position -> Cell

namespace CellMap

def Has (m : CellMap) (p : Position) : Prop :=
  0 <= p.x ∧ p.x < m.width ∧ 0 <= p.y ∧ p.y < m.height

instance (m : CellMap) (p : Position) : Decidable (m.Has p) :=
  inferInstanceAs (Decidable (_ ∧ _))

/-- Walls along the border, the goal band below its first row, and nothing in between. -/
def fresh (f : FieldSettings) : CellMap where
  width := f.width
  height := f.height
  cellAt p :=
    if p.x < f.wallThickness ∨ p.y < f.wallThickness ∨ f.width - f.wallThickness <= p.x ∨
        f.height - f.wallThickness <= p.y then .wall
    else if f.goalStartRow < p.y then .goal
    else .empty

def set (m : CellMap) (p : Position) (c : Cell) : CellMap :=
  { m with cellAt := fun q => if q = p then c else m.cellAt q }

/-- All positions of a field, row by row. -/
def positions (width height : Int) : List Position :=
  (Grid.span 0 (height - 1)).flatMap fun y => (Grid.span 0 (width - 1)).map fun x => ⟨x, y⟩

def entries (m : CellMap) : List (Position × Cell) :=
  (positions m.width m.height).map fun p => (p, m.cellAt p)

/-!
A change writes at one position of the map, if it writes at all.
-/

def put (m : CellMap) (p : Position) (c : Cell) : Except Fault GridChange.Answer × CellMap :=
  if m.Has p then (.ok .done, m.set p c) else (.error (.placedOffGrid c p), m)

def clear (m : CellMap) (p : Position) (id : MissileId) :
    Except Fault GridChange.Answer × CellMap :=
  if m.Has p ∧ (m.cellAt p).occupant? = some id then
    (.ok (.cleared (some (m.cellAt p))), m.set p .empty)
  else (.ok (.cleared none), m)

def stamp (m : CellMap) (p : Position) (claimant : MissileId) : CellMap :=
  match m.cellAt p with
  | .attacker id _ => m.set p (.attacker id (some claimant))
  | _ => m

def sides? (centre : Position) (radius : Int) : Except Fault Unit := do
  let _ <- Bounded.sub? centre.x radius
  let _ <- Bounded.add? centre.x radius
  let _ <- Bounded.sub? centre.y radius
  let _ <- Bounded.add? centre.y radius
  return ()

def collision? (m : CellMap) (mover : MissileId) (centre : Position) (radius : Int) :
    Option (Position × Collision) :=
  ((positions m.width m.height).filter fun p => centre.distance p <= radius).findSome? fun p =>
    (Grid.collisionWith mover (m.cellAt p)).map fun c => (p, c)

/-- A missile that is hit leaves the map. -/
def settle (m : CellMap) (p : Position) : Collision -> CellMap
  | .intercept _ => m.set p .empty
  | .friendly _ => m.set p .empty
  | _ => m

def resolve (m : CellMap) (mover : MissileId) (p : Position) (radius : Int) :
    Except Fault GridChange.Answer × CellMap :=
  if m.Has p then
    match sides? p radius with
    | .error fault => (.error fault, m)
    | .ok () =>
        match m.collision? mover p radius with
        | none => (.ok (.collision none), m)
        | some (spot, c) => (.ok (.collision (some c)), m.settle spot c)
  else (.ok (.collision (some .offGrid)), m)

def change (m : CellMap) : GridChange -> Except Fault GridChange.Answer × CellMap
  | .put p c => m.put p c
  | .clear p id => m.clear p id
  | .stamp p claimant => (.ok .done, m.stamp p claimant)
  | .resolve _ mover p radius => m.resolve mover p radius

end CellMap

/-- Only a mark has to be made on the field. -/
def GridChange.Allowed (m : CellMap) : GridChange -> Prop
  | stamp p _ => m.Has p
  | _ => True

namespace Grid

/-- The grid reflects the map. -/
structure Reflects (g : Grid) (m : CellMap) : Prop where
  width_eq : g.width = m.width
  height_eq : g.height = m.height
  cell?_eq : forall p, g.cell? p = if m.Has p then some (m.cellAt p) else none

/-- Grid and map come to the same, and the grid reflects the map again. -/
def Follows {α : Type} (outcome : α × Grid) (expected : α × CellMap) : Prop :=
  outcome.1 = expected.1 ∧ outcome.2.Reflects expected.2

end Grid

/-!
## Positions, row by row
-/

namespace CellMap

theorem mem_positions {width height : Int} {p : Position} :
    p ∈ positions width height ↔ 0 <= p.x ∧ p.x < width ∧ 0 <= p.y ∧ p.y < height := by
  unfold positions
  simp only [List.mem_flatMap, List.mem_map, Grid.mem_span]
  constructor
  · rintro ⟨y, hy, x, hx, rfl⟩
    simp only
    omega
  · intro hp
    exact ⟨p.y, by omega, p.x, by omega, rfl⟩

theorem pairwise_positions (width height : Int) :
    (positions width height).Pairwise Position.Precedes :=
  Grid.pairwise_rows ..

end CellMap

namespace Grid

variable {g g' : Grid} {m : CellMap} {f : FieldSettings} {p centre : Position} {radius : Int}
  {ps : List Position}

/-- What a square covers are the positions within the radius. -/
theorem square_eq_filter (h : g.square? centre radius = .ok ps) :
    ps = (CellMap.positions g.width g.height).filter fun p => centre.distance p <= radius := by
  refine (pairwise_square h).eq_of_mem_iff ((CellMap.pairwise_positions ..).filter _) fun p => ?_
  rw [mem_square h, List.mem_filter, CellMap.mem_positions, inBounds_iff, decide_eq_true_iff,
    Position.distance_le_iff]

theorem map_fst_entries_eq_positions (g : Grid) :
    g.entries.map Prod.fst = CellMap.positions g.width g.height := by
  refine (pairwise_precedes_entries g).eq_of_mem_iff (CellMap.pairwise_positions ..) fun p => ?_
  rw [CellMap.mem_positions, ← inBounds_iff, map_fst_entries, List.mem_map]
  constructor
  · rintro ⟨i, hi, rfl⟩
    exact g.inBounds_positionOf (List.mem_range.mp hi)
  · intro hp
    exact ⟨g.place p, List.mem_range.mpr (place_lt hp), positionOf_place hp⟩

/-!
## What a grid reflects
-/

theorem Reflects.inBounds_iff_has (h : g.Reflects m) : g.inBounds p = true ↔ m.Has p := by
  rw [inBounds_iff, h.width_eq, h.height_eq]
  rfl

theorem Reflects.cell?_of_has (h : g.Reflects m) (hp : m.Has p) :
    g.cell? p = some (m.cellAt p) := by
  rw [h.cell?_eq, if_pos hp]

theorem Reflects.entries_eq (h : g.Reflects m) : g.entries = m.entries := by
  have hcells : forall e, e ∈ g.entries -> (e.1, m.cellAt e.1) = e := by
    rintro ⟨p, c⟩ hmem
    have hcell := cell?_of_mem_entries hmem
    rw [h.cell?_of_has (h.inBounds_iff_has.mp (inBounds_of_cell? hcell))] at hcell
    rw [← Option.some.inj hcell]
  calc g.entries
    _ = g.entries.map fun e => (e.1, m.cellAt e.1) := by
        rw [List.map_congr_left hcells, List.map_id']
    _ = (g.entries.map Prod.fst).map fun p => (p, m.cellAt p) := by
        rw [List.map_map]
        rfl
    _ = m.entries := by
        rw [map_fst_entries_eq_positions, h.width_eq, h.height_eq]
        rfl

theorem reflects_fresh (h : ofSettings? f = .ok g) : g.Reflects (.fresh f) := by
  rcases ofSettings?_spec h with ⟨_, hwidth, hheight, _⟩
  have hin : forall p, g.inBounds p = true ↔ (CellMap.fresh f).Has p := by
    intro p
    rw [inBounds_iff, hwidth, hheight]
    rfl
  refine ⟨hwidth, hheight, fun p => ?_⟩
  by_cases hp : g.inBounds p = true
  · rw [cell?_of_ofSettings? h hp, if_pos ((hin p).mp hp)]
    simp only [bandAt, painted, CellMap.fresh, Bool.or_eq_true, decide_eq_true_eq, or_assoc]
  · rw [cell?, if_neg hp, if_neg (mt (hin p).mpr hp)]

theorem Reflects.write (h : g.Reflects m) (hp : m.Has p) (c : Cell) :
    (g.write p c).Reflects (m.set p c) := by
  refine ⟨h.width_eq, h.height_eq, fun q => ?_⟩
  rw [cell?_write (h.inBounds_iff_has.mpr hp), h.cell?_eq]
  show _ = if m.Has q then some (if q = p then c else m.cellAt q) else none
  by_cases hq : q = p
  · rw [if_pos hq, if_pos hq, if_pos (hq ▸ hp)]
  · rw [if_neg hq, if_neg hq]

theorem Reflects.of_cells (h : g.Reflects m) (hwidth : g'.width = g.width)
    (hheight : g'.height = g.height) (hcells : forall p, g'.cell? p = g.cell? p) : g'.Reflects m :=
  ⟨hwidth.trans h.width_eq, hheight.trans h.height_eq, fun p => (hcells p).trans (h.cell?_eq p)⟩

/-!
## One change
-/

theorem Reflects.put (h : g.Reflects m) (p : Position) (c : Cell) :
    Follows (g.change (.put p c)) (m.put p c) := by
  unfold change CellMap.put put?
  by_cases hp : m.Has p
  · simp only [if_pos (h.inBounds_iff_has.mpr hp), if_pos hp]
    exact ⟨rfl, h.write hp c⟩
  · simp only [if_neg (mt h.inBounds_iff_has.mp hp), if_neg hp]
    exact ⟨rfl, h⟩

theorem Reflects.clear (h : g.Reflects m) (p : Position) (id : MissileId) :
    Follows (g.change (.clear p id)) (m.clear p id) := by
  show Follows ((.ok (.cleared (g.clear p id).1), (g.clear p id).2) :
    Except Fault GridChange.Answer × Grid) _
  unfold CellMap.clear Grid.clear
  by_cases hp : m.Has p
  · rw [h.cell?_of_has hp]
    by_cases hid : (m.cellAt p).occupant? = some id
    · simp only [if_pos hid, if_pos (And.intro hp hid)]
      exact ⟨rfl, h.write hp .empty⟩
    · simp only [if_neg hid, if_neg fun hboth : m.Has p ∧ _ => hid hboth.2]
      exact ⟨rfl, h⟩
  · rw [h.cell?_eq, if_neg hp, if_neg fun hboth : m.Has p ∧ _ => hp hboth.1]
    exact ⟨rfl, h⟩

theorem Reflects.stamp (h : g.Reflects m) (hp : m.Has p) (claimant : MissileId) :
    (g.stamp p claimant).Reflects (m.stamp p claimant) := by
  unfold CellMap.stamp Grid.stamp
  rw [h.cell?_of_has hp]
  cases m.cellAt p with
  | attacker id mark => exact h.write hp _
  | empty | wall | goal | defender id => exact h

theorem Reflects.firstCollision_eq (h : g.Reflects m) (hps : g.square? centre radius = .ok ps)
    (mover : MissileId) : g.firstCollision mover ps = m.collision? mover centre radius := by
  unfold firstCollision CellMap.collision?
  rw [square_eq_filter hps, h.width_eq, h.height_eq, ← List.head?_filterMap,
    ← List.head?_filterMap]
  refine congrArg List.head? (List.filterMap_congr fun p hp => ?_)
  have hhas : m.Has p := CellMap.mem_positions.mp (List.mem_filter.mp hp).1
  rw [h.cell?_of_has hhas, Option.bind_some]

theorem square?_cases (g : Grid) (centre : Position) (radius : Int) :
    (exists ps, CellMap.sides? centre radius = .ok () ∧ g.square? centre radius = .ok ps) ∨
      exists fault, CellMap.sides? centre radius = .error fault ∧
        g.square? centre radius = .error fault := by
  unfold square? CellMap.sides?
  cases Bounded.sub? centre.x radius with
  | error fault => exact .inr ⟨fault, rfl, rfl⟩
  | ok left =>
      cases Bounded.add? centre.x radius with
      | error fault => exact .inr ⟨fault, rfl, rfl⟩
      | ok right =>
          cases Bounded.sub? centre.y radius with
          | error fault => exact .inr ⟨fault, rfl, rfl⟩
          | ok top =>
              cases Bounded.add? centre.y radius with
              | error fault => exact .inr ⟨fault, rfl, rfl⟩
              | ok bottom => exact .inl ⟨_, rfl, rfl⟩

theorem Reflects.settle (h : g.Reflects m) (hp : m.Has p) (c : Collision) :
    (g.settle p c).Reflects (m.settle p c) := by
  cases c with
  | goal | wall | offGrid => exact h.of_cells rfl rfl fun _ => rfl
  | intercept victim => exact (h.write hp .empty).of_cells rfl rfl fun _ => rfl
  | friendly victim => exact h.write hp .empty

theorem Reflects.resolve (h : g.Reflects m) (f : Fleet) (mover : MissileId) (p : Position)
    (radius : Int) : Follows (g.change (.resolve f mover p radius)) (m.resolve mover p radius) := by
  unfold change CellMap.resolve
  by_cases hp : m.Has p
  · have hin := h.inBounds_iff_has.mpr hp
    rw [if_pos hp]
    rcases g.square?_cases p radius with ⟨ps, hsides, hps⟩ | ⟨fault, hsides, hps⟩
    · simp only [hsides, resolve?_of_square hin hps, h.firstCollision_eq hps]
      cases hfirst : m.collision? mover p radius with
      | none => exact ⟨rfl, h⟩
      | some found =>
          rcases List.exists_of_findSome?_eq_some hfirst with ⟨spot, hspot, hfound⟩
          rcases Option.map_eq_some_iff.mp hfound with ⟨c, _, rfl⟩
          have hhas : m.Has spot := CellMap.mem_positions.mp (List.mem_filter.mp hspot).1
          exact ⟨rfl, h.settle hhas c⟩
    · have herror : g.resolve? f mover p radius = .error fault := by
        unfold resolve?
        rw [hin, hps]
        rfl
      simp only [hsides, herror]
      exact ⟨rfl, h⟩
  · have hoff : g.resolve? f mover p radius = .ok (some .offGrid, g, f) := by
      rw [resolve?, Bool.eq_false_iff.mpr (mt h.inBounds_iff_has.mp hp)]
      rfl
    simp only [if_neg hp, hoff]
    exact ⟨rfl, h⟩

theorem Reflects.change (h : g.Reflects m) {a : GridChange} (ha : a.Allowed m) :
    Follows (g.change a) (m.change a) := by
  cases a with
  | put p c => exact h.put p c
  | clear p id => exact h.clear p id
  | stamp p claimant => exact ⟨rfl, h.stamp ha claimant⟩
  | resolve f mover p radius => exact h.resolve f mover p radius

end Grid

/-!
## Many changes
-/

namespace CellMap

def SameSides (m m' : CellMap) : Prop :=
  m'.width = m.width ∧ m'.height = m.height

variable {m m' : CellMap} {p : Position}

theorem SameSides.has (h : m.SameSides m') : m'.Has p ↔ m.Has p := by
  unfold Has
  rw [h.1, h.2]

theorem sameSides_settle (c : Collision) : m.SameSides (m.settle p c) := by
  cases c <;> exact ⟨rfl, rfl⟩

theorem sameSides_change (a : GridChange) : m.SameSides (m.change a).2 := by
  cases a with
  | put p c =>
      show m.SameSides (m.put p c).2
      unfold put
      split <;> exact ⟨rfl, rfl⟩
  | clear p id =>
      show m.SameSides (m.clear p id).2
      unfold clear
      split <;> exact ⟨rfl, rfl⟩
  | stamp p claimant =>
      show m.SameSides (m.stamp p claimant)
      unfold stamp
      split <;> exact ⟨rfl, rfl⟩
  | resolve f mover p radius =>
      show m.SameSides (m.resolve mover p radius).2
      unfold resolve
      split
      · split
        · exact ⟨rfl, rfl⟩
        · split
          · exact ⟨rfl, rfl⟩
          · exact sameSides_settle _
      · exact ⟨rfl, rfl⟩

theorem sameSides_run (as : List GridChange) : m.SameSides (GridChange.run change m as).2 := by
  induction as generalizing m with
  | nil => exact ⟨rfl, rfl⟩
  | cons a rest ih =>
      have hfirst : m.SameSides (m.change a).2 := sameSides_change a
      have hrest : (m.change a).2.SameSides (GridChange.run change m (a :: rest)).2 := ih
      exact ⟨hrest.1.trans hfirst.1, hrest.2.trans hfirst.2⟩

end CellMap

theorem GridChange.Allowed.congr {m m' : CellMap} {a : GridChange} (h : a.Allowed m)
    (hsides : m.SameSides m') : a.Allowed m' := by
  cases a with
  | stamp p claimant => exact hsides.has.mpr h
  | put p c | clear p id | resolve f mover p radius => trivial

namespace Grid

variable {g : Grid} {m : CellMap} {as : List GridChange}

theorem Reflects.run (h : g.Reflects m) (has : forall a, a ∈ as -> a.Allowed m) :
    Follows (GridChange.run Grid.change g as) (GridChange.run CellMap.change m as) := by
  induction as generalizing g m with
  | nil => exact ⟨rfl, h⟩
  | cons a rest ih =>
      rcases h.change (has a List.mem_cons_self) with ⟨hanswer, hreflects⟩
      have hrest := ih hreflects fun b hb =>
        (has b (List.mem_cons_of_mem _ hb)).congr (CellMap.sameSides_change a)
      exact ⟨List.cons_eq_cons.mpr ⟨hanswer, hrest.1⟩, hrest.2⟩

/--
A new grid is a map from the positions on it to cells: at first it reflects the bands, and after any
changes it has come to what the map comes to and reflects what the map has, at each position on the
grid and at no other.  What is written at a position is seen there and changes no other position.
The list of all cells goes through the map row by row and meets each position once, and the list
of the missiles is the part of it that is occupied.
-/
theorem grid_is_map {f : FieldSettings} {g : Grid} (hg : ofSettings? f = .ok g)
    (as : List GridChange) (has : forall a, a ∈ as -> a.Allowed (.fresh f)) :
    let after := GridChange.run Grid.change g as
    let expected := GridChange.run CellMap.change (.fresh f) as
    let places := CellMap.positions f.width f.height
    after.1 = expected.1 ∧
      (forall p, after.2.cell? p =
        if (CellMap.fresh f).Has p then some (expected.2.cellAt p) else none) ∧
      (forall p c, (CellMap.fresh f).Has p -> forall q,
        (after.2.write p c).cell? q = if q = p then some c else after.2.cell? q) ∧
      (places.Pairwise Position.Precedes ∧ places.Nodup ∧
        forall p, p ∈ places ↔ (CellMap.fresh f).Has p) ∧
      after.2.entries = places.map (fun p => (p, expected.2.cellAt p)) ∧
      after.2.missileEntries = after.2.entries.filter fun e => e.2.occupant?.isSome := by
  intro after expected places
  rcases (reflects_fresh hg).run has with ⟨hanswers, hreflects⟩
  have hsides : (CellMap.fresh f).SameSides expected.2 := CellMap.sameSides_run as
  have hplaces : places.Pairwise Position.Precedes := CellMap.pairwise_positions ..
  refine ⟨hanswers, fun p => ?_, fun p c hp q => ?_,
    ⟨hplaces, hplaces.nodup, fun p => CellMap.mem_positions⟩, ?_, missileEntries_eq_filter _⟩
  · rw [hreflects.cell?_eq]
    exact if_congr hsides.has rfl rfl
  · exact cell?_write (hreflects.inBounds_iff_has.mpr (hsides.has.mpr hp)) c
  · rw [hreflects.entries_eq, CellMap.entries, hsides.1, hsides.2]
    rfl

def narrow : FieldSettings :=
  { width := 5, height := 4, wallThickness := 1, goalStartRow := 1, missileRadius := 1 }

def skirmish (a d : MissileId) : List GridChange :=
  [.put ⟨2, 1⟩ (.missile a), .stamp ⟨2, 1⟩ d, .put ⟨5, 1⟩ .goal,
    .resolve (.ofCapacities 1 1) d ⟨2, 1⟩ 0]

theorem grid_is_map_skirmish :
    let changes := skirmish ⟨.attacker, 0, 1⟩ ⟨.defender, 0, 1⟩
    (forall a, a ∈ changes -> a.Allowed (.fresh narrow)) ∧
      exists g, ofSettings? narrow = .ok g ∧
        let after := (GridChange.run Grid.change g changes).2
        after.cell? ⟨2, 1⟩ = some .empty ∧ after.cell? ⟨3, 2⟩ = some .goal ∧
          after.cell? ⟨5, 1⟩ = none ∧ after.entries.length = 20 ∧ after.missileEntries = [] := by
  intro changes
  have hallowed : forall a, a ∈ changes -> a.Allowed (.fresh narrow) := by
    simp [changes, skirmish, GridChange.Allowed, CellMap.Has, CellMap.fresh, narrow]
  obtain ⟨g, hg⟩ : exists g, ofSettings? narrow = .ok g := ⟨_, rfl⟩
  rcases grid_is_map hg changes hallowed with ⟨_, hcells, _, _, hentries, hmissiles⟩
  rw [hentries] at hmissiles
  refine ⟨hallowed, g, hg, (hcells _).trans ?_, (hcells _).trans ?_, (hcells _).trans ?_, ?_,
    hmissiles.trans ?_⟩
  · decide
  · decide
  · decide
  · rw [hentries]
    decide
  · decide

end Grid
end AirDefense
