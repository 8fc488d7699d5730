import AirDefense.Field.Cell
import AirDefense.Settings.Basic

/-!
# The grid

The cells of the field, row by row, and the score.  A new grid has a band of
wall along its border and below a certain row a band of goal; all else is empty.
-/

namespace AirDefense

structure Grid where
  width : Int
  height : Int
  cells : Array Cell
  score : Score
  size_cells : cells.size = width.toNat * height.toNat

namespace Grid

/-!
## Positions and places

The cell at `(x, y)` has place `y * width + x`.
-/

def inBounds (g : Grid) (p : Position) : Bool :=
  0 <= p.x && p.x < g.width && 0 <= p.y && p.y < g.height

def place (g : Grid) (p : Position) : Nat :=
  (p.y * g.width + p.x).toNat

def positionOf (g : Grid) (i : Nat) : Position :=
  ⟨(i : Int) % g.width, (i : Int) / g.width⟩

def cell? (g : Grid) (p : Position) : Option Cell :=
  if g.inBounds p then g.cells[g.place p]? else none

def entries (g : Grid) : List (Position × Cell) :=
  g.cells.toList.mapIdx fun i c => (g.positionOf i, c)

/-- The missiles at places below `n`, row by row, before those in `rest`. -/
def missilesBelow (g : Grid) : Nat -> List (Position × Cell) -> List (Position × Cell)
  | 0, rest => rest
  | n + 1, rest =>
      match g.cells[n]? with
      | some c =>
          g.missilesBelow n (if c.occupant?.isSome then (g.positionOf n, c) :: rest else rest)
      | none => g.missilesBelow n rest

def missileEntries (g : Grid) : List (Position × Cell) :=
  g.missilesBelow g.cells.size []

/-!
## The bands
-/

/-- The fresh cell at `(x, y)`; the wall begins again at `right` and `bottom`. -/
def painted (wall right bottom goalStart x y : Int) : Cell :=
  if x < wall || y < wall || right <= x || bottom <= y then .wall
  else if goalStart < y then .goal
  else .empty

def paint (width height : Nat) (wall right bottom goalStart : Int) : Array Cell :=
  Array.ofFn fun i : Fin (width * height) =>
    painted wall right bottom goalStart (i.val % width : Nat) (i.val / width : Nat)

/--
A fresh grid.  Its area has to be a 32-bit number that is not negative; a grid
with no cells needs no bands.
-/
def ofSettings? (f : FieldSettings) : Except Fault Grid := do
  let area <- Bounded.mul? f.width f.height
  if area < 0 then .error .capacityOverflow
  else if h : f.width <= 0 ∨ f.height <= 0 then
    return {
      width := f.width
      height := f.height
      cells := #[]
      score := .zero
      size_cells := by
        cases h with
        | inl h => simp [Int.toNat_of_nonpos h]
        | inr h => simp [Int.toNat_of_nonpos h] }
  else do
    let right <- Bounded.sub? f.width f.wallThickness
    let bottom <- Bounded.sub? f.height f.wallThickness
    return {
      width := f.width
      height := f.height
      cells := paint f.width.toNat f.height.toNat f.wallThickness right bottom f.goalStartRow
      score := .zero
      size_cells := by simp [paint] }

/-!
## Writing
-/

def write (g : Grid) (p : Position) (c : Cell) : Grid :=
  { g with
    cells := g.cells.setIfInBounds (g.place p) c
    size_cells := by simp [g.size_cells] }

def put? (g : Grid) (p : Position) (c : Cell) : Except Fault Grid :=
  if g.inBounds p then .ok (g.write p c) else .error (.placedOffGrid c p)

/-- Empties a position if `id` occupies it, and returns what was there. -/
def clear (g : Grid) (p : Position) (id : MissileId) : Option Cell × Grid :=
  match g.cell? p with
  | some c => if c.occupant? = some id then (some c, g.write p .empty) else (none, g)
  | none => (none, g)

def stamp (g : Grid) (p : Position) (claimant : MissileId) : Grid :=
  match g.cell? p with
  | some (.attacker id _) => g.write p (.attacker id (some claimant))
  | _ => g

/-!
## Missiles among the cells
-/

theorem missilesBelow_eq (g : Grid) (n : Nat) (hn : n <= g.cells.size)
    (rest : List (Position × Cell)) :
    g.missilesBelow n rest =
      ((g.cells.toList.take n).mapIdx fun i c => (g.positionOf i, c)).filter
        (fun e => e.2.occupant?.isSome) ++ rest := by
  induction n generalizing rest with
  | zero => simp [missilesBelow]
  | succ n ih =>
      have hlt : n < g.cells.size := by omega
      have htake :
          g.cells.toList.take (n + 1) = g.cells.toList.take n ++ [g.cells[n]] := by
        simp [List.take_succ_eq_append_getElem, hlt]
      rw [missilesBelow, Array.getElem?_eq_getElem hlt, htake, List.mapIdx_append]
      simp only [List.filter_append, List.append_assoc]
      rw [ih (by omega)]
      have hlen : (g.cells.toList.take n).length = n := by
        simp
        omega
      by_cases hc : g.cells[n].occupant?.isSome <;> simp [hc, hlen]

theorem missileEntries_eq_filter (g : Grid) :
    g.missileEntries = g.entries.filter fun e => e.2.occupant?.isSome := by
  rw [missileEntries, missilesBelow_eq g _ (Nat.le_refl _), entries]
  simp [← Array.length_toList]

/-!
## Points
-/

def addAttackerPoint (g : Grid) : Grid :=
  { g with score := { g.score with attackerPoints := g.score.attackerPoints + 1 } }

def addDefenderPoint (g : Grid) : Grid :=
  { g with score := { g.score with defenderPoints := g.score.defenderPoints + 1 } }

end Grid
end AirDefense
