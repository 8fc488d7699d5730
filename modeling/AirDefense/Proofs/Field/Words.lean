import AirDefense.Proofs.Field.Collision

/-!
# The grid in 32-bit arithmetic

Places and positions are integers without bounds, and a cell is looked up by a place that may
not exist.  Here everything that is done to a grid is done once more in integers of 32 bits,
where a sum, a product or a quotient may overflow and an index may be out of range.  If the
area of the grid is a number of 32 bits, and so are its sides with the radius of a missile
added, nothing of that happens and both come to the same.
-/

namespace AirDefense

/-- What can go wrong when a grid is accessed in 32 bits. -/
inductive WordFault where
  | fault (f : Fault)
  /-- A division that has no quotient of 32 bits. -/
  | noQuotient
  | outOfRange (index : Int)
deriving DecidableEq, Repr

abbrev InWords (α : Type) := Except WordFault α

namespace InWords

def lift (x : Except Fault α) : InWords α :=
  match x with
  | .ok a => .ok a
  | .error f => .error (.fault f)

theorem lift_ok {α : Type} (a : α) : lift (.ok a) = pure a := rfl

theorem lift_bind {α β : Type} (x : Except Fault α) (f : α -> Except Fault β) :
    lift (x >>= f) = lift x >>= fun a => lift (f a) := by
  cases x <;> rfl

/-- Division truncates; it has no result for zero, nor for the least number and minus one. -/
def divides (a b : Int) : Bool :=
  b ≠ 0 && !(a = Bounded.least && b = -1)

def quotient? (a b : Int) : InWords Int :=
  if divides a b then .ok (a.tdiv b) else .error .noQuotient

def remainder? (a b : Int) : InWords Int :=
  if divides a b then .ok (a.tmod b) else .error .noQuotient

def ofIndex (i : Nat) : Int :=
  Int.bmod i 4294967296

end InWords

namespace Grid
namespace Words

open InWords

/-!
## Access to the cells
-/

def place? (g : Grid) (p : Position) : InWords Int :=
  lift do
    let row <- Bounded.mul? p.y g.width
    Bounded.add? row p.x

def load? (g : Grid) (i : Int) : InWords Cell :=
  if i < 0 then .error (.outOfRange i)
  else
    match g.cells[i.toNat]? with
    | some c => .ok c
    | none => .error (.outOfRange i)

def save? (g : Grid) (i : Int) (c : Cell) : InWords Grid :=
  if i < 0 || (g.cells.size : Int) <= i then .error (.outOfRange i)
  else
    .ok
      { g with
        cells := g.cells.setIfInBounds i.toNat c
        size_cells := by simp [g.size_cells] }

def cell? (g : Grid) (p : Position) : InWords (Option Cell) :=
  if g.inBounds p then do
    let c <- load? g (<- place? g p)
    return some c
  else .ok none

def put? (g : Grid) (p : Position) (c : Cell) : InWords Grid :=
  if g.inBounds p then do
    let i <- place? g p
    save? g i c
  else .error (.fault (.placedOffGrid c p))

def clear? (g : Grid) (p : Position) (id : MissileId) : InWords (Option Cell × Grid) :=
  if !g.inBounds p then .ok (none, g)
  else do
    let i <- place? g p
    let c <- load? g i
    if c.occupant? = some id then do
      let g <- save? g i .empty
      return (some c, g)
    else return (none, g)

/-- The position is not looked at before the cell is. -/
def stamp? (g : Grid) (p : Position) (claimant : MissileId) : InWords Grid := do
  let i <- place? g p
  match <- load? g i with
  | .attacker id _ => save? g i (.attacker id (some claimant))
  | _ => return g

/-!
## Collisions
-/

/-- Walks along some positions up to the first collision, and does what it does. -/
def scan? (g : Grid) (f : Fleet) (mover : MissileId) :
    List Position -> InWords (Option Collision × Grid × Fleet)
  | [] => .ok (none, g, f)
  | p :: rest => do
      let i <- place? g p
      let c <- load? g i
      match collisionWith mover c with
      | none => scan? g f mover rest
      | some (.intercept victim) => do
          let g <- save? g i .empty
          return (some (.intercept victim), g.addDefenderPoint, f.markDeleted victim)
      | some (.friendly victim) => do
          let g <- save? g i .empty
          return (some (.friendly victim), g, f.markDeleted victim)
      | some .goal => return (some .goal, g.addAttackerPoint, f)
      | some c => return (some c, g, f)

def resolve? (g : Grid) (f : Fleet) (mover : MissileId) (p : Position) (radius : Int) :
    InWords (Option Collision × Grid × Fleet) :=
  if !g.inBounds p then .ok (some .offGrid, g, f)
  else do
    let left <- lift (Bounded.sub? p.x radius)
    let right <- lift (Bounded.add? p.x radius)
    let lastColumn <- lift (Bounded.sub? g.width 1)
    let top <- lift (Bounded.sub? p.y radius)
    let bottom <- lift (Bounded.add? p.y radius)
    let lastRow <- lift (Bounded.sub? g.height 1)
    scan? g f mover <|
      (span (max top 0) (min bottom lastRow)).flatMap fun y =>
        (span (max left 0) (min right lastColumn)).map fun x => ⟨x, y⟩

/-!
## Lists of cells
-/

def position? (g : Grid) (i : Nat) : InWords Position := do
  let x <- remainder? (ofIndex i) g.width
  let y <- quotient? (ofIndex i) g.width
  return ⟨x, y⟩

def entriesFrom? (g : Grid) : Nat -> List Cell -> InWords (List (Position × Cell))
  | _, [] => .ok []
  | i, c :: rest => do
      let p <- position? g i
      let entries <- entriesFrom? g (i + 1) rest
      return (p, c) :: entries

def entries? (g : Grid) : InWords (List (Position × Cell)) :=
  entriesFrom? g 0 g.cells.toList

def missileEntries? (g : Grid) : InWords (List (Position × Cell)) := do
  let entries <- entries? g
  return entries.filter fun e => e.2.occupant?.isSome

end Words

/-!
## Places of 32 bits
-/

/-- The area of the grid is a number of 32 bits. -/
structure Addressable (g : Grid) : Prop where
  width_nonneg : 0 <= g.width
  height_nonneg : 0 <= g.height
  area_le : g.width * g.height <= Bounded.greatest

theorem Addressable.congr {g g' : Grid} (h : g.Addressable) (hwidth : g'.width = g.width)
    (hheight : g'.height = g.height) : g'.Addressable :=
  ⟨hwidth ▸ h.width_nonneg, hheight ▸ h.height_nonneg, hwidth ▸ hheight ▸ h.area_le⟩

namespace Words

open InWords

variable {g : Grid} {p : Position}

theorem place?_eq (h : g.Addressable) (hp : g.inBounds p = true) :
    place? g p = .ok (g.place p) := by
  rcases inBounds_iff.mp hp with ⟨hx, hxw, hy, hyh⟩
  have hrow : 0 <= p.y * g.width := Int.mul_nonneg hy h.width_nonneg
  have hplace : ((g.place p : Nat) : Int) = p.y * g.width + p.x :=
    Int.toNat_of_nonneg (place_nonneg hp)
  have hlt : ((g.place p : Nat) : Int) < g.width * g.height := by
    rw [← g.size_eq h.width_nonneg h.height_nonneg]
    exact Int.ofNat_lt.mpr (place_lt hp)
  have harea := h.area_le
  have hfits : forall n : Int, 0 <= n -> n <= g.width * g.height -> Bounded.Fits n := by
    intro n hnonneg hle
    unfold Bounded.Fits Bounded.least
    omega
  have hsum : (do
      let row <- Bounded.mul? p.y g.width
      Bounded.add? row p.x) = Except.ok ((g.place p : Nat) : Int) := by
    rw [hplace]
    exact bind_eq_ok.mpr ⟨_, Bounded.mul?_eq_ok.mpr ⟨hfits _ (by omega) (by omega), rfl⟩,
      Bounded.add?_eq_ok.mpr ⟨hfits _ (by omega) (by omega), rfl⟩⟩
  unfold place?
  rw [hsum]
  rfl

theorem load?_place {c : Cell} (h : g.cell? p = some c) : load? g (g.place p) = .ok c := by
  have hp := inBounds_of_cell? h
  unfold Grid.cell? at h
  rw [if_pos hp] at h
  unfold load?
  rw [if_neg (by omega), Int.toNat_natCast, h]

theorem save?_place (hp : g.inBounds p = true) (c : Cell) :
    save? g (g.place p) c = .ok (g.write p c) := by
  have hlt := place_lt hp
  unfold save?
  rw [if_neg]
  · rfl
  · simp only [Bool.or_eq_true, decide_eq_true_eq]
    omega

theorem exists_cell? (hp : g.inBounds p = true) : exists c, g.cell? p = some c := by
  unfold Grid.cell?
  rw [if_pos hp]
  exact ⟨_, Array.getElem?_eq_getElem (place_lt hp)⟩

/-!
## One cell
-/

variable {c : Cell} {id mover : MissileId}

theorem cell?_eq (h : g.Addressable) (p : Position) : cell? g p = .ok (g.cell? p) := by
  unfold Words.cell?
  cases hp : g.inBounds p with
  | true =>
      rcases exists_cell? hp with ⟨c, hc⟩
      simp only [if_true, place?_eq h hp, hc, bind, Except.bind, load?_place hc, pure, Except.pure]
  | false =>
      unfold Grid.cell?
      rw [hp]
      rfl

theorem put?_eq (h : g.Addressable) (p : Position) (c : Cell) :
    put? g p c = lift (g.put? p c) := by
  unfold Words.put?
  cases hp : g.inBounds p with
  | true =>
      simp only [if_true, place?_eq h hp, bind, Except.bind, save?_place hp,
        put?_of_inBounds hp, lift]
  | false =>
      unfold Grid.put?
      rw [hp]
      rfl

theorem clear?_eq (h : g.Addressable) (p : Position) (id : MissileId) :
    clear? g p id = .ok (g.clear p id) := by
  unfold Words.clear? Grid.clear
  cases hp : g.inBounds p with
  | true =>
      rcases exists_cell? hp with ⟨c, hc⟩
      by_cases hid : c.occupant? = some id <;>
        simp [place?_eq h hp, hc, bind, Except.bind, load?_place hc, save?_place hp, hid, pure,
          Except.pure]
  | false =>
      unfold Grid.cell?
      rw [hp]
      rfl

theorem stamp?_eq (h : g.Addressable) (hp : g.inBounds p = true) (claimant : MissileId) :
    stamp? g p claimant = .ok (g.stamp p claimant) := by
  rcases exists_cell? hp with ⟨c, hc⟩
  unfold Words.stamp? Grid.stamp
  simp only [place?_eq h hp, hc, bind, Except.bind, load?_place hc, save?_place hp]
  cases c <;> rfl

/-!
## Squares
-/

theorem scan?_eq (h : g.Addressable) (f : Fleet) (mover : MissileId) {ps : List Position}
    (hps : forall p, p ∈ ps -> g.inBounds p = true) :
    scan? g f mover ps = .ok
      (match g.firstCollision mover ps with
        | none => (none, g, f)
        | some (spot, c) => (some c, g.settle spot c, strike f c)) := by
  induction ps with
  | nil => rfl
  | cons p rest ih =>
      have hp := hps p List.mem_cons_self
      rcases exists_cell? hp with ⟨cell, hcell⟩
      unfold scan? firstCollision
      simp only [place?_eq h hp, bind, Except.bind, load?_place hcell, List.findSome?_cons, hcell,
        Option.bind_some]
      cases hfirst : collisionWith mover cell with
      | none => exact ih fun q hq => hps q (List.mem_cons_of_mem _ hq)
      | some c =>
          cases c with
          | intercept victim =>
              simp only [save?_place hp]
              rfl
          | friendly victim =>
              simp only [save?_place hp]
              rfl
          | goal => rfl
          | wall => rfl
          | offGrid => rfl

theorem inBounds_of_mem_spans {left right top bottom : Int}
    (hp : p ∈ (span (max top 0) (min bottom (g.height - 1))).flatMap fun y =>
      (span (max left 0) (min right (g.width - 1))).map fun x => (⟨x, y⟩ : Position)) :
    g.inBounds p = true := by
  simp only [List.mem_flatMap, List.mem_map, mem_span] at hp
  rcases hp with ⟨y, hy, x, hx, heq⟩
  rw [← heq, inBounds_iff]
  simp only
  omega

theorem sub?_one_eq (h : g.Addressable) (hp : g.inBounds p = true) :
    Bounded.sub? g.width 1 = .ok (g.width - 1) ∧
      Bounded.sub? g.height 1 = .ok (g.height - 1) := by
  rcases inBounds_iff.mp hp with ⟨hx, hxw, hy, hyh⟩
  have hwidth : g.width * 1 <= g.width * g.height :=
    Int.mul_le_mul_of_nonneg_left (by omega) (by omega)
  have hheight : 1 * g.height <= g.width * g.height :=
    Int.mul_le_mul_of_nonneg_right (by omega) (by omega)
  have harea := h.area_le
  have hfits : forall n : Int, 0 <= n -> n <= Bounded.greatest -> Bounded.Fits n := by
    intro n hnonneg hle
    unfold Bounded.Fits Bounded.least
    omega
  exact ⟨Bounded.sub?_eq_ok.mpr ⟨hfits _ (by omega) (by omega), rfl⟩,
    Bounded.sub?_eq_ok.mpr ⟨hfits _ (by omega) (by omega), rfl⟩⟩

/-- The same bounds of the square overflow, or none. -/
theorem resolve?_eq_lift (h : g.Addressable) (f : Fleet) (mover : MissileId) (p : Position)
    (radius : Int) :
    resolve? g f mover p radius = lift (g.resolve? f mover p radius) := by
  unfold Grid.resolve? Words.resolve?
  cases hp : g.inBounds p with
  | false => rfl
  | true =>
      rcases sub?_one_eq h hp with ⟨hlastColumn, hlastRow⟩
      simp only [Bool.not_true, Bool.false_eq_true, if_false, square?, lift_bind, bind_assoc,
        pure_bind, hlastColumn, hlastRow, lift_ok]
      refine bind_congr fun left => bind_congr fun right => bind_congr fun top =>
        bind_congr fun bottom => ?_
      exact scan?_eq h f mover fun q hq => inBounds_of_mem_spans hq

theorem resolve?_eq (h : g.Addressable) {radius : Int} (hroom : g.HasRoom radius) (f : Fleet)
    (mover : MissileId) (p : Position) :
    exists outcome, g.resolve? f mover p radius = .ok outcome ∧
      resolve? g f mover p radius = .ok outcome := by
  rcases hroom.resolve? f mover p with ⟨outcome, houtcome⟩
  exact ⟨outcome, houtcome, by rw [resolve?_eq_lift h, houtcome]; rfl⟩

/-!
## All cells
-/

theorem ofIndex_eq (h : g.Addressable) {i : Nat} (hi : i < g.cells.size) : ofIndex i = i := by
  have hsize := g.size_eq h.width_nonneg h.height_nonneg
  have harea := h.area_le
  unfold Bounded.greatest at harea
  unfold ofIndex
  exact Int.bmod_eq_of_le (by omega) (by omega)

theorem position?_eq (h : g.Addressable) {i : Nat} (hi : i < g.cells.size) :
    position? g i = .ok (g.positionOf i) := by
  have hwidth : g.width ≠ 0 := by
    intro hzero
    rw [g.size_cells, hzero] at hi
    simp at hi
  have hnonneg := h.width_nonneg
  have hdivides : divides i g.width = true := by
    simp [divides, hwidth]
    omega
  unfold position? quotient? remainder?
  rw [ofIndex_eq h hi, if_pos hdivides, if_pos hdivides]
  simp only [bind, Except.bind, pure, Except.pure, positionOf]
  rw [Int.tmod_eq_emod_of_nonneg (by omega), Int.tdiv_eq_ediv_of_nonneg (by omega)]

theorem entriesFrom?_eq (h : g.Addressable) (cs : List Cell) (i : Nat)
    (hi : i + cs.length <= g.cells.size) :
    entriesFrom? g i cs = .ok (cs.mapIdx fun j c => (g.positionOf (i + j), c)) := by
  induction cs generalizing i with
  | nil => rfl
  | cons c rest ih =>
      rw [List.length_cons] at hi
      unfold entriesFrom?
      rw [position?_eq h (by omega), ih (i + 1) (by omega), List.mapIdx_cons]
      simp only [bind, Except.bind, pure, Except.pure, Nat.add_zero, Nat.add_assoc, Nat.add_comm 1]

theorem entries?_eq (h : g.Addressable) : entries? g = .ok g.entries := by
  unfold entries? entries
  rw [entriesFrom?_eq h _ _ (by simp)]
  simp only [Nat.zero_add]

theorem missileEntries?_eq (h : g.Addressable) : missileEntries? g = .ok g.missileEntries := by
  unfold missileEntries?
  rw [entries?_eq h, missileEntries_eq_filter]
  rfl

end Words
end Grid
end AirDefense
