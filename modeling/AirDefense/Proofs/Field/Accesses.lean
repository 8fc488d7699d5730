import AirDefense.Proofs.Field.Words
import AirDefense.Proofs.Settings.Start

/-!
# Runs of accesses to a grid

All that is done to a grid in a run is a sequence of accesses.  One access in 32-bit
arithmetic does what it does in integers without bounds, and leaves the sides of the grid
alone; so a whole run does.  On the field of valid settings there is room for every access.
-/

namespace AirDefense

/-- Something that is asked of a grid, or done to it. -/
inductive GridAccess where
  | cell (p : Position)
  | entries
  | missiles
  | put (p : Position) (c : Cell)
  | clear (p : Position) (id : MissileId)
  | stamp (p : Position) (claimant : MissileId)
  | resolve (mover : MissileId) (p : Position)

namespace GridAccess

open InWords Grid

inductive Answer where
  | cell (c : Option Cell)
  | entries (es : List (Position × Cell))
  | collision (c : Option Collision)
  | done

def perform (radius : Int) (g : Grid) (f : Fleet) :
    GridAccess -> Except Fault (Answer × Grid × Fleet)
  | cell p => .ok (.cell (g.cell? p), g, f)
  | entries => .ok (.entries g.entries, g, f)
  | missiles => .ok (.entries g.missileEntries, g, f)
  | put p c => do
      let g <- g.put? p c
      return (.done, g, f)
  | clear p id =>
      let (c, g) := g.clear p id
      .ok (.cell c, g, f)
  | stamp p claimant => .ok (.done, g.stamp p claimant, f)
  | resolve mover p => do
      let (c, g, f) <- g.resolve? f mover p radius
      return (.collision c, g, f)

def performInWords (radius : Int) (g : Grid) (f : Fleet) :
    GridAccess -> InWords (Answer × Grid × Fleet)
  | cell p => do
      let c <- Words.cell? g p
      return (.cell c, g, f)
  | entries => do
      let es <- Words.entries? g
      return (.entries es, g, f)
  | missiles => do
      let es <- Words.missileEntries? g
      return (.entries es, g, f)
  | put p c => do
      let g <- Words.put? g p c
      return (.done, g, f)
  | clear p id => do
      let (c, g) <- Words.clear? g p id
      return (.cell c, g, f)
  | stamp p claimant => do
      let g <- Words.stamp? g p claimant
      return (.done, g, f)
  | resolve mover p => do
      let (c, g, f) <- Words.resolve? g f mover p radius
      return (.collision c, g, f)

/-- Accesses one after the other, up to the first fault. -/
def run (radius : Int) : List GridAccess -> Grid -> Fleet ->
    Except Fault (List Answer × Grid × Fleet)
  | [], g, f => .ok ([], g, f)
  | a :: rest, g, f => do
      let (answer, g, f) <- perform radius g f a
      let (answers, g, f) <- run radius rest g f
      return (answer :: answers, g, f)

def runInWords (radius : Int) : List GridAccess -> Grid -> Fleet ->
    InWords (List Answer × Grid × Fleet)
  | [], g, f => .ok ([], g, f)
  | a :: rest, g, f => do
      let (answer, g, f) <- performInWords radius g f a
      let (answers, g, f) <- runInWords radius rest g f
      return (answer :: answers, g, f)

/-- Only a mark needs a position on the grid to begin with. -/
def Allowed (g : Grid) : GridAccess -> Prop
  | stamp p _ => g.inBounds p = true
  | _ => True

end GridAccess

/-!
## The sides of the grid
-/

namespace Grid

variable {g g' : Grid} {f f' : Fleet} {radius : Int}

theorem inBounds_congr (hwidth : g'.width = g.width) (hheight : g'.height = g.height)
    (p : Position) : g'.inBounds p = g.inBounds p := by
  unfold inBounds
  rw [hwidth, hheight]

theorem sides_of_resolve? {mover : MissileId} {p : Position} {c : Option Collision}
    (h : g.resolve? f mover p radius = .ok (c, g', f')) :
    g'.width = g.width ∧ g'.height = g.height := by
  cases c with
  | none =>
      rw [(resolve?_eq_none h).2.1]
      exact ⟨rfl, rfl⟩
  | some c =>
      rcases resolve?_collided h with ⟨hwidth, hheight, _⟩
      exact ⟨hwidth, hheight⟩

end Grid

namespace GridAccess

open InWords Grid

/-!
## One access
-/

variable {g g' : Grid} {f f' : Fleet} {radius : Int} {a : GridAccess} {answer : Answer}

theorem Allowed.congr (h : a.Allowed g) (hwidth : g'.width = g.width)
    (hheight : g'.height = g.height) : a.Allowed g' := by
  cases a with
  | stamp p claimant => exact (inBounds_congr hwidth hheight p).trans h
  | _ => trivial

theorem performInWords_eq (h : g.Addressable) (hroom : g.HasRoom radius) (ha : a.Allowed g)
    (f : Fleet) : performInWords radius g f a = lift (perform radius g f a) := by
  cases a with
  | cell p =>
      simp only [performInWords, Words.cell?_eq h]
      rfl
  | entries =>
      simp only [performInWords, Words.entries?_eq h]
      rfl
  | missiles =>
      simp only [performInWords, Words.missileEntries?_eq h]
      rfl
  | put p c =>
      simp only [performInWords, perform, Words.put?_eq h]
      cases g.put? p c <;> rfl
  | clear p id =>
      simp only [performInWords, Words.clear?_eq h]
      rfl
  | stamp p claimant =>
      simp only [performInWords, Words.stamp?_eq h ha]
      rfl
  | resolve mover p =>
      rcases Words.resolve?_eq h hroom f mover p with ⟨outcome, hplain, hwords⟩
      simp only [performInWords, perform, hplain, hwords]
      rfl

theorem sides_of_perform (h : perform radius g f a = .ok (answer, g', f')) :
    g'.width = g.width ∧ g'.height = g.height := by
  cases a with
  | cell p =>
      cases h
      exact ⟨rfl, rfl⟩
  | entries =>
      cases h
      exact ⟨rfl, rfl⟩
  | missiles =>
      cases h
      exact ⟨rfl, rfl⟩
  | put p c =>
      rcases bind_eq_ok.mp h with ⟨written, hput, heq⟩
      cases pure_eq_ok.mp heq
      exact put?_eq_ok hput
  | clear p id =>
      cases h
      exact ⟨width_clear, height_clear⟩
  | stamp p claimant =>
      cases h
      exact ⟨width_stamp, height_stamp⟩
  | resolve mover p =>
      rcases bind_eq_ok.mp h with ⟨⟨c, settled, struck⟩, hresolve, heq⟩
      cases pure_eq_ok.mp heq
      exact sides_of_resolve? hresolve

theorem eq_put_of_perform_error {fault : Fault} (hroom : g.HasRoom radius)
    (h : perform radius g f a = .error fault) :
    exists p c, a = put p c ∧ g.inBounds p = false ∧ fault = .placedOffGrid c p := by
  cases a with
  | cell p => cases h
  | entries => cases h
  | missiles => cases h
  | put p c =>
      rcases bind_eq_error.mp h with herror | ⟨written, _, heq⟩
      · unfold Grid.put? at herror
        split at herror
        · cases herror
        · rename_i hp
          cases herror
          exact ⟨p, c, rfl, by simpa using hp, rfl⟩
      · cases heq
  | clear p id => cases h
  | stamp p claimant => cases h
  | resolve mover p =>
      rcases hroom.resolve? f mover p with ⟨outcome, houtcome⟩
      simp only [perform, houtcome] at h
      cases h

/-!
## Runs
-/

variable {as : List GridAccess}

/-- In a run no access comes to another result in 32 bits. -/
theorem runInWords_eq (h : g.Addressable) (hroom : g.HasRoom radius)
    (has : forall a, a ∈ as -> a.Allowed g) (f : Fleet) :
    runInWords radius as g f = lift (run radius as g f) := by
  induction as generalizing g f with
  | nil => rfl
  | cons a rest ih =>
      have hfirst := performInWords_eq h hroom (has a List.mem_cons_self) f
      simp only [runInWords, run, hfirst]
      cases hperform : perform radius g f a with
      | error fault => rfl
      | ok outcome =>
          rcases outcome with ⟨answer, g', f'⟩
          rcases sides_of_perform hperform with ⟨hwidth, hheight⟩
          have hrest := ih (h.congr hwidth hheight) (hroom.congr hwidth hheight)
            (fun b hb => (has b (List.mem_cons_of_mem _ hb)).congr hwidth hheight) f'
          simp only [lift, bind, Except.bind, hrest]
          cases run radius rest g' f' <;> rfl

theorem exists_put_of_run_error {fault : Fault} (hroom : g.HasRoom radius)
    (h : run radius as g f = .error fault) :
    exists p c, put p c ∈ as ∧ g.inBounds p = false ∧ fault = .placedOffGrid c p := by
  induction as generalizing g f with
  | nil => cases h
  | cons a rest ih =>
      rcases bind_eq_error.mp h with hfirst | ⟨⟨answer, g', f'⟩, hperform, hafter⟩
      · rcases eq_put_of_perform_error hroom hfirst with ⟨p, c, rfl, hp, hfault⟩
        exact ⟨p, c, List.mem_cons_self, hp, hfault⟩
      · rcases bind_eq_error.mp hafter with hrest | ⟨outcome, _, heq⟩
        · rcases sides_of_perform hperform with ⟨hwidth, hheight⟩
          rcases ih (hroom.congr hwidth hheight) hrest with ⟨p, c, hmem, hp, hfault⟩
          refine ⟨p, c, List.mem_cons_of_mem _ hmem, ?_, hfault⟩
          exact (inBounds_congr hwidth hheight p).symm.trans hp
        · cases heq

end GridAccess

/-!
## The field of valid settings
-/

theorem FieldSettings.HasInterior.addressable {f : FieldSettings} {g : Grid}
    (h : f.HasInterior) (hg : Grid.ofSettings? f = .ok g) : g.Addressable := by
  rcases Grid.ofSettings?_spec hg with ⟨harea, hwidth, hheight, _⟩
  have hwall := h.wall_pos
  have hradius := h.radius_pos
  have hinner := h.margin_lt_width
  have houter := h.margin_lt_height
  exact
    { width_nonneg := by omega
      height_nonneg := by omega
      area_le := by
        rw [hwidth, hheight]
        exact harea.2 }

namespace Settings

/--
Under valid settings that a grid can be built with, the bounds of the interior and the launch
row are numbers of 32 bits.  On that grid, whatever has happened to it, any accesses at any
positions come to the same in 32 bits as in integers without bounds; they can only fail when
a cell is put off the grid, which is refused.
-/
theorem accesses_have_room {s : Settings} {g : Grid} (h : s.validate = .ok (.ok ()))
    (hg : Grid.ofSettings? s.field = .ok g) :
    (exists least greatest row, s.field.leastInterior? = .ok least ∧
        s.field.greatestInterior? = .ok greatest ∧ s.launchRow? = .ok row) ∧
      forall g' : Grid, g'.width = g.width -> g'.height = g.height ->
        forall (f : Fleet) (as : List GridAccess), (forall a, a ∈ as -> a.Allowed g') ->
          GridAccess.runInWords s.field.missileRadius as g' f =
              InWords.lift (GridAccess.run s.field.missileRadius as g' f) ∧
            forall fault, GridAccess.runInWords s.field.missileRadius as g' f = .error fault ->
              exists p c, .put p c ∈ as ∧ g'.inBounds p = false ∧
                fault = .fault (.placedOffGrid c p) := by
  have hf := hasInterior_of_validate h
  constructor
  · rcases hf.interior hg with ⟨hleast, hgreatest⟩
    rcases launchRow?_of_validate h with ⟨row, hrow, _⟩
    exact ⟨_, _, row, hleast, hgreatest, hrow⟩
  · intro g' hwidth hheight f as hallowed
    have hroom := (hf.hasRoom hg).congr hwidth hheight
    have heq := GridAccess.runInWords_eq ((hf.addressable hg).congr hwidth hheight) hroom hallowed f
    refine ⟨heq, fun fault herror => ?_⟩
    rw [heq] at herror
    cases hrun : GridAccess.run s.field.missileRadius as g' f with
    | ok outcome =>
        rw [hrun] at herror
        cases herror
    | error plain =>
        rw [hrun] at herror
        cases herror
        rcases GridAccess.exists_put_of_run_error hroom hrun with ⟨p, c, hmem, hp, hfault⟩
        exact ⟨p, c, hmem, hp, congrArg WordFault.fault hfault⟩

def cornered (corner : Position) (id : MissileId) : List GridAccess :=
  [.put corner (.attacker id none), .stamp corner id, .resolve id corner, .clear corner id,
    .cell ⟨Bounded.greatest, Bounded.least⟩, .resolve id ⟨Bounded.least, Bounded.greatest⟩,
    .entries, .missiles]

theorem accesses_have_room_cornered :
    (square 46340).validate = .ok (.ok ()) ∧ exists g,
      Grid.ofSettings? (square 46340).field = .ok g ∧
        forall f id, exists outcome,
          GridAccess.runInWords 5 (cornered ⟨46339, 46339⟩ id) g f = .ok outcome := by
  have hvalid : (square 46340).validate = .ok (.ok ()) := by decide +kernel
  rcases (hasInterior_of_validate hvalid).exists_grid (by decide) with ⟨g, hg⟩
  refine ⟨hvalid, g, hg, fun f id => ?_⟩
  rcases Grid.ofSettings?_spec hg with ⟨_, hwidth, hheight, _⟩
  have hcorner : g.inBounds ⟨46339, 46339⟩ = true := by
    rw [Grid.inBounds_iff, hwidth, hheight]
    decide
  have hallowed : forall a, a ∈ cornered ⟨46339, 46339⟩ id -> a.Allowed g := by
    simp [cornered, GridAccess.Allowed, hcorner]
  have hrun := ((accesses_have_room hvalid hg).2 g rfl rfl f _ hallowed).2
  cases houtcome : GridAccess.runInWords 5 (cornered ⟨46339, 46339⟩ id) g f with
  | ok outcome => exact ⟨outcome, rfl⟩
  | error fault =>
      rcases hrun fault houtcome with ⟨p, c, hput, hoff, _⟩
      simp only [cornered, List.mem_cons, GridAccess.put.injEq, reduceCtorEq, List.not_mem_nil,
        or_false] at hput
      rw [hput.1, hcorner] at hoff
      cases hoff

end Settings
end AirDefense
