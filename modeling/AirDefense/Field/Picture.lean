import AirDefense.Field.Grid

/-!
# Pictures

The field as lines of text, a character for each cell.
-/

namespace AirDefense

namespace Cell

def symbol : Cell -> Char
  | empty => '.'
  | wall => '#'
  | goal => 'G'
  | attacker _ _ => 'A'
  | defender _ => 'D'

end Cell

namespace Grid

def picture (g : Grid) : List String :=
  (List.range g.height.toNat).map fun (row : Nat) =>
    String.ofList ((List.range g.width.toNat).map fun (column : Nat) =>
      match g.cell? ⟨column, row⟩ with
      | some c => c.symbol
      | none => ' ')

def count (g : Grid) (symbol : Char) : Nat :=
  g.cells.foldl (fun n c => if c.symbol = symbol then n + 1 else n) 0

end Grid
end AirDefense
