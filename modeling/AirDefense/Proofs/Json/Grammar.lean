import AirDefense.Json.Reader
import AirDefense.Json.Printer

/-!
# The grammar of JSON

Which characters write which value, apart from any reader.  A text is given as the relation
between its characters and its tree: blanks may stand before every value, and before every
quote, colon, comma and bracket of it.
-/

namespace AirDefense
namespace Json

open Reader

/-!
## Strings
-/

def Trails (cs : List Char) : Prop :=
  exists a b c d u rest, cs = '\\' :: 'u' :: a :: b :: c :: d :: rest ∧
    codeUnit? a b c d = some u ∧ isTrailing u = true

/--
The characters between the quotes of a string, and the characters it has; none if an escape
names half a character that its neighbour does not complete.
-/
inductive Spells : List Char -> Option (List Char) -> Prop where
  | nil : Spells [] (some [])
  | plain {c : Char} {cs : List Char} {s : Option (List Char)} (hquote : c ≠ '"')
      (hslash : c ≠ '\\') (hcontrol : 0x20 <= c.toNat) (h : Spells cs s) :
      Spells (c :: cs) (s.map (c :: ·))
  | escape {e c : Char} {cs : List Char} {s : Option (List Char)} (he : escaped? e = some c)
      (h : Spells cs s) : Spells ('\\' :: e :: cs) (s.map (c :: ·))
  | unit {a b c d : Char} {u : Nat} {cs : List Char} {s : Option (List Char)}
      (hu : codeUnit? a b c d = some u) (hleading : isLeading u = false)
      (htrailing : isTrailing u = false) (h : Spells cs s) :
      Spells ('\\' :: 'u' :: a :: b :: c :: d :: cs) (s.map (Char.ofNat u :: ·))
  | pair {a b c d e f g h : Char} {u t : Nat} {cs : List Char} {s : Option (List Char)}
      (hu : codeUnit? a b c d = some u) (hleading : isLeading u = true)
      (ht : codeUnit? e f g h = some t) (htrailing : isTrailing t = true) (hcs : Spells cs s) :
      Spells ('\\' :: 'u' :: a :: b :: c :: d :: '\\' :: 'u' :: e :: f :: g :: h :: cs)
        (s.map (pair u t :: ·))
  | half {a b c d : Char} {u : Nat} {cs : List Char} {s : Option (List Char)}
      (hu : codeUnit? a b c d = some u)
      (hhalf : isTrailing u = true ∨ isLeading u = true ∧ ¬ Trails cs) (h : Spells cs s) :
      Spells ('\\' :: 'u' :: a :: b :: c :: d :: cs) none

/-!
## Numbers
-/

namespace Numeral

/-- Digits are below ten, and where a part has to be written it has some. -/
structure WellFormed (n : Numeral) : Prop where
  whole_ne_nil : n.whole ≠ []
  no_leading_zero : forall ds, n.whole = 0 :: ds -> ds = []
  whole_lt : forall d, d ∈ n.whole -> d < 10
  fraction_lt : forall d, d ∈ n.fraction -> d < 10
  exponent_ne_nil : forall minus ds, n.exponent = some (minus, ds) -> ds ≠ []
  exponent_lt : forall minus ds, n.exponent = some (minus, ds) -> forall d, d ∈ ds -> d < 10

def signText (n : Numeral) : List Char :=
  if n.negative then ['-'] else []

def fractionText (n : Numeral) : List Char :=
  if n.fraction.isEmpty then [] else '.' :: digitText n.fraction

end Numeral

inductive SpellsExponent : List Char -> Option (Bool × List Nat) -> Prop where
  | absent : SpellsExponent [] none
  | bare {e : Char} {ds : List Nat} (he : e = 'e' ∨ e = 'E') :
      SpellsExponent (e :: Numeral.digitText ds) (some (false, ds))
  | plus {e : Char} {ds : List Nat} (he : e = 'e' ∨ e = 'E') :
      SpellsExponent (e :: '+' :: Numeral.digitText ds) (some (false, ds))
  | minus {e : Char} {ds : List Nat} (he : e = 'e' ∨ e = 'E') :
      SpellsExponent (e :: '-' :: Numeral.digitText ds) (some (true, ds))

inductive SpellsNumeral : List Char -> Numeral -> Prop where
  | mk {n : Numeral} {es : List Char} (hn : n.WellFormed) (h : SpellsExponent es n.exponent) :
      SpellsNumeral (Numeral.digitText n.whole ++ (n.fractionText ++ es)) n

/-!
## Values
-/

mutual

/-- The characters write the value. -/
inductive Writes : List Char -> Value -> Prop where
  | blank {c : Char} {cs : List Char} {v : Value} (hc : isBlank c = true) (h : Writes cs v) :
      Writes (c :: cs) v
  | null : Writes ['n', 'u', 'l', 'l'] .null
  | yes : Writes ['t', 'r', 'u', 'e'] (.bool true)
  | no : Writes ['f', 'a', 'l', 's', 'e'] (.bool false)
  | number {cs : List Char} {n : Numeral} (h : SpellsNumeral cs n) :
      Writes (n.signText ++ cs) (.number n)
  | string {cs : List Char} {s : Option (List Char)} (h : Spells cs s) :
      Writes ('"' :: (cs ++ ['"'])) (.string (s.map String.ofList))
  | array {cs : List Char} {xs : Items} (h : WritesItems true cs xs) :
      Writes ('[' :: cs) (.array xs)
  | object {cs : List Char} {ms : Members} (h : WritesMembers true cs ms) :
      Writes ('\x7b' :: cs) (.object ms)

inductive WritesItems : Bool -> List Char -> Items -> Prop where
  | blank {first : Bool} {c : Char} {cs : List Char} {xs : Items} (hc : isBlank c = true)
      (h : WritesItems first cs xs) : WritesItems first (c :: cs) xs
  | close {first : Bool} : WritesItems first [']'] .closed
  | head {cs ds : List Char} {v : Value} {xs : Items} (hv : Writes cs v)
      (hxs : WritesItems false ds xs) : WritesItems true (cs ++ ds) (.more v xs)
  | next {cs ds : List Char} {v : Value} {xs : Items} (hv : Writes cs v)
      (hxs : WritesItems false ds xs) :
      WritesItems false (',' :: (cs ++ ds)) (.more v xs)

inductive WritesMembers : Bool -> List Char -> Members -> Prop where
  | blank {first : Bool} {c : Char} {cs : List Char} {ms : Members} (hc : isBlank c = true)
      (h : WritesMembers first cs ms) : WritesMembers first (c :: cs) ms
  | close {first : Bool} : WritesMembers first ['\x7d'] .closed
  | head {cs : List Char} {ms : Members} (h : WritesMember cs ms) :
      WritesMembers true cs ms
  | next {cs : List Char} {ms : Members} (h : WritesMember cs ms) :
      WritesMembers false (',' :: cs) ms

inductive WritesMember : List Char -> Members -> Prop where
  | blank {c : Char} {cs : List Char} {ms : Members} (hc : isBlank c = true)
      (h : WritesMember cs ms) : WritesMember (c :: cs) ms
  | mk {ks bs cs ds : List Char} {k : Option (List Char)} {v : Value} {ms : Members}
      (hk : Spells ks k) (hbs : bs.all isBlank = true) (hv : Writes cs v)
      (hms : WritesMembers false ds ms) :
      WritesMember ('"' :: (ks ++ '"' :: (bs ++ ':' :: (cs ++ ds))))
        (.more (k.map String.ofList) v ms)

end

/-- A whole text writes the value; blanks may stand around it. -/
def TextWrites (text : String) (v : Value) : Prop :=
  exists cs bs, Writes cs v ∧ bs.all isBlank = true ∧ text.toList = cs ++ bs

/-!
## What is written is unbroken
-/

mutual

theorem Writes.skip?_eq_none : forall {cs : List Char} {v : Value}, Writes cs v -> v.skip? = none
  | _, _, .blank _ h => h.skip?_eq_none
  | _, _, .null => rfl
  | _, _, .yes => rfl
  | _, _, .no => rfl
  | _, _, .number _ => rfl
  | _, _, .string _ => rfl
  | _, _, .array h => h.skip?_eq_none
  | _, _, .object h => h.skip?_eq_none

theorem WritesItems.skip?_eq_none : forall {first : Bool} {cs : List Char} {xs : Items},
    WritesItems first cs xs -> xs.skip? = none
  | _, _, _, .blank _ h => h.skip?_eq_none
  | _, _, _, .close => rfl
  | _, _, _, .head hv hxs => by
      unfold Items.skip?
      rw [hv.skip?_eq_none, hxs.skip?_eq_none]
      rfl
  | _, _, _, .next hv hxs => by
      unfold Items.skip?
      rw [hv.skip?_eq_none, hxs.skip?_eq_none]
      rfl

theorem WritesMembers.skip?_eq_none : forall {first : Bool} {cs : List Char} {ms : Members},
    WritesMembers first cs ms -> ms.skip? = none
  | _, _, _, .blank _ h => h.skip?_eq_none
  | _, _, _, .close => rfl
  | _, _, _, .head h => h.skip?_eq_none
  | _, _, _, .next h => h.skip?_eq_none

theorem WritesMember.skip?_eq_none : forall {cs : List Char} {ms : Members},
    WritesMember cs ms -> ms.skip? = none
  | _, _, .blank _ h => h.skip?_eq_none
  | _, _, .mk _ _ hv hms => by
      unfold Members.skip?
      rw [hv.skip?_eq_none, hms.skip?_eq_none]
      rfl

end

theorem TextWrites.skip?_eq_none {text : String} {v : Value} (h : TextWrites text v) :
    v.skip? = none := by
  rcases h with ⟨_, _, hv, _, _⟩
  exact hv.skip?_eq_none

end Json
end AirDefense
