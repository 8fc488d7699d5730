import AirDefense.Json.Record
import AirDefense.Proofs.Json.Reading

/-!
# The printer writes by the grammar

The compact text of a value writes that value, as long as the value is one that can be
written.  With the reader reading all of the grammar, what is printed can be read back.
-/

namespace AirDefense
namespace Json

/-!
## Integers
-/

namespace Numeral

open Reader

variable {n k d : Nat} {ds : List Nat}

theorem whole_of_lt (h : n < 10) : (ofNat n).whole = [n] := by
  unfold ofNat
  rw [Nat.toDigits_of_lt_base h]
  exact congrArg (· :: []) (toNat_digitChar h)

theorem whole_of_le (h : 10 <= n) : (ofNat n).whole = (ofNat (n / 10)).whole ++ [n % 10] := by
  unfold ofNat
  rw [Nat.toDigits_of_base_le (by decide) h, List.map_append]
  exact congrArg (_ ++ [·]) (toNat_digitChar (Nat.mod_lt n (by decide)))

theorem accumulate_append (h : accumulate k ds = (n, [])) (hlt : n * 10 + d < wordLimit) :
    accumulate k (ds ++ [d]) = (n * 10 + d, []) := by
  induction ds generalizing k with
  | nil =>
      cases h
      simp [accumulate, hlt]
  | cons e ds ih =>
      rw [List.cons_append]
      unfold accumulate at h ⊢
      split at h
      · rename_i hfits
        rw [if_pos hfits]
        exact ih h
      · cases h

/-- By induction along the digits: a numeral of one digit, or another one and a last digit. -/
theorem wellFormed_ofNat (n : Nat) : (ofNat n).WellFormed := by
  have hwhole : (ofNat n).whole ≠ [] ∧ (forall ds, (ofNat n).whole = 0 :: ds -> n = 0) ∧
      forall d, d ∈ (ofNat n).whole -> d < 10 := by
    induction n using Nat.strongRecOn with
    | ind n ih =>
        by_cases hn : n < 10
        · rw [whole_of_lt hn]
          refine ⟨List.cons_ne_nil _ _, fun ds h => (List.cons.inj h).1, fun d hd => ?_⟩
          rw [List.mem_singleton.mp hd]
          exact hn
        · rcases ih (n / 10) (by omega) with ⟨hne, hlead, hlt⟩
          rw [whole_of_le (by omega)]
          refine ⟨List.append_ne_nil_of_left_ne_nil hne _, fun ds h => ?_, fun d hd => ?_⟩
          · rcases List.exists_cons_of_ne_nil hne with ⟨d, ds', hds⟩
            rw [hds] at h
            have hzero := hlead ds' (by rw [hds, (List.cons.inj h).1])
            omega
          · rcases List.mem_append.mp hd with hd | hd
            · exact hlt d hd
            · rw [List.mem_singleton.mp hd]
              omega
  exact
    { whole_ne_nil := hwhole.1
      no_leading_zero := by
        intro ds h
        cases hwhole.2.1 ds h
        rw [whole_of_lt (by decide)] at h
        exact (List.cons.inj h).2.symm
      whole_lt := hwhole.2.2
      fraction_lt := fun _ hd => absurd hd List.not_mem_nil
      exponent_ne_nil := fun _ _ h => by cases h
      exponent_lt := fun _ _ h => by cases h }

theorem wellFormed_ofInt (k : Int) : (ofInt k).WellFormed :=
  { wellFormed_ofNat k.natAbs with }

theorem accumulate_ofNat (h : n < wordLimit) : accumulate 0 (ofNat n).whole = (n, []) := by
  induction n using Nat.strongRecOn with
  | ind n ih =>
      by_cases hn : n < 10
      · rw [whole_of_lt hn]
        simp [accumulate, h]
      · rw [whole_of_le (by omega)]
        have hlast : n / 10 * 10 + n % 10 = n := by omega
        have hrest := ih (n / 10) (by omega) (by omega)
        rw [accumulate_append hrest (by omega), hlast]

theorem meaning_ofNat (h : n < wordLimit) : (ofNat n).meaning = .natural n := by
  unfold meaning
  rw [accumulate_ofNat h]
  rfl

theorem meaning_ofInt_of_neg {k : Int} (hneg : k < 0) (hk : -9223372036854775808 <= k) :
    (ofInt k).meaning = .negative (k.natAbs - 1) := by
  have haccumulate : accumulate 0 (ofInt k).whole = (k.natAbs, []) :=
    accumulate_ofNat (by unfold wordLimit; omega)
  have hsign : (ofInt k).negative = true := decide_eq_true hneg
  have hpos : 0 < k.natAbs := by omega
  have hhalf : k.natAbs <= wordLimit / 2 := by
    unfold wordLimit
    omega
  unfold meaning
  rw [haccumulate, hsign]
  change (if (0 < k.natAbs && k.natAbs <= wordLimit / 2) = true then _ else _) = _
  rw [if_pos (by simp [hpos, hhalf])]

theorem ofInt_of_nonneg {k : Int} (h : 0 <= k) : ofInt k = ofNat k.toNat := by
  unfold ofInt
  rw [show k.natAbs = k.toNat by omega, decide_eq_false (by omega)]
  rfl

end Numeral

/-!
## Integers that are read back
-/

namespace Accept

theorem natural_ofNat {bits n : Nat} (hbits : bits <= 64) (hn : n < powerOfTwo bits) :
    natural bits (.ofNat n) = .ok n := by
  have hword : n < Numeral.wordLimit :=
    Nat.lt_of_lt_of_le hn (Nat.pow_le_pow_right (by decide) hbits)
  have hbound : (0 : Int) <= n ∧ (n : Int) <= (powerOfTwo bits - 1 : Nat) := by omega
  unfold natural integer Value.ofNat
  simp only [Numeral.meaning_ofNat hword]
  rw [if_pos (by simpa using hbound)]
  rfl

theorem int32_ofInt {k : Int} (hk : Bounded.Fits k) : int32 (.ofInt k) = .ok k := by
  have hbounds : (decide (Bounded.least <= k) && decide (k <= Bounded.greatest)) = true := by
    simpa [Bounded.Fits] using hk
  rcases hk with ⟨hleast, hgreatest⟩
  unfold Bounded.least at hleast
  unfold Bounded.greatest at hgreatest
  unfold int32 integer Value.ofInt
  rcases Int.lt_or_le k 0 with hneg | hpos
  · have hvalue : -((k.natAbs - 1 : Nat) : Int) - 1 = k := by omega
    simp only [Numeral.meaning_ofInt_of_neg hneg (by omega), hvalue]
    rw [if_pos hbounds]
  · have hvalue : (k.toNat : Int) = k := Int.toNat_of_nonneg hpos
    have hword : k.toNat < Numeral.wordLimit := by
      unfold Numeral.wordLimit
      omega
    simp only [Numeral.ofInt_of_nonneg hpos, Numeral.meaning_ofNat hword, hvalue]
    rw [if_pos hbounds]

theorem list_ofList {accept : Accept α} {toJson : α -> Value} {xs : List α}
    (h : forall x, x ∈ xs -> accept (toJson x) = .ok x) :
    list accept (.ofList (xs.map toJson)) = .ok xs := by
  change everyItem accept (Items.ofList (xs.map toJson)) = .ok xs
  induction xs with
  | nil => rfl
  | cons x xs ih =>
      have hxs := ih fun y hy => h y (List.mem_cons_of_mem x hy)
      exact bind_eq_ok.mpr ⟨x, h x List.mem_cons_self, bind_eq_ok.mpr ⟨xs, hxs, rfl⟩⟩

end Accept

/-!
## Strings
-/

theorem codeUnit?_control : forall n, n < 0x20 ->
    Reader.codeUnit? '0' '0' (Printer.hexDigit (n / 16)) (Printer.hexDigit n) = some n := by
  decide

def letterEscapes : List (Char × Char) :=
  [('"', '"'), ('\\', '\\'), ('\x08', 'b'), ('\x0c', 'f'), ('\n', 'n'), ('\r', 'r'), ('\t', 't')]

theorem escape_of_mem_letterEscapes : forall x, x ∈ letterEscapes ->
    Printer.escape x.1 = ['\\', x.2] ∧ Reader.escaped? x.2 = some x.1 := by
  decide

/-- A character is printed with one letter, as a unit, or as itself. -/
theorem escape_cases (c : Char) :
    (exists e, Printer.escape c = ['\\', e] ∧ Reader.escaped? e = some c) ∨
      (c.toNat < 0x20 ∧ Printer.escape c = ['\\', 'u', '0', '0',
        Printer.hexDigit (c.toNat / 16), Printer.hexDigit c.toNat]) ∨
        (c ≠ '"' ∧ c ≠ '\\' ∧ 0x20 <= c.toNat ∧ Printer.escape c = [c]) := by
  by_cases hletter : c ∈ letterEscapes.map Prod.fst
  · rcases List.mem_map.mp hletter with ⟨x, hx, rfl⟩
    exact .inl ⟨x.2, escape_of_mem_letterEscapes x hx⟩
  · simp only [letterEscapes, List.map_cons, List.map_nil, List.mem_cons, List.not_mem_nil,
      or_false, not_or] at hletter
    rcases Nat.lt_or_ge c.toNat 0x20 with hcontrol | hplain
    · exact .inr (.inl ⟨hcontrol, by simp [Printer.escape, hletter, hcontrol]⟩)
    · have hcontrol : ¬ c.toNat < 0x20 := by omega
      exact .inr (.inr ⟨hletter.1, hletter.2.1, hplain,
        by simp [Printer.escape, hletter, hcontrol]⟩)

theorem not_half_of_lt {u : Nat} (h : u < 0x20) :
    Reader.isLeading u = false ∧ Reader.isTrailing u = false := by
  revert u
  decide

theorem spells_escape {c : Char} {cs : List Char} {s : Option (List Char)} (h : Spells cs s) :
    Spells (Printer.escape c ++ cs) (s.map (c :: ·)) := by
  rcases escape_cases c with ⟨e, hprint, he⟩ | ⟨hcontrol, hprint⟩ |
    ⟨hquote, hslash, hplain, hprint⟩
  · rw [hprint]
    exact .escape he h
  · have hunit := codeUnit?_control c.toNat hcontrol
    have hwhole := not_half_of_lt hcontrol
    have hspells := Spells.unit hunit hwhole.1 hwhole.2 h
    rw [Char.ofNat_toNat] at hspells
    rw [hprint]
    exact hspells
  · rw [hprint]
    exact .plain hquote hslash hplain h

theorem spells_flatMap_escape (s : List Char) : Spells (s.flatMap Printer.escape) (some s) := by
  induction s with
  | nil => exact .nil
  | cons c s ih => exact spells_escape ih

theorem writes_quoted (s : String) : Writes (Printer.quoted s) (.string (some s)) := by
  have h := Writes.string (spells_flatMap_escape s.toList)
  rw [Option.map_some, String.ofList_toList] at h
  exact h

/-!
## Values
-/

mutual

def Value.Plain : Value -> Prop
  | .number n => n.WellFormed
  | .string s => s.isSome
  | .array xs => xs.Plain
  | .object ms => ms.Plain
  | .broken _ => False
  | _ => True

def Items.Plain : Items -> Prop
  | .closed => True
  | .more head tail => head.Plain ∧ tail.Plain
  | _ => False

def Members.Plain : Members -> Prop
  | .closed => True
  | .more key value tail => key.isSome ∧ value.Plain ∧ tail.Plain
  | _ => False

end

theorem exists_spellsExponent (n : Numeral) :
    exists es, SpellsExponent es n.exponent ∧
      n.text = n.signText ++ (Numeral.digitText n.whole ++ (n.fractionText ++ es)) := by
  cases hexponent : n.exponent with
  | none =>
      refine ⟨[], .absent, ?_⟩
      simp [Numeral.text, Numeral.signText, Numeral.fractionText, hexponent]
  | some x =>
      rcases x with ⟨minus, ds⟩
      cases minus with
      | true =>
          refine ⟨_, .minus (.inl rfl), ?_⟩
          simp [Numeral.text, Numeral.signText, Numeral.fractionText, hexponent]
      | false =>
          refine ⟨_, .bare (.inl rfl), ?_⟩
          simp [Numeral.text, Numeral.signText, Numeral.fractionText, hexponent]

theorem writes_number {n : Numeral} (h : n.WellFormed) : Writes n.text (.number n) := by
  rcases exists_spellsExponent n with ⟨es, hexponent, htext⟩
  rw [htext]
  exact .number (.mk h hexponent)

mutual

theorem writes_value : forall {v : Value}, v.Plain -> Writes (Printer.value v) v
  | .null, _ => .null
  | .bool true, _ => .yes
  | .bool false, _ => .no
  | .number _, h => writes_number h
  | .string (some s), _ => writes_quoted s
  | .array _, h => .array (writes_items h)
  | .object _, h => .object (writes_members h)

theorem writes_items : forall {first : Bool} {xs : Items}, xs.Plain ->
    WritesItems first (Printer.items first xs ++ [']']) xs
  | _, .closed, _ => .close
  | first, .more v xs, h => by
      have hv := writes_value h.1
      have hxs : WritesItems false (Printer.items false xs ++ [']']) xs := writes_items h.2
      unfold Printer.items
      rw [List.append_assoc, List.append_assoc]
      cases first with
      | true =>
          rw [if_pos rfl, List.nil_append]
          exact .head hv hxs
      | false =>
          rw [if_neg Bool.false_ne_true, List.singleton_append]
          exact .next hv hxs

theorem writes_members : forall {first : Bool} {ms : Members}, ms.Plain ->
    WritesMembers first (Printer.members first ms ++ ['\x7d']) ms
  | _, .closed, _ => .close
  | first, .more (some k) v ms, h => by
      have hv := writes_value h.2.1
      have hms : WritesMembers false (Printer.members false ms ++ ['\x7d']) ms :=
        writes_members h.2.2
      have hk := spells_flatMap_escape k.toList
      have hblank : ([] : List Char).all Reader.isBlank = true := rfl
      have hmember := WritesMember.mk hk hblank hv hms
      rw [Option.map_some, String.ofList_toList] at hmember
      have htext : '"' :: (k.toList.flatMap Printer.escape ++ '"' :: ([] ++ ':' ::
          (Printer.value v ++ (Printer.members false ms ++ ['\x7d'])))) =
          Printer.quoted k ++ ':' :: Printer.value v ++ Printer.members false ms ++ ['\x7d'] := by
        simp [Printer.quoted]
      rw [htext] at hmember
      unfold Printer.members
      cases first with
      | true => exact .head hmember
      | false => exact .next hmember

end

theorem textWrites_text {v : Value} (h : v.Plain) : TextWrites v.text v := by
  refine ⟨Printer.value v, [], writes_value h, rfl, ?_⟩
  rw [List.append_nil]
  exact String.toList_ofList

/-!
## Values that can be written
-/

namespace Value

@[simp] theorem plain_ofNat (n : Nat) : (ofNat n).Plain :=
  Numeral.wellFormed_ofNat n

@[simp] theorem plain_ofInt (k : Int) : (ofInt k).Plain :=
  Numeral.wellFormed_ofInt k

@[simp] theorem plain_ofString (s : String) : (ofString s).Plain :=
  rfl

theorem plain_ofList {vs : List Value} (h : forall v, v ∈ vs -> v.Plain) : (ofList vs).Plain := by
  induction vs with
  | nil => trivial
  | cons v vs ih =>
      exact ⟨h v List.mem_cons_self, ih fun w hw => h w (List.mem_cons_of_mem v hw)⟩

theorem plain_record {ms : List (String × Value)} (h : forall m, m ∈ ms -> m.2.Plain) :
    (record ms).Plain := by
  induction ms with
  | nil => trivial
  | cons m ms ih =>
      exact ⟨rfl, h m List.mem_cons_self, ih fun n hn => h n (List.mem_cons_of_mem m hn)⟩

end Value
end Json
end AirDefense
