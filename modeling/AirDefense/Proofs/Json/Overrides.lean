import AirDefense.Proofs.Json.Printing
import AirDefense.Proofs.Json.Records
import Mathlib.Data.List.Forall2

/-!
# Records that override a default

A record whose fields keep their default where they are not given is the default with the given
fields replaced.  Neither the order of the members nor the members that are not known make a
difference: what has been read at any moment is the default with the fields seen so far.
-/

namespace AirDefense
namespace Json

/-!
## Numbers with a fraction
-/

/--
The single that a numeral is read as: an integer of 64 bits is rounded once; any other number
is a double first, and that is rounded.
-/
inductive Numeral.ReadsSingle : Numeral -> Float32 -> Prop where
  | natural {n : Numeral} {k : Nat} (h : n.meaning = .natural k) :
      ReadsSingle n (Single.ofInt k)
  | negative {n : Numeral} {k : Nat} (h : n.meaning = .negative k) :
      ReadsSingle n (Single.ofInt (-(k : Int) - 1))
  | real {n : Numeral} {x : Float} (h : n.meaning = .real x) : ReadsSingle n (Single.ofDouble x)

def Value.IsSingle (reads : Numeral -> Float32 -> Prop) (x : Float32) (v : Value) : Prop :=
  exists n, v = .number n ∧ reads n x

theorem Accept.single_of_isSingle {x : Float32} {v : Value}
    (h : v.IsSingle Numeral.ReadsSingle x) : Accept.single v = .ok x := by
  rcases h with ⟨n, rfl, hreads⟩
  unfold Accept.single
  cases hreads with
  | natural h => simp only [h]
  | negative h => simp only [h]
  | real h => simp only [h]

/-!
## Members that list chosen fields
-/

/-- A choice of keys. -/
abbrev Choice := String -> Bool

def Choice.insert (S : Choice) (key : String) : Choice :=
  fun k => k == key || S k

abbrev Entry := String × (Value -> Prop)

/--
The members give every chosen key once, with the value it is to have, and no known key that is
not chosen.  They stand in any order, with any other members among them.
-/
structure Lists (entries : List Entry) (S : Choice) (ms : List (String × Value)) : Prop where
  once : forall e, e ∈ entries -> (ms.map Prod.fst).count e.1 = if S e.1 then 1 else 0
  value : forall e, e ∈ entries -> forall m, m ∈ ms -> m.1 = e.1 -> e.2 m.2

/-- The value is a record whose members list the chosen fields. -/
def Value.Lists (entries : List Entry) (S : Choice) (v : Value) : Prop :=
  exists ms, v = .record ms ∧ Json.Lists entries S ms

variable {ρ σ α : Type} {chosen : Choice -> ρ} {fields : List (RecordField ρ)}
variable {entries : List Entry}

/-- The field takes the value of its entry, and the record has one chosen field more. -/
structure RecordField.Takes (chosen : Choice -> ρ) (f : RecordField ρ) (e : Entry) : Prop where
  name_eq : f.name = e.1
  put_eq : forall v S, v.skip? = none -> e.2 v ->
    f.put v (chosen S) = .ok (chosen (S.insert f.name))

theorem RecordField.takes_of {name : String} {accept : Accept α} {set : α -> ρ -> ρ}
    {P : Value -> Prop} {x : α} (haccept : forall v, v.skip? = none -> P v -> accept v = .ok x)
    (hset : forall S : Choice, set x (chosen S) = chosen (S.insert name)) :
    Takes chosen (.of name accept set) (name, P) where
  name_eq := rfl
  put_eq := by
    intro v S hv hP
    change (accept v).map (set · (chosen S)) = .ok (chosen (S.insert name))
    rw [haccept v hv hP, ← hset]
    rfl

theorem RecordField.takes_natural {name : String} {set : Nat -> ρ -> ρ} {bits n : Nat}
    (hbits : bits <= 64) (hn : n < powerOfTwo bits)
    (hset : forall S : Choice, set n (chosen S) = chosen (S.insert name)) :
    Takes chosen (.of name (.natural bits) set) (name, (· = .ofNat n)) :=
  takes_of (fun _ _ hv => hv ▸ Accept.natural_ofNat hbits hn) hset

theorem RecordField.takes_int32 {name : String} {set : Int -> ρ -> ρ} {k : Int}
    (hk : Bounded.Fits k) (hset : forall S : Choice, set k (chosen S) = chosen (S.insert name)) :
    Takes chosen (.of name .int32 set) (name, (· = .ofInt k)) :=
  takes_of (fun _ _ hv => hv ▸ Accept.int32_ofInt hk) hset

theorem RecordField.takes_single {name : String} {set : Float32 -> ρ -> ρ} {x : Float32}
    (hset : forall S : Choice, set x (chosen S) = chosen (S.insert name)) :
    Takes chosen (.of name .single set) (name, Value.IsSingle Numeral.ReadsSingle x) :=
  takes_of (fun _ _ hv => Accept.single_of_isSingle hv) hset

theorem RecordField.takes_optional {name : String} {set : Option Int -> ρ -> ρ} {o : Option Int}
    (ho : forall k, o = some k -> Bounded.Fits k)
    (hset : forall S : Choice, set o (chosen S) = chosen (S.insert name)) :
    Takes chosen (.of name (.optional .int32) set) (name, (· = o.elim .null .ofInt)) := by
  refine takes_of (fun v _ hv => ?_) hset
  cases o with
  | none =>
      cases hv
      rfl
  | some k =>
      cases hv
      change (Accept.int32 (.ofInt k)).map some = .ok (some k)
      rw [Accept.int32_ofInt (ho k rfl)]
      rfl

structure Record.TakesAll (chosen : Choice -> ρ) (fields : List (RecordField ρ))
    (entries : List Entry) : Prop where
  nodup : (fields.map RecordField.name).Nodup
  takes : List.Forall₂ (RecordField.Takes chosen) fields entries
  congr : forall S T : Choice, (forall f, f ∈ fields -> S f.name = T f.name) -> chosen S = chosen T

namespace Record

variable {T : Choice}

theorem exists_takes {f : RecordField ρ}
    (h : List.Forall₂ (RecordField.Takes chosen) fields entries) (hf : f ∈ fields) :
    exists e, e ∈ entries ∧ f.Takes chosen e := by
  induction h with
  | nil => cases hf
  | cons hhead _ ih =>
      rcases List.mem_cons.mp hf with rfl | hf
      · exact ⟨_, List.mem_cons_self, hhead⟩
      · rcases ih hf with ⟨e, he, htakes⟩
        exact ⟨e, List.mem_cons_of_mem _ he, htakes⟩

/-- By induction on the members: the record so far is the default with the fields seen so far. -/
theorem ofMembers_chosen (h : TakesAll chosen fields entries) :
    forall (ms : List (String × Value)) (seen : List String) (S : Choice),
      (forall m, m ∈ ms -> m.2.skip? = none) ->
        (forall e, e ∈ entries -> forall m, m ∈ ms -> m.1 = e.1 -> e.2 m.2) ->
          (forall f, f ∈ fields -> seen.count f.name + (ms.map Prod.fst).count f.name <= 1) ->
            (forall f, f ∈ fields ->
              T f.name = (S f.name || (ms.map Prod.fst).contains f.name)) ->
              ofMembers fields .keepDefault (Members.ofList ms) seen (chosen S) = .ok (chosen T)
  | [], seen, S, _, _, _, hT => by
      have hsame : chosen S = chosen T := h.congr S T fun f hf => by simp [hT f hf]
      rw [← hsame]
      change ofMembers fields .keepDefault .closed seen (chosen S) = .ok (chosen S)
      unfold ofMembers
      rfl
  | (key, v) :: ms, seen, S, hskip, hvalue, honce, hT => by
      have hrest := fun seen S => ofMembers_chosen h ms seen S
        (fun m hm => hskip m (List.mem_cons_of_mem _ hm))
        (fun e he m hm => hvalue e he m (List.mem_cons_of_mem _ hm))
      change ofMembers fields .keepDefault (.more (some key) v (Members.ofList ms)) seen
        (chosen S) = .ok (chosen T)
      unfold ofMembers
      cases hfound : fields.find? (fun f => f.name == key) with
      | some f =>
          have hf := List.mem_of_find?_eq_some hfound
          have hname : f.name = key := by simpa using List.find?_some hfound
          subst hname
          rcases exists_takes h.takes hf with ⟨e, he, htakes⟩
          have hput := htakes.put_eq v S (hskip _ List.mem_cons_self)
            (hvalue e he _ List.mem_cons_self htakes.name_eq)
          have hunseen : seen.contains f.name = false := by
            have hcount := honce f hf
            rw [List.map_cons, List.count_cons_self] at hcount
            have hzero : seen.count f.name = 0 := by omega
            simpa using List.count_eq_zero.mp hzero
          simp only [hunseen, hput]
          refine hrest _ _ (fun g hg => ?_) (fun g hg => ?_)
          · have hcount := honce g hg
            rw [List.map_cons, List.count_cons] at hcount
            rw [List.count_cons, Nat.add_right_comm, Nat.add_assoc]
            exact hcount
          · rw [hT g hg, List.map_cons, List.contains_cons]
            simp only [Choice.insert, Bool.or_assoc, Bool.or_left_comm]
      | none =>
          have hne : forall g, g ∈ fields -> (g.name == key) = false := fun g hg =>
            Bool.eq_false_iff.mpr (List.find?_eq_none.mp hfound g hg)
          simp only [hskip _ List.mem_cons_self]
          refine hrest _ _ (fun g hg => ?_) (fun g hg => ?_)
          · have hcount := honce g hg
            rw [List.map_cons, List.count_cons] at hcount
            omega
          · rw [hT g hg, List.map_cons, List.contains_cons, hne g hg, Bool.false_or]

theorem skip?_of_mem {ms : List (String × Value)} (h : (Value.record ms).skip? = none) :
    forall m, m ∈ ms -> m.2.skip? = none := by
  induction ms with
  | nil =>
      intro m hm
      cases hm
  | cons m ms ih =>
      have hboth := Option.or_eq_none_iff.mp h
      intro n hn
      rcases List.mem_cons.mp hn with rfl | hn
      · exact hboth.1
      · exact ih hboth.2 n hn

/-- A record that lists chosen fields is read as the default with those fields replaced. -/
theorem accept_of_lists {v : Value} (h : TakesAll chosen fields entries)
    (hv : v.Lists entries T) (hskip : v.skip? = none) :
    accept fields .keepDefault (chosen fun _ => false) v = .ok (chosen T) := by
  rcases hv with ⟨ms, rfl, hms⟩
  have hcount : forall f, f ∈ fields ->
      (ms.map Prod.fst).count f.name = if T f.name then 1 else 0 := by
    intro f hf
    rcases exists_takes h.takes hf with ⟨e, he, htakes⟩
    rw [htakes.name_eq]
    exact hms.once e he
  refine ofMembers_chosen h ms [] _ (skip?_of_mem hskip) hms.value (fun f hf => ?_) fun f hf => ?_
  · rw [List.count_nil, hcount f hf]
    split <;> omega
  · rw [Bool.false_or, Bool.eq_iff_iff, List.contains_iff_mem, ← List.count_pos_iff,
      hcount f hf]
    cases T f.name <;> simp

theorem takes_lists {name : String} {inner : Choice -> σ} {set : σ -> ρ -> ρ}
    {innerFields : List (RecordField σ)} (h : TakesAll inner innerFields entries)
    (hset : forall S : Choice, set (inner T) (chosen S) = chosen (S.insert name)) :
    RecordField.Takes chosen
      (.of name (accept innerFields .keepDefault (inner fun _ => false)) set)
      (name, Value.Lists entries T) :=
  RecordField.takes_of (fun _ hskip hv => accept_of_lists h hv hskip) hset

end Record
end Json
end AirDefense
