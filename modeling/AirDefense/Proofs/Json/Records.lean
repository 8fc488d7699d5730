import AirDefense.Json.Record

/-!
# What is known of a record that was read

A record is read field by field, starting from a default.  So what the default has, and every
field keeps whatever is put into it, every record has that is read.
-/

namespace AirDefense
namespace Json

variable {ρ α : Type} {P : ρ -> Prop} {Q : α -> Prop}

namespace RecordField

def Keeps (f : RecordField ρ) (P : ρ -> Prop) : Prop :=
  forall v r r', P r -> f.put v r = .ok r' -> P r'

theorem keeps_of {accept : Accept α} {set : α -> ρ -> ρ} {name : String}
    (haccept : forall v x, accept v = .ok x -> Q x)
    (hset : forall x r, Q x -> P r -> P (set x r)) :
    (RecordField.of name accept set).Keeps P := by
  intro v r r' hr hput
  change (accept v).map (set · r) = .ok r' at hput
  cases hv : accept v with
  | error c =>
      rw [hv] at hput
      cases hput
  | ok x =>
      rw [hv] at hput
      cases hput
      exact hset x r (haccept v x hv) hr

theorem keeps_of_set {accept : Accept α} {set : α -> ρ -> ρ} {name : String}
    (hset : forall x r, P r -> P (set x r)) : (RecordField.of name accept set).Keeps P :=
  keeps_of (fun _ _ _ => trivial) fun x r (_ : True) hr => hset x r hr

end RecordField

namespace Record

theorem ofMembers_keeps {fields : List (RecordField ρ)} {absent : Absent}
    (hfields : forall f, f ∈ fields -> f.Keeps P) :
    forall (ms : Members) (seen : List String) (r r' : ρ), P r ->
      ofMembers fields absent ms seen r = .ok r' -> P r'
  | .closed, seen, r, r', hr, h => by
      unfold ofMembers at h
      split at h
      · cases h
      · cases h
        exact hr
  | .more none _ _, _, _, _, _, h => by
      unfold ofMembers at h
      cases h
  | .more (some key) v rest, seen, r, r', hr, h => by
      unfold ofMembers at h
      split at h
      · rename_i f hfound
        split at h
        · cases h
        · split at h
          · rename_i put hput
            have hkept := hfields f (List.mem_of_find?_eq_some hfound) v r put hr hput
            exact ofMembers_keeps hfields rest _ put r' hkept h
          · cases h
      · split at h
        · cases h
        · exact ofMembers_keeps hfields rest seen r r' hr h
  | .broken b, _, _, _, _, h => by
      unfold ofMembers at h
      cases h
  | .dangling, _, _, _, _, h => by
      unfold ofMembers at h
      cases h
  | .unnamed key, _, _, _, _, h => by
      unfold ofMembers at h
      cases h

theorem ofItems_keeps {absent : Absent} :
    forall (fields : List (RecordField ρ)) (xs : Items) (r r' : ρ),
      (forall f, f ∈ fields -> f.Keeps P) -> P r ->
        ofItems absent fields xs r = .ok r' -> P r'
  | [], xs, r, r', _, hr, h => by
      cases xs <;> cases h
      exact hr
  | f :: fields, .more v rest, r, r', hfields, hr, h => by
      unfold ofItems at h
      split at h
      · rename_i put hput
        have hkept := hfields f List.mem_cons_self v r put hr hput
        have hrest : forall f, f ∈ fields -> f.Keeps P :=
          fun f hf => hfields f (List.mem_cons_of_mem _ hf)
        exact ofItems_keeps fields rest put r' hrest hkept h
      · cases h
  | f :: fields, .closed, r, r', _, hr, h => by
      cases absent with
      | keepDefault =>
          cases h
          exact hr
      | refuse => cases h
  | f :: fields, .broken b, _, _, _, _, h => by cases h
  | f :: fields, .dangling, _, _, _, _, h => by cases h

theorem accept_keeps {fields : List (RecordField ρ)} {absent : Absent} {default : ρ}
    (hfields : forall f, f ∈ fields -> f.Keeps P) (hdefault : P default) (v : Value) (r : ρ)
    (h : accept fields absent default v = .ok r) : P r := by
  cases v with
  | object ms => exact ofMembers_keeps hfields ms [] default r hdefault h
  | array xs => exact ofItems_keeps fields xs default r hfields hdefault h
  | null => cases h
  | bool b => cases h
  | number n => cases h
  | string s => cases h
  | broken b => cases h

theorem find?_of_mem {fields : List (RecordField ρ)} {f : RecordField ρ}
    (hnames : (fields.map RecordField.name).Nodup) (hf : f ∈ fields) :
    fields.find? (fun g => g.name == f.name) = some f := by
  induction fields with
  | nil => cases hf
  | cons g fields ih =>
      rw [List.map_cons, List.nodup_cons] at hnames
      rcases List.mem_cons.mp hf with rfl | hf
      · exact List.find?_cons_of_pos (beq_self_eq_true f.name)
      · have hne : g.name ≠ f.name := fun h => hnames.1 (h ▸ List.mem_map_of_mem hf)
        rw [List.find?_cons_of_neg (by simpa using hne)]
        exact ih hnames.2 hf

/--
A record whose fields are all given in their order is read as the array of the values is.  By
induction along the fields that are still to come.
-/
theorem ofMembers_zip {fields : List (RecordField ρ)} {absent : Absent}
    (hnames : (fields.map RecordField.name).Nodup) :
    forall (given rest : List (RecordField ρ)) (vs : List Value) (seen : List String) (r : ρ),
      given ++ rest = fields -> vs.length = rest.length ->
        (forall k, k ∈ seen ↔ k ∈ given.map RecordField.name) ->
          ofMembers fields absent (Members.ofList ((rest.map RecordField.name).zip vs)) seen r =
            ofItems absent rest (Items.ofList vs) r
  | given, [], [], seen, r, hsplit, _, hseen => by
      have hall : (fields.all fun f => seen.contains f.name) = true := by
        rw [List.all_eq_true]
        intro f hf
        rw [← hsplit, List.append_nil] at hf
        exact List.contains_iff_mem.mpr ((hseen f.name).mpr (List.mem_map_of_mem hf))
      change ofMembers fields absent .closed seen r = .ok r
      unfold ofMembers
      rw [hall]
      simp
  | given, f :: rest, v :: vs, seen, r, hsplit, hlength, hseen => by
      have hfound := find?_of_mem hnames (f := f) (by rw [← hsplit]; simp)
      have hnew : f.name ∉ given.map RecordField.name := by
        rw [← hsplit, List.map_append, List.map_cons] at hnames
        exact fun hmem => (List.nodup_append.mp hnames).2.2 _ hmem _ List.mem_cons_self rfl
      have hunseen : seen.contains f.name = false := by
        rw [Bool.eq_false_iff]
        exact fun hmem => hnew ((hseen _).mp (List.contains_iff_mem.mp hmem))
      change ofMembers fields absent
        (.more (some f.name) v (Members.ofList ((rest.map RecordField.name).zip vs))) seen r =
          ofItems absent (f :: rest) (.more v (Items.ofList vs)) r
      unfold ofMembers ofItems
      simp only [hfound, hunseen]
      cases f.put v r with
      | error c => rfl
      | ok r' =>
          refine ofMembers_zip hnames (given ++ [f]) rest vs (f.name :: seen) r' ?_ ?_ ?_
          · rw [← hsplit, List.append_assoc]
            rfl
          · exact Nat.succ.inj hlength
          · intro k
            rw [List.mem_cons, hseen, List.map_append, List.mem_append, List.map_singleton,
              List.mem_singleton, or_comm]

theorem accept_zip {absent : Absent} {default : ρ} (fields : List (RecordField ρ))
    (vs : List Value) (hnames : (fields.map RecordField.name).Nodup)
    (hlength : vs.length = fields.length) :
    accept fields absent default (.record ((fields.map RecordField.name).zip vs)) =
      ofItems absent fields (Items.ofList vs) default := by
  refine ofMembers_zip hnames [] fields vs [] default rfl hlength fun k => ?_
  simp

end Record

/-!
## Scalars
-/

namespace Accept

variable {v : Value} {k : Int}

theorem integer_bounds {least greatest : Int} (h : integer least greatest v = .ok k) :
    least <= k ∧ k <= greatest := by
  cases v with
  | number n =>
      unfold integer at h
      simp only at h
      split at h
      case h_1 | h_2 =>
        split at h
        · rename_i hbounds
          cases h
          simpa using hbounds
        · cases h
      case h_3 | h_4 => cases h
  | null => cases h
  | bool b => cases h
  | string s => cases h
  | array items => cases h
  | object members => cases h
  | broken b => cases h

theorem fits_of_int32 (v : Value) (k : Int) (h : int32 v = .ok k) : Bounded.Fits k :=
  integer_bounds h

theorem of_optional {accept : Accept α} (haccept : forall v x, accept v = .ok x -> Q x) (v : Value)
    (o : Option α) (h : optional accept v = .ok o) : forall x, o = some x -> Q x := by
  intro x hx
  unfold optional at h
  split at h
  · cases h
    cases hx
  · cases hv : accept v with
    | error c =>
        rw [hv] at h
        cases h
    | ok y =>
        rw [hv] at h
        cases h
        cases hx
        exact haccept v _ hv

end Accept
end Json
end AirDefense
