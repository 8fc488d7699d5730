import AirDefense.Proofs.Faults
import AirDefense.Spawn.Draw
import Mathlib.Data.Nat.Periodic

/-!
# What a draw can end in

A draw ends in a result, or in a fault that breaks no contract.  What is drawn as an
attacker is one.  A draw that reads words until one is accepted does not end if the stream
never has one.
-/

namespace AirDefense

theorem FieldSettings.isHarmless_leastInterior? (f : FieldSettings) :
    IsHarmless f.leastInterior? :=
  (isHarmless_add? _ _).bind fun _ => isHarmless_add? _ _

theorem FieldSettings.isHarmless_greatestInterior? (f : FieldSettings) :
    IsHarmless f.greatestInterior? :=
  (isHarmless_sub? _ _).bind fun _ => (isHarmless_sub? _ _).bind fun _ => isHarmless_sub? _ _

/-!
## Words in the distance
-/

namespace KeyStream

theorem counter_add {blocks : Nat} (h : blocks = 18446744073709551616) (number : Nat) :
    counter (number + blocks) = counter number := by
  have hlow : UInt32.ofNat (number + blocks) = UInt32.ofNat number := by
    apply UInt32.toNat_inj.mp
    rw [UInt32.toNat_ofNat', UInt32.toNat_ofNat']
    omega
  have hhigh :
      UInt32.ofNat ((number + blocks) / wordCount) = UInt32.ofNat (number / wordCount) := by
    apply UInt32.toNat_inj.mp
    rw [UInt32.toNat_ofNat', UInt32.toNat_ofNat']
    unfold wordCount
    omega
  simp only [counter, hlow, hhigh]

theorem word_add {words : Nat} (h : words = streamPeriod) (key : StreamKey) (place : Nat) :
    word key (place + words) = word key place := by
  unfold streamPeriod at h
  have hblock : (place + words) / 16 = place / 16 + words / 16 := by omega
  have hword : (place + words) % 16 = place % 16 := by omega
  have hcounter := counter_add (show words / 16 = 18446744073709551616 by omega) (place / 16)
  simp only [word, block, initialBlock, hblock, hword, hcounter]

theorem periodic_word (key : StreamKey) : Function.Periodic (word key) streamPeriod :=
  word_add rfl key

/-- No word is accepted from here on. -/
def Refuses (s : KeyStream) (accept : UInt32 -> Option α) : Prop :=
  forall n, accept (word s.key (s.place + n)) = none

theorem refuses_of_period {s : KeyStream} {accept : UInt32 -> Option α}
    (h : forall n, n < streamPeriod -> accept (word s.key (s.place + n)) = none) :
    s.Refuses accept := by
  intro n
  have hperiodic := (periodic_word s.key).const_add s.place
  rw [← hperiodic.map_mod_nat n]
  refine h _ (Nat.mod_lt n ?_)
  unfold streamPeriod
  omega

end KeyStream

namespace Draw

/-- All results of the draw are such, and all its faults are harmless. -/
def Ensures (d : Draw α) (result : α -> Prop) : Prop :=
  forall s, IsHarmless (d s).1 ∧ forall x, (d s).1 = .ok x -> result x

variable {P : α -> Prop} {Q : β -> Prop}

theorem ensures_pure {x : α} (h : P x) : (pure x : Draw α).Ensures P := by
  intro s
  refine ⟨isHarmless_ok x, fun y hy => ?_⟩
  injection hy with hy
  exact hy ▸ h

theorem ensures_fault {f : Fault} (h : f.breaksContract = false) :
    (fault f : Draw α).Ensures P := by
  intro s
  refine ⟨fun f' hf' => ?_, fun x hx => by cases hx⟩
  injection hf' with hf'
  exact hf' ▸ h

theorem ensures_lift {r : Except Fault α} (h : IsHarmless r) :
    (lift r).Ensures fun _ => True :=
  fun _ => ⟨h, fun _ _ => trivial⟩

theorem Ensures.bind {d : Draw α} {next : α -> Draw β} (hd : d.Ensures P)
    (hnext : forall x, P x -> (next x).Ensures Q) : (d >>= next).Ensures Q := by
  intro s
  rcases hd s with ⟨hharmless, hresult⟩
  show IsHarmless (andThen d next s).1 ∧ forall y, (andThen d next s).1 = .ok y -> Q y
  unfold andThen
  rcases hds : d s with ⟨outcome, rest⟩
  rw [hds] at hharmless hresult
  cases outcome with
  | ok x => exact hnext x (hresult x rfl) rest
  | error f =>
      refine ⟨fun f' hf' => ?_, fun y hy => by cases hy⟩
      injection hf' with hf'
      exact hharmless f' (by rw [hf'])

theorem ensures_word : word.Ensures fun _ => True :=
  fun _ => ⟨isHarmless_ok _, fun _ _ => trivial⟩

theorem ensures_within (accept : UInt32 -> Option α) (n : Nat) :
    (within accept n).Ensures fun _ => True := by
  induction n with
  | zero => exact ensures_fault rfl
  | succ n ih =>
      apply ensures_word.bind
      intro w _
      split
      · exact ensures_pure trivial
      · exact ih

theorem ensures_integer (lo hi : Int) : (integer lo hi).Ensures fun _ => True := by
  unfold integer
  split
  · exact ensures_fault rfl
  · simp only
    split
    · exact ensures_word.bind fun _ _ => ensures_pure trivial
    · exact (ensures_within _ _).bind fun _ _ => ensures_pure trivial

theorem ensures_single (lo hi : Float32) : (single lo hi).Ensures fun _ => True := by
  unfold single
  split
  · exact ensures_fault rfl
  · split
    · exact ensures_fault rfl
    · split
      · exact ensures_fault rfl
      · split
        · exact ensures_fault rfl
        · exact ensures_within _ _

theorem ensures_attacker (f : FieldSettings) (a : AttackerSettings) :
    (attacker f a).Ensures fun m => m.side = .attacker := by
  refine (ensures_lift f.isHarmless_leastInterior?).bind fun least _ => ?_
  refine (ensures_lift f.isHarmless_greatestInterior?).bind fun greatest _ => ?_
  refine (ensures_integer least greatest).bind fun x _ => ?_
  have hrest : forall speed, (do
      let angle <- single a.maxAngle (Single.ofInt 180 - a.maxAngle)
      pure (Missile.launchedAt .attacker ⟨Single.ofInt x, Single.ofInt least⟩ speed angle) :
        Draw Missile).Ensures fun m => m.side = .attacker :=
    fun speed => (ensures_single _ _).bind fun angle _ => ensures_pure rfl
  simp only
  split
  · exact (ensures_single _ _).bind fun speed _ => hrest speed
  · exact (ensures_pure trivial : (pure (Single.ofInt 1) : Draw Float32).Ensures
      fun _ => True).bind fun speed _ => hrest speed

/-!
## Draws one after the other
-/

theorem fst_bind {d : Draw α} {next : α -> Draw β} {s : KeyStream} {x : α}
    (h : (d s).1 = .ok x) : ((d >>= next) s).1 = (next x (d s).2).1 := by
  show (andThen d next s).1 = _
  unfold andThen
  rcases hd : d s with ⟨outcome, rest⟩
  rw [hd] at h
  subst h
  rfl

theorem fst_bind_error {d : Draw α} {next : α -> Draw β} {s : KeyStream} {fault : Fault}
    (h : (d s).1 = .error fault) : ((d >>= next) s).1 = .error fault := by
  show (andThen d next s).1 = _
  unfold andThen
  rcases hd : d s with ⟨outcome, rest⟩
  rw [hd] at h
  subst h
  rfl

def fault? : Except Fault α -> Option Fault
  | .ok _ => none
  | .error f => some f

/-- Wherever words are read until one is accepted, one is. -/
def Ends (d : Draw α) (s : KeyStream) : Prop :=
  fault? (d s).1 ≠ some .unendingDraw

instance (d : Draw α) (s : KeyStream) : Decidable (d.Ends s) :=
  inferInstanceAs (Decidable (_ ≠ _))

variable {d : Draw α} {next : α -> Draw β} {s : KeyStream}

theorem Ends.ne_unending (h : d.Ends s) : (d s).1 ≠ .error .unendingDraw := by
  intro heq
  rw [Ends, heq] at h
  exact h rfl

theorem Ends.first (h : (d >>= next).Ends s) : d.Ends s := by
  intro hfault
  cases hd : (d s).1 with
  | ok x =>
      rw [hd] at hfault
      cases hfault
  | error f =>
      rw [hd] at hfault
      injection hfault with hf
      subst hf
      exact h.ne_unending (fst_bind_error hd)

theorem Ends.rest (h : (d >>= next).Ends s) {x : α} (hd : (d s).1 = .ok x) :
    (next x).Ends (d s).2 := by
  rwa [Ends, fst_bind hd] at h

/-!
## Words until one is accepted
-/

variable {accept : UInt32 -> Option α}

theorem within_spec (n : Nat) (s : KeyStream) :
    ((within accept n s).1 = .error .unendingDraw ∧
        forall k, k < n -> accept (KeyStream.word s.key (s.place + k)) = none) ∨
      exists w x, accept w = some x ∧ (within accept n s).1 = .ok x := by
  induction n generalizing s with
  | zero => exact .inl ⟨rfl, fun k hk => absurd hk (Nat.not_lt_zero k)⟩
  | succ n ih =>
      have hword : (word s).1 = .ok (KeyStream.word s.key s.place) := rfl
      unfold within
      rw [fst_bind hword]
      cases hw : accept (KeyStream.word s.key s.place) with
      | some x => exact .inr ⟨_, x, hw, rfl⟩
      | none =>
          rcases ih s.next.2 with ⟨hunending, hrefused⟩ | haccepted
          · refine .inl ⟨hunending, fun k hk => ?_⟩
            cases k with
            | zero => exact hw
            | succ k =>
                have hlater := hrefused k (Nat.lt_of_succ_lt_succ hk)
                rwa [show s.next.2.place + k = s.place + (k + 1) by
                  show s.place + 1 + k = _
                  omega] at hlater
          · exact .inr haccepted

/-- A word that is accepted is found, if the stream has any. -/
theorem until?_spec (accept : UInt32 -> Option α) (s : KeyStream) :
    ((until? accept s).1 = .error .unendingDraw ∧ s.Refuses accept) ∨
      exists w x, accept w = some x ∧ (until? accept s).1 = .ok x := by
  rcases within_spec streamPeriod s with ⟨hunending, hrefused⟩ | haccepted
  · exact .inl ⟨hunending, KeyStream.refuses_of_period hrefused⟩
  · exact .inr haccepted

theorem Ends.exists_until? (h : (until? accept).Ends s) :
    exists w x, accept w = some x ∧ (until? accept s).1 = .ok x :=
  (until?_spec accept s).resolve_left fun hrefused => h.ne_unending hrefused.1

/-!
## Integers in a range
-/

theorem lt_of_pick {count w : UInt32} {n : Nat} (hcount : 0 < count.toNat)
    (h : pick count w = some n) : n < count.toNat := by
  unfold pick at h
  simp only at h
  split at h
  · injection h with h
    rw [← h]
    exact Nat.div_lt_of_lt_mul (Nat.mul_lt_mul_of_pos_right w.toNat_lt hcount)
  · cases h

variable {lo hi : Int}

/-- A draw from a range other than that of all 32-bit integers ends in one of the range. -/
theorem exists_integer (hle : lo <= hi) (hrange : hi - lo + 1 < wordCount)
    (hends : (integer lo hi).Ends s) :
    exists x, (integer lo hi s).1 = .ok x ∧ lo <= x ∧ x <= hi := by
  have hcount : (UInt32.ofNat (hi - lo + 1).toNat).toNat = (hi - lo + 1).toNat := by
    apply UInt32.toNat_ofNat_of_lt'
    unfold wordCount at hrange
    show _ < 4294967296
    omega
  have hpos : 0 < (UInt32.ofNat (hi - lo + 1).toNat).toNat := by omega
  have hne : UInt32.ofNat (hi - lo + 1).toNat ≠ 0 := by
    intro heq
    rw [heq] at hpos
    exact Nat.lt_irrefl 0 hpos
  have hdraw : integer lo hi = (do
      let n <- until? (pick (UInt32.ofNat (hi - lo + 1).toNat))
      pure (lo + n)) := by
    unfold integer
    rw [if_neg (Int.not_lt.mpr hle)]
    simp only [if_neg hne]
  rw [hdraw] at hends ⊢
  rcases hends.first.exists_until? with ⟨w, n, hw, hn⟩
  have hlt := lt_of_pick hpos hw
  rw [fst_bind hn]
  exact ⟨lo + n, rfl, by omega, by omega⟩

/-!
## Single-precision numbers in a range
-/

variable {low high : Float32}

theorem exists_single (hlt : low < high) (hlow : low.isFinite = true)
    (hhigh : high.isFinite = true) (hspan : (high - low).isFinite = true)
    (hends : (single low high).Ends s) : exists x, (single low high s).1 = .ok x := by
  unfold single at hends ⊢
  rw [if_neg (by simp [hlt]), if_neg (by simp [hlow]), if_neg (by simp [hhigh]),
    if_neg (by simp [hspan])] at hends ⊢
  rcases hends.exists_until? with ⟨_, x, _, hx⟩
  exact ⟨x, hx⟩

theorem single_to_infinity (hlt : low < high) (hlow : low.isFinite = true)
    (hhigh : high.isFinite = false) (s : KeyStream) :
    (single low high s).1 = .error .drawToNonFinite := by
  unfold single
  rw [if_neg (by simp [hlt]), if_neg (by simp [hlow]), if_pos (by simp [hhigh])]
  rfl

end Draw
end AirDefense
