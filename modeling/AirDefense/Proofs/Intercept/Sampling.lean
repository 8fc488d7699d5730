import AirDefense.Intercept.Launch
import AirDefense.Settings.Validation
import Mathlib.Data.List.Chain
import Mathlib.Data.List.Infix

/-!
# What a round of sampling keeps

Sampling keeps the first sample that it reads, and then each one that has a speed from the last
one kept.  It ends with the first reading at which the target is gone, the speed settles or it is
told to stop, and with the last reading that it may make at the latest.  It asks to wait just once
after each reading that gives a sample and does not settle.
-/

namespace AirDefense

open PlaneArithmetic

namespace Sampling

section

variable {α : Type} [PlaneArithmetic α] {limits : SampleLimits α}
  {read : Nat -> Option (Sample α)} {wait : Nat -> Bool} {log : SampleLog α} {k n : Nat}

/-!
## Readings

What is kept and when sampling ends, said of the readings alone: no speed is remembered here.
-/

def keep (samples : List (Sample α)) (s : Sample α) : List (Sample α) :=
  match samples.getLast? with
  | none => [s]
  | some last => if (last.speedTo? s).isSome then samples ++ [s] else samples

/-- What is kept of the first `k` readings. -/
def keptOf (read : Nat -> Option (Sample α)) : Nat -> List (Sample α)
  | 0 => []
  | k + 1 =>
      match read k with
      | none => keptOf read k
      | some s => keep (keptOf read k) s

def isSettled (limits : SampleLimits α) (samples : List (Sample α)) : Bool :=
  match samples.reverse with
  | r :: q :: p :: _ =>
      match p.speedTo? q, q.speedTo? r with
      | some before, some speed =>
          upTo (abs (speed - before)) limits.tolerance && limits.minSamples <= samples.length
      | _, _ => false
  | _ => false

def settles (limits : SampleLimits α) (read : Nat -> Option (Sample α)) (k : Nat) : Bool :=
  (keptOf read k).length < (keptOf read (k + 1)).length && isSettled limits (keptOf read (k + 1))

def askedAt (limits : SampleLimits α) (read : Nat -> Option (Sample α)) (k : Nat) : List Inquiry :=
  if (read k).isSome && !settles limits read k then [.reading, .period] else [.reading]

/-- The `k`-th reading is the last one, even if more might be made. -/
inductive Halts (limits : SampleLimits α) (read : Nat -> Option (Sample α)) (wait : Nat -> Bool)
    (k : Nat) : Prop where
  | gone (h : read k = none)
  | settled (h : settles limits read k = true)
  | stopped (h : wait k = false)

theorem keptOf_of_none (h : read k = none) : keptOf read (k + 1) = keptOf read k := by
  rw [keptOf, h]

theorem keptOf_of_some {s : Sample α} (h : read k = some s) :
    keptOf read (k + 1) = keep (keptOf read k) s := by
  rw [keptOf, h]

theorem keep_cases (samples : List (Sample α)) (s : Sample α) :
    keep samples s = samples ∨
      (keep samples s = samples ++ [s] ∧
        forall last, samples.getLast? = some last -> (last.speedTo? s).isSome = true) := by
  unfold keep
  cases hlast : samples.getLast? with
  | none =>
      rw [List.getLast?_eq_none_iff.mp hlast]
      exact .inr ⟨rfl, nofun⟩
  | some last =>
      by_cases hspeed : (last.speedTo? s).isSome = true
      · apply Or.inr
        constructor
        · exact if_pos hspeed
        · intro _ heq
          cases heq
          exact hspeed
      · exact .inl (if_neg hspeed)

theorem keptOf_succ_cases (read : Nat -> Option (Sample α)) (k : Nat) :
    keptOf read (k + 1) = keptOf read k ∨
      exists s, keptOf read (k + 1) = keptOf read k ++ [s] ∧
        forall last, (keptOf read k).getLast? = some last -> (last.speedTo? s).isSome = true := by
  cases hread : read k with
  | none => exact .inl (keptOf_of_none hread)
  | some s =>
      rw [keptOf_of_some hread]
      apply (keep_cases (keptOf read k) s).imp_right
      intro hkept
      exists s

theorem isChain_keptOf (read : Nat -> Option (Sample α)) (k : Nat) :
    (keptOf read k).IsChain fun p q => (p.speedTo? q).isSome = true := by
  induction k with
  | zero => exact .nil
  | succ k ih =>
      rcases keptOf_succ_cases read k with hkept | ⟨s, hkept, hspeed⟩
      · rw [hkept]
        exact ih
      · rw [hkept, List.isChain_append]
        constructor
        · exact ih
        · constructor
          · exact .singleton s
          · intro last hlast q hq
            cases hq
            exact hspeed last hlast

theorem unsettled_keptOf (h : forall j, j < k -> settles limits read j = false)
    {earlier : List (Sample α)} (hearlier : earlier <+: keptOf read k) :
    isSettled limits earlier = false := by
  induction k with
  | zero =>
      rw [List.prefix_nil.mp hearlier]
      rfl
  | succ k ih =>
      have hbefore (hearlier : earlier <+: keptOf read k) : isSettled limits earlier = false :=
        ih (fun j hj => h j (Nat.lt_succ_of_lt hj)) hearlier
      rcases keptOf_succ_cases read k with hkept | ⟨s, hkept, _⟩
      · rw [hkept] at hearlier
        exact hbefore hearlier
      · rw [hkept, List.prefix_concat_iff] at hearlier
        rcases hearlier with heq | hearlier
        · have hunsettled := h k (Nat.lt_succ_self k)
          rw [settles, hkept, List.length_append] at hunsettled
          rw [heq]
          simpa using hunsettled
        · exact hbefore hearlier

/-!
## One reading

A log remembers the last speed, and looks at no more than that speed and the last sample.
-/

def lastSpeed? : List (Sample α) -> Option α
  | q :: p :: _ => p.speedTo? q
  | _ => none

def IsCurrent (log : SampleLog α) : Prop :=
  log.speed = lastSpeed? log.kept

theorem keep_of_last (last s : Sample α) (earlier : List (Sample α)) :
    keep (last :: earlier).reverse s =
      if (last.speedTo? s).isSome then (s :: last :: earlier).reverse
      else (last :: earlier).reverse := by
  simp [keep]

theorem isSettled_of_last {last s : Sample α} {earlier : List (Sample α)} {speed : α}
    (hspeed : last.speedTo? s = some speed) :
    isSettled limits (s :: last :: earlier).reverse =
      (((lastSpeed? (last :: earlier)).any fun before =>
          upTo (abs (speed - before)) limits.tolerance) &&
        limits.minSamples <= (s :: last :: earlier).length) := by
  cases earlier with
  | nil => simp [isSettled, lastSpeed?]
  | cons before rest =>
      cases hbefore : before.speedTo? last <;>
        simp [isSettled, lastSpeed?, hbefore, hspeed]

structure Takes (limits : SampleLimits α) (log : SampleLog α) (s : Sample α)
    (outcome : Bool × SampleLog α) : Prop where
  samples_eq : outcome.2.samples = keep log.samples s
  settled_iff : outcome.1 = true <->
    log.samples.length < outcome.2.samples.length ∧ isSettled limits outcome.2.samples = true
  isCurrent : outcome.1 = false -> IsCurrent outcome.2

theorem offer_takes (limits : SampleLimits α) (s : Sample α) (h : IsCurrent log) :
    Takes limits log s (log.offer limits s) := by
  rcases log with ⟨kept, speed⟩
  cases kept with
  | nil =>
      constructor
      · rfl
      · simp [SampleLog.offer, SampleLog.samples, isSettled]
      · intro _
        exact h
  | cons last earlier =>
      cases hspeed : last.speedTo? s with
      | none =>
          have hoffer : SampleLog.offer limits ⟨last :: earlier, speed⟩ s =
              (false, ⟨last :: earlier, speed⟩) := by
            simp only [SampleLog.offer, hspeed]
          have hkeep : keep (last :: earlier).reverse s = (last :: earlier).reverse := by
            rw [keep_of_last, hspeed]
            rfl
          rw [hoffer]
          constructor
          · exact hkeep.symm
          · simp
          · intro _
            exact h
      | some v =>
          have hoffer : SampleLog.offer limits ⟨last :: earlier, speed⟩ s =
              if isSettled limits (s :: last :: earlier).reverse then
                (true, ⟨s :: last :: earlier, speed⟩)
              else (false, ⟨s :: last :: earlier, some v⟩) := by
            have hcurrent : speed = lastSpeed? (last :: earlier) := h
            rw [isSettled_of_last hspeed, ← hcurrent]
            simp only [SampleLog.offer, hspeed]
            rfl
          have hkeep : keep (last :: earlier).reverse s = (s :: last :: earlier).reverse := by
            rw [keep_of_last, hspeed]
            rfl
          have hlonger : (last :: earlier).reverse.length <
              (s :: last :: earlier).reverse.length := by
            simp
          rw [hoffer]
          cases hsettled : isSettled limits (s :: last :: earlier).reverse with
          | true =>
              constructor
              · exact hkeep.symm
              · exact ⟨fun _ => ⟨hlonger, hsettled⟩, fun _ => rfl⟩
              · exact nofun
          | false =>
              constructor
              · exact hkeep.symm
              · exact ⟨nofun, fun h => hsettled.symm.trans h.2⟩
              · intro _
                exact hspeed.symm

/-- A log holds what is kept of the first `k` readings. -/
structure Holds (read : Nat -> Option (Sample α)) (k : Nat) (log : SampleLog α) : Prop where
  samples_eq : log.samples = keptOf read k
  isCurrent : IsCurrent log

theorem Holds.offer (limits : SampleLimits α) (h : Holds read k log) {s : Sample α}
    (hread : read k = some s) :
    (log.offer limits s).2.samples = keptOf read (k + 1) ∧
      (log.offer limits s).1 = settles limits read k ∧
      (settles limits read k = false -> Holds read (k + 1) (log.offer limits s).2) := by
  have htakes := offer_takes limits s h.isCurrent
  have hkept : (log.offer limits s).2.samples = keptOf read (k + 1) := by
    rw [htakes.samples_eq, h.samples_eq, keptOf_of_some hread]
  have hsettles : (log.offer limits s).1 = settles limits read k := by
    have hiff := htakes.settled_iff
    rw [hkept, h.samples_eq] at hiff
    rw [Bool.eq_iff_iff, hiff, settles, Bool.and_eq_true, decide_eq_true_iff]
  constructor
  · exact hkept
  · constructor
    · exact hsettles
    · intro hgoes
      exact ⟨hkept, htakes.isCurrent (hsettles.trans hgoes)⟩

/-!
## All readings
-/

theorem collectFrom_gone (limits : SampleLimits α) (wait : Nat -> Bool) (remaining : Nat)
    (log : SampleLog α) (hread : read k = none) :
    collectFrom limits read wait (remaining + 1) k log = ⟨log.samples, [.reading]⟩ := by
  simp only [collectFrom, hread]

theorem collectFrom_settled {s : Sample α} {next : SampleLog α} (wait : Nat -> Bool)
    (remaining : Nat) (hread : read k = some s) (hoffer : log.offer limits s = (true, next)) :
    collectFrom limits read wait (remaining + 1) k log = ⟨next.samples, [.reading]⟩ := by
  simp only [collectFrom, hread, hoffer]

theorem collectFrom_unsettled {s : Sample α} {next : SampleLog α} (wait : Nat -> Bool)
    (remaining : Nat) (hread : read k = some s) (hoffer : log.offer limits s = (false, next)) :
    collectFrom limits read wait (remaining + 1) k log =
      if wait k then (collectFrom limits read wait remaining (k + 1) next).after [.reading, .period]
      else ⟨next.samples, [.reading, .period]⟩ := by
  simp only [collectFrom, hread, hoffer]

structure GoesOn (limits : SampleLimits α) (read : Nat -> Option (Sample α)) (wait : Nat -> Bool)
    (remaining k n : Nat) (s : Sampling α) : Prop where
  le_remaining : n <= remaining
  samples_eq : s.samples = keptOf read (k + n)
  inquiries_eq : s.inquiries = (List.range' k n).flatMap (askedAt limits read)
  goesOn : forall j, j + 1 < n -> ¬ Halts limits read wait (k + j)
  halts : n < remaining -> exists j, n = j + 1 ∧ Halts limits read wait (k + j)

theorem GoesOn.of_halts {remaining : Nat} {s : Sampling α}
    (hsamples : s.samples = keptOf read (k + 1)) (hasked : s.inquiries = askedAt limits read k)
    (hhalts : Halts limits read wait k) :
    GoesOn limits read wait (remaining + 1) k 1 s where
  le_remaining := by omega
  samples_eq := hsamples
  inquiries_eq := by rw [hasked]; simp
  goesOn := fun j hj => absurd hj (by omega)
  halts := fun _ => ⟨0, rfl, hhalts⟩

theorem GoesOn.succ {remaining : Nat} {s : Sampling α}
    (h : GoesOn limits read wait remaining (k + 1) n s) (hgoes : ¬ Halts limits read wait k)
    (hasked : askedAt limits read k = [.reading, .period]) :
    GoesOn limits read wait (remaining + 1) k (n + 1) (s.after [.reading, .period]) where
  le_remaining := Nat.succ_le_succ h.le_remaining
  samples_eq := by
    show s.samples = _
    rw [h.samples_eq, Nat.add_right_comm, Nat.add_assoc]
  inquiries_eq := by
    rw [List.range'_succ, List.flatMap_cons, hasked, ← h.inquiries_eq]
    rfl
  goesOn := by
    intro j hj
    cases j with
    | zero => exact hgoes
    | succ j =>
        rw [← Nat.add_assoc, Nat.add_right_comm]
        exact h.goesOn j (by omega)
  halts := by
    intro hn
    rcases h.halts (by omega) with ⟨j, hj, hhalts⟩
    exists j + 1
    constructor
    · rw [hj]
    · rw [← Nat.add_assoc, Nat.add_right_comm]
      exact hhalts

theorem exists_goesOn (limits : SampleLimits α) (wait : Nat -> Bool) (remaining : Nat)
    (h : Holds read k log) :
    exists n, GoesOn limits read wait remaining k n
      (collectFrom limits read wait remaining k log) := by
  induction remaining generalizing k log with
  | zero =>
      exists 0
      exact
        { le_remaining := Nat.le_refl 0
          samples_eq := h.samples_eq
          inquiries_eq := rfl
          goesOn := fun j hj => absurd hj (by omega)
          halts := fun hn => absurd hn (by omega) }
  | succ remaining ih =>
      cases hread : read k with
      | none =>
          rw [collectFrom_gone limits wait remaining log hread]
          exists 1
          apply GoesOn.of_halts
          · exact h.samples_eq.trans (keptOf_of_none hread).symm
          · simp [askedAt, hread]
          · exact .gone hread
      | some s =>
          have hoffer := h.offer limits hread
          rcases hlog : log.offer limits s with ⟨settled, next⟩
          rw [hlog] at hoffer
          rcases hoffer with ⟨hkept, hsettles, hnext⟩
          cases settled with
          | true =>
              rw [collectFrom_settled wait remaining hread hlog]
              exists 1
              apply GoesOn.of_halts
              · exact hkept
              · simp [askedAt, ← hsettles]
              · exact .settled hsettles.symm
          | false =>
              have hasked : askedAt limits read k = [.reading, .period] := by
                simp [askedAt, hread, ← hsettles]
              rw [collectFrom_unsettled wait remaining hread hlog]
              cases hwait : wait k with
              | false =>
                  exists 1
                  exact .of_halts hkept hasked.symm (.stopped hwait)
              | true =>
                  rcases ih (hnext hsettles.symm) with ⟨n, hn⟩
                  exists n + 1
                  apply hn.succ _ hasked
                  intro hhalts
                  cases hhalts with
                  | gone hgone => simp [hgone] at hread
                  | settled hsettled => simp [hsettled] at hsettles
                  | stopped hstopped => simp [hstopped] at hwait

/-- A finished round of sampling, told by its readings. -/
structure Follows (limits : SampleLimits α) (read : Nat -> Option (Sample α)) (wait : Nat -> Bool)
    (s : Sampling α) : Prop where
  reads_le : s.reads <= limits.maxSamples
  samples_eq : s.samples = keptOf read s.reads
  inquiries_eq : s.inquiries = (List.range s.reads).flatMap (askedAt limits read)
  goesOn : forall k, k + 1 < s.reads -> ¬ Halts limits read wait k
  halts : s.reads < limits.maxSamples -> exists k, s.reads = k + 1 ∧ Halts limits read wait k
  isChain : s.samples.IsChain fun p q => (p.speedTo? q).isSome = true
  unsettled : forall earlier, earlier <+: s.samples -> earlier ≠ s.samples ->
    isSettled limits earlier = false

theorem count_reading_askedAt (limits : SampleLimits α) (read : Nat -> Option (Sample α))
    (k n : Nat) : ((List.range' k n).flatMap (askedAt limits read)).count .reading = n := by
  induction n generalizing k with
  | zero => rfl
  | succ n ih =>
      have hone : (askedAt limits read k).count .reading = 1 := by
        unfold askedAt
        split <;> rfl
      rw [List.range'_succ, List.flatMap_cons, List.count_append, hone, ih, Nat.add_comm]

theorem GoesOn.reads_eq {remaining : Nat} {s : Sampling α}
    (h : GoesOn limits read wait remaining k n s) : s.reads = n := by
  rw [reads, h.inquiries_eq, count_reading_askedAt]

theorem unsettled_of_goesOn (hgoes : forall j, j + 1 < n -> ¬ Halts limits read wait j)
    {earlier : List (Sample α)} (hearlier : earlier <+: keptOf read n)
    (hne : earlier ≠ keptOf read n) : isSettled limits earlier = false := by
  cases n with
  | zero => exact absurd (List.prefix_nil.mp hearlier) hne
  | succ n =>
      have hbefore : earlier <+: keptOf read n := by
        rcases keptOf_succ_cases read n with hkept | ⟨s, hkept, _⟩
        · rwa [hkept] at hearlier
        · rw [hkept] at hearlier hne
          exact (List.prefix_concat_iff.mp hearlier).resolve_left hne
      apply unsettled_keptOf _ hbefore
      intro j hj
      cases hsettles : settles limits read j with
      | true => exact absurd (.settled hsettles) (hgoes j (by omega))
      | false => rfl

theorem follows_collect (limits : SampleLimits α) (read : Nat -> Option (Sample α))
    (wait : Nat -> Bool) : Follows limits read wait (collect limits read wait) := by
  have hholds : Holds read 0 (SampleLog.empty : SampleLog α) := ⟨rfl, rfl⟩
  rcases exists_goesOn limits wait limits.maxSamples hholds with ⟨n, hn⟩
  have hreads : (collect limits read wait).reads = n := hn.reads_eq
  have hsamples : (collect limits read wait).samples = keptOf read n := by
    rw [← Nat.zero_add n]
    exact hn.samples_eq
  have hgoes : forall j, j + 1 < n -> ¬ Halts limits read wait j := by
    intro j hj
    rw [← Nat.zero_add j]
    exact hn.goesOn j hj
  constructor
  · exact hreads ▸ hn.le_remaining
  · rw [hsamples, hreads]
  · rw [hreads, List.range_eq_range']
    exact hn.inquiries_eq
  · rw [hreads]
    exact hgoes
  · rw [hreads]
    intro hlt
    rcases hn.halts hlt with ⟨j, hj, hhalts⟩
    rw [Nat.zero_add] at hhalts
    exists j
  · rw [hsamples]
    exact isChain_keptOf read n
  · rw [hsamples]
    intro earlier hearlier hne
    exact unsettled_of_goesOn hgoes hearlier hne

end

/-!
## Under given settings
-/

/--
Sampling faults if and only if there cannot be room for the readings that may be made.  If there
is, it keeps the first sample and each one with a speed from the last one kept, and ends at the
first reading that halts, or when all readings have been made.
-/
theorem sampling_follows_readings (p : PredictorSettings) (read : Nat -> Option (Sample Float32))
    (wait : Nat -> Bool) :
    (PredictorSettings.sampleRoom < p.maxSamples ∧
        p.collect? read wait = .error .capacityOverflow) ∨
      (p.maxSamples <= PredictorSettings.sampleRoom ∧ exists s, p.collect? read wait = .ok s ∧
        Follows p.sampleLimits read wait s) := by
  by_cases hroom : PredictorSettings.sampleRoom < p.maxSamples
  · exact .inl ⟨hroom, if_pos hroom⟩
  · exact .inr ⟨Nat.le_of_not_lt hroom, _, if_neg hroom, follows_collect p.sampleLimits read wait⟩

def seenOnce (k : Nat) : Option (Sample Float32) :=
  if k = 0 then some ⟨Single.ofInt 100, Single.ofInt 50, Single.ofInt 0⟩ else none

/-- Valid settings allow for more readings than there can be room for. -/
theorem sampling_finds_no_room :
    let p : PredictorSettings := { maxSamples := 18446744073709551615 }
    ({ predictor := p } : Settings).validate = .ok (.ok ()) ∧
      Follows p.sampleLimits seenOnce (fun _ => true)
        ⟨(seenOnce 0).toList, [.reading, .period, .reading]⟩ ∧
      forall s, p.collect? seenOnce (fun _ => true) ≠ .ok s := by
  intro p
  have hcollect : collect p.sampleLimits seenOnce (fun _ => true) =
      ⟨(seenOnce 0).toList, [.reading, .period, .reading]⟩ := rfl
  constructor
  · decide +kernel
  · constructor
    · rw [← hcollect]
      exact follows_collect p.sampleLimits seenOnce fun _ => true
    · intro s
      exact nofun

end Sampling
end AirDefense
