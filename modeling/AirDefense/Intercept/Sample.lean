import AirDefense.Number.Single

/-!
# Samples of a moving target

A target is read once a period until its speed settles.  The arithmetic is a
parameter: a run computes in single precision, and the same definitions can be
read over the real numbers.
-/

namespace AirDefense

/-- The arithmetic that an interception is computed in. -/
class PlaneArithmetic (α : Type) extends Add α, Sub α, Mul α, Div α where
  zero : α
  half : α
  abs : α -> α
  signum : α -> α
  least : α -> α -> α
  greatest : α -> α -> α
  hypot : α -> α -> α
  /-- Numerical equality; in floating point a NaN equals nothing. -/
  same : α -> α -> Bool
  below : α -> α -> Bool
  upTo : α -> α -> Bool

instance : PlaneArithmetic Float32 where
  zero := Single.ofInt 0
  half := Float32.ofBits 0x3f000000
  abs := Float32.abs
  signum := Single.signum
  least := Single.least
  greatest := Single.greatest
  hypot := Single.hypot
  same x y := x == y
  below x y := x < y
  upTo x y := x <= y

open PlaneArithmetic

structure Sample (α : Type) where
  x : α
  y : α
  t : α
deriving DecidableEq

section

variable [PlaneArithmetic α]

def Sample.speedTo? (a b : Sample α) : Option α :=
  let dt := b.t - a.t
  if upTo dt zero then none
  else some (hypot (b.x - a.x) (b.y - a.y) / dt)

structure SampleLimits (α : Type) where
  minSamples : Nat
  maxSamples : Nat
  tolerance : α

structure SampleLog (α : Type) where
  kept : List (Sample α)
  speed : Option α
deriving DecidableEq

namespace SampleLog

def empty : SampleLog α := ⟨[], none⟩

def samples (log : SampleLog α) : List (Sample α) := log.kept.reverse

def agrees (limits : SampleLimits α) (log : SampleLog α) (speed : α) : Bool :=
  log.speed.any fun before => upTo (abs (speed - before)) limits.tolerance

/--
Takes a reading in; true if the speed has settled with it.  A reading at the
time of the last sample is dropped: it tells nothing about the speed.
-/
def offer (limits : SampleLimits α) (log : SampleLog α) (s : Sample α) :
    Bool × SampleLog α :=
  match log.kept with
  | [] => (false, { log with kept := [s] })
  | last :: earlier =>
      match last.speedTo? s with
      | none => (false, log)
      | some speed =>
          let kept := s :: last :: earlier
          if log.agrees limits speed && limits.minSamples <= kept.length then
            (true, { log with kept })
          else (false, { kept, speed := some speed })

end SampleLog

inductive Inquiry where
  | reading
  /-- To wait for a period, and whether to go on. -/
  | period
deriving DecidableEq, Repr

structure Sampling (α : Type) where
  samples : List (Sample α)
  inquiries : List Inquiry

namespace Sampling

def reads (s : Sampling α) : Nat := s.inquiries.count .reading

def waits (s : Sampling α) : Nat := s.inquiries.count .period

def after (earlier : List Inquiry) (s : Sampling α) : Sampling α :=
  { s with inquiries := earlier ++ s.inquiries }

end Sampling

/--
Samples a target: `read k` is the answer of the `k`-th reading, none once the
target is gone, and `wait k` tells whether to go on after it.
-/
def collectFrom (limits : SampleLimits α) (read : Nat -> Option (Sample α))
    (wait : Nat -> Bool) : Nat -> Nat -> SampleLog α -> Sampling α
  | 0, _, log => ⟨log.samples, []⟩
  | remaining + 1, k, log =>
      match read k with
      | none => ⟨log.samples, [.reading]⟩
      | some s =>
          match log.offer limits s with
          | (true, log) => ⟨log.samples, [.reading]⟩
          | (false, log) =>
              if wait k then
                (collectFrom limits read wait remaining (k + 1) log).after [.reading, .period]
              else ⟨log.samples, [.reading, .period]⟩

def collect (limits : SampleLimits α) (read : Nat -> Option (Sample α))
    (wait : Nat -> Bool) : Sampling α :=
  collectFrom limits read wait limits.maxSamples 0 .empty

end

end AirDefense
