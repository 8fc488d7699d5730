import AirDefense.Schedule.Roster
import Mathlib.Logic.Function.Basic
import Mathlib.Logic.Relation

/-!
# Joining all tasks

Tasks start further tasks, each of them step by step, while somebody outside takes handles off the
roster in batches and waits for them.  A task that runs may not be on the roster yet; but then its
starter has not finished, and the starter has the smaller number.  So the first task that is left
is on the roster or in the batch, and none is left once a batch is empty.
-/

namespace AirDefense

namespace Roster.Joining

def batch : Joining -> List Nat
  | awaiting batch => batch
  | _ => []

variable {j : Joining} {finished : Nat -> Bool} {r : Roster} {n task : Nat} {rest : List Nat}

theorem step_gathering_nil (finished : Nat -> Bool) (hhandles : r.handles = []) :
    gathering.step finished r = (returned, { r with handles := [] }) := by
  simp only [step, takeBatch, hhandles]

theorem step_gathering_cons (finished : Nat -> Bool) (hhandles : r.handles = task :: rest) :
    gathering.step finished r = (awaiting (task :: rest), { r with handles := [] }) := by
  simp only [step, takeBatch, hhandles]

theorem step_awaiting_cons (finished : Nat -> Bool) (r : Roster) (task : Nat) (rest : List Nat) :
    (awaiting (task :: rest)).step finished r =
      (if finished task then awaiting rest else awaiting (task :: rest), r) :=
  rfl

theorem nextTask_step (j : Joining) (finished : Nat -> Bool) (r : Roster) :
    (j.step finished r).2.nextTask = r.nextTask := by
  cases j with
  | gathering =>
      cases hhandles : r.handles with
      | nil => rw [step_gathering_nil finished hhandles]
      | cons task rest => rw [step_gathering_cons finished hhandles]
  | awaiting batch => cases batch <;> rfl
  | returned => rfl

theorem mem_step (hleft : finished n = false) (h : n ∈ r.handles ∨ n ∈ j.batch) :
    n ∈ (j.step finished r).2.handles ∨ n ∈ (j.step finished r).1.batch := by
  cases j with
  | gathering =>
      have hn : n ∈ r.handles := h.resolve_right List.not_mem_nil
      cases hhandles : r.handles with
      | nil =>
          rw [hhandles] at hn
          cases hn
      | cons task rest =>
          rw [step_gathering_cons finished hhandles]
          rw [hhandles] at hn
          exact .inr hn
  | awaiting batch =>
      cases batch with
      | nil => exact h
      | cons task rest =>
          rw [step_awaiting_cons]
          apply h.imp_right
          intro hn
          split
          · rename_i hfinished
            apply (List.mem_cons.mp hn).resolve_left
            intro heq
            rw [← heq, hleft] at hfinished
            cases hfinished
          · exact hn
  | returned => exact h

theorem step_eq_returned (hj : j ≠ returned) (hreturned : (j.step finished r).1 = returned) :
    j = gathering ∧ r.handles = [] ∧ (j.step finished r).2.handles = [] := by
  cases j with
  | gathering =>
      cases hhandles : r.handles with
      | nil =>
          rw [step_gathering_nil finished hhandles]
          exact ⟨rfl, rfl, rfl⟩
      | cons task rest =>
          rw [step_gathering_cons finished hhandles] at hreturned
          cases hreturned
  | awaiting batch =>
      cases batch with
      | nil => cases hreturned
      | cons task rest =>
          rw [step_awaiting_cons] at hreturned
          split at hreturned
          · cases hreturned
          · cases hreturned
  | returned => exact absurd rfl hj

end Roster.Joining

/-!
## Tasks that start tasks
-/

/-- Who starts a task: another task, or somebody outside. -/
inductive Starter where
  | task (n : Nat)
  | outside (k : Nat)
deriving DecidableEq, Repr

/-- How far a starter has come. -/
inductive Starting where
  | idle
  | allowed
  /-- The task has its number, and no thread yet. -/
  | numbered (n : Nat)
  /-- The task runs, and its handle is not on the roster yet. -/
  | begun (n : Nat)
deriving DecidableEq, Repr

namespace Starting

def number? : Starting -> Option Nat
  | numbered n => some n
  | begun n => some n
  | _ => none

end Starting

/-- All tasks of a schedule, those who start them, and the one who joins them. -/
structure Forest where
  roster : Roster
  starting : Starter -> Starting
  started : List Nat
  finished : List Nat
  joining : Roster.Joining

namespace Forest

def empty : Forest :=
  { roster := .empty
    starting := fun _ => .idle
    started := []
    finished := []
    joining := .returned }

def MayStart (s : Forest) : Starter -> Prop
  | .task n => n ∈ s.started ∧ n ∉ s.finished
  | .outside _ => s.joining = .returned

def put (s : Forest) (p : Starter) (x : Starting) : Forest :=
  { s with starting := Function.update s.starting p x }

def number (s : Forest) (p : Starter) : Forest :=
  { s.put p (.numbered s.roster.begin.1) with roster := s.roster.begin.2 }

def launch (s : Forest) (p : Starter) (n : Nat) : Forest :=
  { s.put p (.begun n) with started := s.started ++ [n] }

def enlist (s : Forest) (p : Starter) (n : Nat) : Forest :=
  { s.put p .idle with roster := s.roster.enlist n }

def finish (s : Forest) (n : Nat) : Forest :=
  { s with finished := s.finished ++ [n] }

def stop (s : Forest) : Forest :=
  { s with roster := s.roster.stop }

def join (s : Forest) : Forest :=
  { s with joining := .gathering }

/-- A step of the one who joins. -/
def proceed (s : Forest) : Forest :=
  let (joining, roster) := s.joining.step (s.finished.contains ·) s.roster
  { s with joining, roster }

/-- What may happen next.  A refused start changes nothing. -/
inductive Step (s : Forest) : Forest -> Prop where
  | allow (p : Starter) (name : String) (hmay : s.MayStart p) (hidle : s.starting p = .idle)
      (hallow : s.roster.allow name = .ok ()) : Step s (s.put p .allowed)
  | number (p : Starter) (hallowed : s.starting p = .allowed) : Step s (s.number p)
  | launch (p : Starter) (n : Nat) (hnumbered : s.starting p = .numbered n) :
      Step s (s.launch p n)
  | fail (p : Starter) (n : Nat) (hnumbered : s.starting p = .numbered n) :
      Step s (s.put p .idle)
  | enlist (p : Starter) (n : Nat) (hbegun : s.starting p = .begun n) : Step s (s.enlist p n)
  | finish (n : Nat) (hstarted : n ∈ s.started) (hruns : n ∉ s.finished)
      (hidle : s.starting (.task n) = .idle) : Step s (s.finish n)
  | stop : Step s s.stop
  | join (hreturned : s.joining = .returned)
      (houtside : forall k, s.starting (.outside k) = .idle) : Step s s.join
  | proceed (hjoins : s.joining ≠ .returned) : Step s s.proceed

variable {s t : Forest} {p q : Starter} {x : Starting} {m n : Nat}

/-!
## Starters
-/

structure Fits (s : Forest) (p : Starter) (x : Starting) : Prop where
  mayStart : x ≠ .idle -> s.MayStart p
  lt_nextTask : forall n, x.number? = some n -> n < s.roster.nextTask
  starter_lt : forall m n, p = .task m -> x.number? = some n -> m < n

theorem fits_idle (s : Forest) (p : Starter) : s.Fits p .idle := by
  constructor
  · intro hne
    exact absurd rfl hne
  · exact nofun
  · exact nofun

theorem Fits.mono (h : s.Fits p x) (hmay : s.MayStart p -> t.MayStart p)
    (hnext : s.roster.nextTask <= t.roster.nextTask) : t.Fits p x := by
  constructor
  · exact fun hne => hmay (h.mayStart hne)
  · exact fun n hn => Nat.lt_of_lt_of_le (h.lt_nextTask n hn) hnext
  · exact h.starter_lt

/-- Who is waited for, or will be: its handle is kept, or is about to be put on the roster. -/
def Holds (s : Forest) (n : Nat) : Prop :=
  (n ∈ s.roster.handles ∨ n ∈ s.joining.batch) ∨ exists p, s.starting p = .begun n

/-- Any state that may be reached. -/
structure Sound (s : Forest) : Prop where
  lt_nextTask : forall n, n ∈ s.started -> n < s.roster.nextTask
  fits : forall p, s.Fits p (s.starting p)
  holds : forall n, n ∈ s.started -> n ∉ s.finished -> s.Holds n

theorem empty_sound : empty.Sound := by
  constructor
  · exact nofun
  · exact fun p => fits_idle empty p
  · exact nofun

theorem fits_update (h : s.Sound) (hx : s.Fits p x) (q : Starter) :
    s.Fits q (Function.update s.starting p x q) := by
  by_cases hq : q = p
  · rw [hq, Function.update_self]
    exact hx
  · rw [Function.update_of_ne hq]
    exact h.fits q

theorem begun_update (hp : s.starting p ≠ .begun n) (h : exists q, s.starting q = .begun n) :
    exists q, Function.update s.starting p x q = .begun n := by
  rcases h with ⟨q, hq⟩
  exists q
  rw [Function.update_of_ne]
  · exact hq
  · intro heq
    rw [heq] at hq
    exact hp hq

/-!
## Steps
-/

theorem Sound.put (h : s.Sound) (hbegun : forall n, s.starting p ≠ .begun n) (hx : s.Fits p x) :
    (s.put p x).Sound := by
  constructor
  · exact h.lt_nextTask
  · exact fun q => (fits_update h hx q).mono (fun hmay => hmay) (Nat.le_refl _)
  · intro n hn hleft
    exact (h.holds n hn hleft).imp_right (begun_update (hbegun n))

theorem Sound.draw (h : s.Sound) : { s with roster := s.roster.begin.2 : Forest }.Sound := by
  constructor
  · exact fun n hn => Nat.lt_succ_of_lt (h.lt_nextTask n hn)
  · exact fun p => (h.fits p).mono (fun hmay => hmay) (Nat.le_succ _)
  · exact h.holds

theorem Sound.number (h : s.Sound) (hallowed : s.starting p = .allowed) :
    (s.number p).Sound := by
  have hmay : s.MayStart p := (h.fits p).mayStart (by rw [hallowed]; nofun)
  apply Sound.put h.draw
  · rw [hallowed]
    exact nofun
  · constructor
    · exact fun _ => hmay
    · intro n hn
      cases hn
      exact Nat.lt_succ_self _
    · intro m n hp hn
      cases hn
      rw [hp] at hmay
      exact h.lt_nextTask m hmay.1

theorem Sound.run (h : s.Sound) (hbegun : s.starting p = .begun n) :
    { s with started := s.started ++ [n] : Forest }.Sound := by
  constructor
  · intro m hm
    rcases List.mem_append.mp hm with hold | hnew
    · exact h.lt_nextTask m hold
    · rw [List.mem_singleton.mp hnew]
      exact (h.fits p).lt_nextTask n (by rw [hbegun]; rfl)
  · intro q
    refine (h.fits q).mono (fun hmay => ?_) (Nat.le_refl _)
    cases q with
    | task m => exact ⟨List.mem_append_left _ hmay.1, hmay.2⟩
    | outside k => exact hmay
  · intro m hm hleft
    rcases List.mem_append.mp hm with hold | hnew
    · exact h.holds m hold hleft
    · rw [List.mem_singleton.mp hnew]
      exact .inr ⟨p, hbegun⟩

theorem Sound.launch (h : s.Sound) (hnumbered : s.starting p = .numbered n) :
    (s.launch p n).Sound := by
  have hfits : s.Fits p (.numbered n) := hnumbered ▸ h.fits p
  have hput : (s.put p (.begun n)).Sound := by
    apply h.put
    · rw [hnumbered]
      exact nofun
    · exact ⟨fun _ => hfits.mayStart nofun, hfits.lt_nextTask, hfits.starter_lt⟩
  exact hput.run (Function.update_self p _ _)

theorem Sound.enlist (h : s.Sound) (hbegun : s.starting p = .begun n) :
    (s.enlist p n).Sound := by
  constructor
  · exact h.lt_nextTask
  · exact fun q => (fits_update h (fits_idle s p) q).mono (fun hmay => hmay) (Nat.le_refl _)
  · intro m hm hleft
    by_cases heq : n = m
    · rw [← heq]
      exact .inl (.inl (List.mem_append_right _ (List.mem_singleton_self n)))
    · rcases h.holds m hm hleft with (hroster | hbatch) | hstarting
      · exact .inl (.inl (List.mem_append_left _ hroster))
      · exact .inl (.inr hbatch)
      · apply Or.inr
        apply begun_update _ hstarting
        rw [hbegun]
        exact mt Starting.begun.inj heq

theorem Sound.finish (h : s.Sound) (hidle : s.starting (.task n) = .idle) :
    (s.finish n).Sound := by
  constructor
  · exact h.lt_nextTask
  · intro p
    by_cases hp : p = .task n
    · have hstarting : (s.finish n).starting p = .idle := by rw [hp]; exact hidle
      rw [hstarting]
      exact fits_idle _ p
    · refine (h.fits p).mono (fun hmay => ?_) (Nat.le_refl _)
      cases p with
      | task m =>
          constructor
          · exact hmay.1
          · intro hfinished
            rcases List.mem_append.mp hfinished with hold | hnew
            · exact hmay.2 hold
            · exact hp (by rw [List.mem_singleton.mp hnew])
      | outside k => exact hmay
  · intro m hm hleft
    exact h.holds m hm fun hfinished => hleft (List.mem_append_left _ hfinished)

theorem Sound.stop (h : s.Sound) : s.stop.Sound := by
  constructor
  · exact h.lt_nextTask
  · exact fun p => (h.fits p).mono (fun hmay => hmay) (Nat.le_refl _)
  · exact h.holds

theorem Sound.join (h : s.Sound) (hreturned : s.joining = .returned)
    (houtside : forall k, s.starting (.outside k) = .idle) : s.join.Sound := by
  constructor
  · exact h.lt_nextTask
  · intro p
    cases p with
    | task m => exact (h.fits (.task m)).mono (fun hmay => hmay) (Nat.le_refl _)
    | outside k =>
        show s.join.Fits _ (s.starting (.outside k))
        rw [houtside k]
        exact fits_idle _ _
  · intro n hn hleft
    apply (h.holds n hn hleft).imp_left
    apply Or.imp_right
    intro hbatch
    rw [hreturned] at hbatch
    cases hbatch

theorem Sound.proceed (h : s.Sound) (hjoins : s.joining ≠ .returned) : s.proceed.Sound := by
  have hnext : s.proceed.roster.nextTask = s.roster.nextTask :=
    Roster.Joining.nextTask_step s.joining _ s.roster
  constructor
  · rw [hnext]
    exact h.lt_nextTask
  · intro p
    apply (h.fits p).mono _ (Nat.le_of_eq hnext.symm)
    intro hmay
    cases p with
    | task m => exact hmay
    | outside k => exact absurd hmay hjoins
  · intro n hn hleft
    apply (h.holds n hn hleft).imp_left
    have hrunning : s.finished.contains n = false := by
      rw [List.contains_eq_mem]
      exact decide_eq_false hleft
    exact Roster.Joining.mem_step hrunning

theorem Sound.step (h : s.Sound) (hstep : s.Step t) : t.Sound := by
  cases hstep with
  | allow p _ hmay hidle _ => exact h.put (by rw [hidle]; nofun) ⟨fun _ => hmay, nofun, nofun⟩
  | number p hallowed => exact h.number hallowed
  | launch p n hnumbered => exact h.launch hnumbered
  | fail p n hnumbered => exact h.put (by rw [hnumbered]; nofun) (fits_idle s p)
  | enlist p n hbegun => exact h.enlist hbegun
  | finish n _ _ hidle => exact h.finish hidle
  | stop => exact h.stop
  | join hreturned houtside => exact h.join hreturned houtside
  | proceed hjoins => exact h.proceed hjoins

theorem sound_of_reached (hrun : Relation.ReflTransGen Step empty s) : s.Sound := by
  induction hrun with
  | refl => exact empty_sound
  | tail _ hstep ih => exact ih.step hstep

/-- An empty batch leaves nobody behind: the first one left would be on the roster. -/
theorem Sound.all_finished (h : s.Sound) (hgathering : s.joining = .gathering)
    (hhandles : s.roster.handles = []) : forall n, n ∈ s.started -> n ∈ s.finished := by
  intro n
  induction n using Nat.strongRecOn with
  | _ n ih =>
      intro hn
      by_contra hleft
      rcases h.holds n hn hleft with (hroster | hbatch) | ⟨p, hp⟩
      · rw [hhandles] at hroster
        cases hroster
      · rw [hgathering] at hbatch
        cases hbatch
      · have hfits : s.Fits p (.begun n) := hp ▸ h.fits p
        have hmay : s.MayStart p := hfits.mayStart nofun
        cases p with
        | task m => exact hmay.2 (ih m (hfits.starter_lt m n rfl rfl) hmay.1)
        | outside k => cases hgathering.symm.trans hmay

/--
Whatever tasks start tasks in whatever order of steps: when the one who joins them returns, all
tasks that ever ran have finished, no handle is left, and nobody is about to start another one.
-/
theorem joining_misses_no_task (hrun : Relation.ReflTransGen Step empty s) (hstep : s.Step t)
    (hjoins : s.joining ≠ .returned) (hreturns : t.joining = .returned) :
    (forall n, n ∈ t.started -> n ∈ t.finished) ∧ t.roster.handles = [] ∧
      forall p, t.starting p = .idle := by
  have hsound := sound_of_reached hrun
  cases hstep with
  | proceed _ =>
      rcases Roster.Joining.step_eq_returned hjoins hreturns with ⟨hgathering, hbefore, hafter⟩
      have hall := hsound.all_finished hgathering hbefore
      constructor
      · exact hall
      · constructor
        · exact hafter
        · intro p
          by_contra hbusy
          have hmay := (hsound.fits p).mayStart hbusy
          cases p with
          | task m => exact hmay.2 (hall m hmay.1)
          | outside k => exact hjoins hmay
  | join _ _ => cases hreturns
  | _ => exact absurd hreturns hjoins

def lateChild : Forest :=
  empty
    |>.put (.outside 0) .allowed
    |>.number (.outside 0)
    |>.launch (.outside 0) 0
    |>.enlist (.outside 0) 0
    |>.join
    |>.put (.task 0) .allowed
    |>.number (.task 0)
    |>.launch (.task 0) 1
    |>.proceed
    |>.enlist (.task 0) 1
    |>.finish 0
    |>.proceed
    |>.proceed
    |>.proceed
    |>.finish 1
    |>.proceed
    |>.proceed

theorem lateChild_reached : Relation.ReflTransGen Step empty lateChild :=
  Relation.ReflTransGen.refl
    |>.tail (.allow (.outside 0) "parent" rfl rfl rfl)
    |>.tail (.number (.outside 0) rfl)
    |>.tail (.launch (.outside 0) 0 rfl)
    |>.tail (.enlist (.outside 0) 0 rfl)
    |>.tail (.join rfl fun k => by cases k <;> rfl)
    |>.tail (.allow (.task 0) "child" ⟨by decide, by decide⟩ rfl rfl)
    |>.tail (.number (.task 0) rfl)
    |>.tail (.launch (.task 0) 1 rfl)
    |>.tail (.proceed nofun)
    |>.tail (.enlist (.task 0) 1 rfl)
    |>.tail (.finish 0 (by decide) (by decide) rfl)
    |>.tail (.proceed nofun)
    |>.tail (.proceed nofun)
    |>.tail (.proceed nofun)
    |>.tail (.finish 1 (by decide) (by decide) rfl)
    |>.tail (.proceed nofun)
    |>.tail (.proceed nofun)

theorem joining_misses_no_task_late_child :
    Relation.ReflTransGen Step empty lateChild ∧ lateChild.Step lateChild.proceed ∧
      lateChild.joining ≠ .returned ∧ lateChild.proceed.joining = .returned ∧
      lateChild.proceed.started = [0, 1] ∧
      (forall n, n ∈ lateChild.proceed.started -> n ∈ lateChild.proceed.finished) ∧
      lateChild.proceed.roster.handles = [] ∧
      forall p, lateChild.proceed.starting p = .idle :=
  ⟨lateChild_reached, .proceed nofun, nofun, rfl, rfl,
    joining_misses_no_task lateChild_reached (.proceed nofun) nofun rfl⟩

end Forest
end AirDefense
