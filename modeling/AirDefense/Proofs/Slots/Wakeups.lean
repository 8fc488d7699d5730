import AirDefense.Proofs.Slots.Requests

/-!
# Sleepers and their notifications

A caller that finds nothing ready sleeps until it is notified.  A request that is served
notifies one sleeper, if there is one, but only after it has let go of the queue.  By then
a newcomer may have drawn the slot, or everybody may be awake; a sleeper may also wake for
no reason, and whoever is awake again runs only later.  In every order of these steps
nobody sleeps beside more ready slots than there are callers and requests on their way.
-/

namespace AirDefense

namespace AdmissionQueue

variable {q : AdmissionQueue}

theorem Sound.wake_ready (h : q.Sound) :
    q.wake.2.chain.ready = [] ∨
      q.wake.1 ≠ .parked ∧ q.wake.2.chain.ready.length + 1 = q.chain.ready.length := by
  cases hready : q.chain.ready with
  | nil =>
      left
      rw [h.wake_nil hready]
      split <;> exact hready
  | cons slot ready =>
      rcases h.wake_cons hready with ⟨hanswer, hleaves, _⟩
      right
      rw [hanswer, hleaves.ready_eq]
      exact ⟨by simp, rfl⟩

end AdmissionQueue

/-!
## Who is inside a draw
-/

namespace AdmissionUse

def parks (u : AdmissionUse) (caller : Nat) : Bool :=
  u.callers[caller]?.any SlotCaller.parked

/-- The callers inside a draw. -/
def parkers (u : AdmissionUse) : List Nat :=
  (List.range u.callers.length).filter u.parks

variable {capacity : Nat} {u : AdmissionUse} {caller other : Nat}

theorem mem_parkers : caller ∈ u.parkers ↔ u.parks caller = true := by
  simp only [parkers, List.mem_filter, List.mem_range, and_iff_right_iff_imp]
  intro hparks
  by_contra hlt
  rw [parks, List.getElem?_eq_none (Nat.le_of_not_lt hlt)] at hparks
  cases hparks

theorem parks_answer {c : SlotCaller} {r : SlotAnswer × AdmissionQueue}
    (hc : u.callers[caller]? = some c) :
    (u.answer caller c r).parks other =
      if other = caller then decide (r.1 = .parked) else u.parks other := by
  have hlt := (List.getElem?_eq_some_iff.mp hc).1
  unfold parks answer
  simp only [List.getElem?_set]
  by_cases heq : caller = other
  · simp [heq, heq ▸ hlt, SlotCaller.hear]
  · simp [heq, Ne.symm heq]

theorem parks_join : (u.act .join).parks other = u.parks other := by
  unfold parks act
  by_cases hlt : other < u.callers.length
  · simp [List.getElem?_append_left hlt]
  · have hle := Nat.le_of_not_lt hlt
    rw [List.getElem?_append_right hle, List.getElem?_eq_none hle]
    cases other - u.callers.length <;> rfl

theorem parks_release {slot : Nat} : (u.act (.release slot)).parks other = u.parks other := by
  unfold parks act
  dsimp only
  split
  · rfl
  · rw [List.getElem?_map, Option.any_map]

theorem act_enter_of_parks (h : u.parks caller = true) : u.act (.enter caller) = u := by
  cases hc : u.callers[caller]? with
  | none => simp only [act, hc]
  | some c =>
      have hparked : c.parked = true := by simpa [parks, hc] using h
      simp only [act, hc, hparked, if_true]

theorem act_enter {c : SlotCaller} (hc : u.callers[caller]? = some c)
    (hparked : c.parked = false) : u.act (.enter caller) = u.answer caller c u.queue.enter := by
  simp only [act, hc, hparked, Bool.false_eq_true, if_false]

theorem parks_enter (hother : u.parks other = true) :
    (u.act (.enter caller)).parks other = true := by
  cases hparks : u.parks caller with
  | true =>
      rw [act_enter_of_parks hparks]
      exact hother
  | false =>
      have hne : other ≠ caller := by
        rintro rfl
        rw [hother] at hparks
        cases hparks
      cases hc : u.callers[caller]? with
      | none => simpa only [act, hc] using hother
      | some c =>
          rw [act_enter hc (by simpa [parks, hc] using hparks), parks_answer hc, if_neg hne]
          exact hother

theorem Sound.enter_ready (h : u.Sound capacity) :
    (u.act (.enter caller)).queue.chain.ready = [] ∨
      (u.act (.enter caller)).queue.chain.ready.length <= u.queue.chain.ready.length ∧
        forall other, (u.act (.enter caller)).parks other = u.parks other := by
  cases hc : u.callers[caller]? with
  | none => simp [AdmissionUse.act, hc]
  | some c =>
      cases hparked : c.parked with
      | true => simp [AdmissionUse.act, hc, hparked]
      | false =>
          have hqueued : ({ u.queue with drawers := u.queue.drawers + 1 } : AdmissionQueue).Sound :=
            h.queue
          rw [act_enter hc hparked]
          rcases hqueued.wake_ready with hnil | ⟨hanswer, hlength⟩
          · exact .inl hnil
          · refine .inr ⟨Nat.le_of_succ_le (Nat.le_of_eq hlength), fun other => ?_⟩
            rw [parks_answer hc]
            split
            · rename_i heq
              rw [heq, parks, hc]
              exact (decide_eq_false hanswer).trans hparked.symm
            · rfl

theorem act_wake {c : SlotCaller} (hc : u.callers[caller]? = some c)
    (hparked : c.parked = true) : u.act (.wake caller) = u.answer caller c u.queue.wake := by
  simp only [act, hc, hparked, if_true]

theorem exists_of_parks (h : u.parks caller = true) :
    exists c, u.callers[caller]? = some c ∧ c.parked = true := by
  cases hc : u.callers[caller]? with
  | none => simp [parks, hc] at h
  | some c => exact ⟨c, rfl, by simpa [parks, hc] using h⟩

theorem parks_wake (hcaller : u.parks caller = true) (hne : other ≠ caller) :
    (u.act (.wake caller)).parks other = u.parks other := by
  rcases exists_of_parks hcaller with ⟨c, hc, hparked⟩
  rw [act_wake hc hparked, parks_answer hc, if_neg hne]

theorem Sound.wake_ready (h : u.Sound capacity) (hcaller : u.parks caller = true) :
    (u.act (.wake caller)).queue.chain.ready = [] ∨
      (u.act (.wake caller)).parks caller = false ∧
        (u.act (.wake caller)).queue.chain.ready.length + 1 = u.queue.chain.ready.length := by
  rcases exists_of_parks hcaller with ⟨c, hc, hparked⟩
  rw [act_wake hc hparked, parks_answer hc, if_pos rfl]
  exact h.queue.wake_ready.imp id fun hleft => ⟨decide_eq_false hleft.1, hleft.2⟩

theorem Sound.ready_release (h : u.Sound capacity) {slot : Nat} :
    (u.act (.release slot)).queue.chain.ready = u.queue.chain.ready := by
  cases hq : u.queue.release? slot with
  | error fault => simp only [AdmissionUse.act, hq]
  | ok r =>
      have hinUse := h.isInUse_iff.mpr (h.release?_eq_ok_iff.mp ⟨r, hq⟩)
      rcases h.queue.release_leaves hinUse with ⟨_, hr, _, hleaves⟩
      rw [hq] at hr
      cases hr
      simp only [AdmissionUse.act, hq, hleaves.ready_eq]

end AdmissionUse

/-!
## Notifications
-/

/--
A queue in use whose callers sleep inside their draws.  A caller that is awake again runs
with its next wake-up.
-/
structure AdmissionBell where
  use : AdmissionUse
  notified : List Nat
  /-- Callers that woke for no reason and have not run since. -/
  stirred : List Nat
  /-- Served requests that have still to notify. -/
  pending : Nat
deriving DecidableEq, Repr

inductive BellStep where
  | call (call : AdmissionCall)
  /-- A served request notifies this sleeper, or nobody if nobody sleeps. -/
  | notify (caller : Nat)
  | stir (caller : Nat)
deriving DecidableEq, Repr

namespace AdmissionBell

def start (q : AdmissionQueue) : AdmissionBell := ⟨.start q, [], [], 0⟩

def roused (b : AdmissionBell) : List Nat :=
  b.notified ++ b.stirred

/-- The callers inside a draw that have not been notified. -/
def asleep (b : AdmissionBell) : List Nat :=
  b.use.parkers.filter fun caller => caller ∉ b.roused

def act (b : AdmissionBell) : BellStep -> AdmissionBell
  | .call .request =>
      { b with
        use := b.use.act .request
        pending := b.pending + b.use.queue.request.1.toNat }
  | .call (.wake caller) =>
      if caller ∈ b.roused then
        { b with
          use := b.use.act (.wake caller)
          notified := b.notified.erase caller
          stirred := b.stirred.erase caller }
      else b
  | .call .close =>
      { b with
        use := b.use.act .close
        notified := b.asleep ++ b.notified }
  | .call call => { b with use := b.use.act call }
  | .notify caller =>
      if b.pending = 0 then b
      else if caller ∈ b.asleep then
        { b with notified := caller :: b.notified, pending := b.pending - 1 }
      else if b.asleep = [] then { b with pending := b.pending - 1 }
      else b
  | .stir caller =>
      if caller ∈ b.asleep then { b with stirred := caller :: b.stirred } else b

def run (b : AdmissionBell) (steps : List BellStep) : AdmissionBell :=
  steps.foldl act b

/-!
## The invariant
-/

structure Sound (capacity : Nat) (b : AdmissionBell) : Prop where
  use : b.use.Sound capacity
  roused_nodup : b.roused.Nodup
  roused_parks : forall caller, caller ∈ b.roused -> b.use.parks caller = true
  /-- Somebody is on the way to each slot that is ready beside a sleeper. -/
  heard : forall caller, caller ∈ b.asleep ->
    b.use.queue.chain.ready.length <= b.notified.length + b.pending

variable {capacity : Nat} {b : AdmissionBell} {caller : Nat}

theorem mem_asleep : caller ∈ b.asleep ↔ b.use.parks caller = true ∧ caller ∉ b.roused := by
  simp [asleep, AdmissionUse.mem_parkers]

theorem Sound.asleep_nodup (h : b.Sound capacity) : (b.asleep ++ b.roused).Nodup := by
  have hasleep : b.asleep.Nodup := (List.nodup_range.filter _).filter _
  refine List.nodup_append.mpr ⟨hasleep, h.roused_nodup, ?_⟩
  rintro other hother _ hin rfl
  exact (mem_asleep.mp hother).2 hin

theorem start_sound {q : AdmissionQueue} (h : AdmissionQueue.ofCapacity? capacity = .ok q) :
    (start q).Sound capacity :=
  { use := AdmissionUse.start_sound h
    roused_nodup := List.nodup_nil
    roused_parks := fun _ hcaller => by cases hcaller
    heard := fun _ hcaller => by cases hcaller }

theorem length_ready_le_of_nil (h : b.use.queue.chain.ready = []) :
    b.use.queue.chain.ready.length <= b.notified.length + b.pending := by
  rw [h]
  exact Nat.zero_le _

/-- A call that rouses nobody, and after which nobody sleeps but beside fewer slots. -/
theorem Sound.pass (h : b.Sound capacity) {u : AdmissionUse} {pending : Nat}
    (hu : u.Sound capacity)
    (hkeeps : forall other, b.use.parks other = true -> u.parks other = true)
    (hready : u.queue.chain.ready = [] ∨
      u.queue.chain.ready.length + b.pending <= b.use.queue.chain.ready.length + pending ∧
        forall other, u.parks other = b.use.parks other) :
    Sound capacity { b with use := u, pending } := by
  refine
    { use := hu
      roused_nodup := h.roused_nodup
      roused_parks := fun other hother => hkeeps other (h.roused_parks other hother)
      heard := ?_ }
  intro other hother
  rcases hready with hnil | ⟨hlength, hsame⟩
  · exact length_ready_le_of_nil hnil
  · rcases mem_asleep.mp hother with ⟨hparks, hnot⟩
    have hbefore := h.heard other (mem_asleep.mpr ⟨hsame other ▸ hparks, hnot⟩)
    show u.queue.chain.ready.length <= b.notified.length + pending
    omega

theorem Sound.request (h : b.Sound capacity) : (b.act (.call .request)).Sound capacity := by
  rcases h.use.queue.request_leaves with ⟨_, _, hleaves⟩
  refine h.pass h.use.request (fun _ hparks => hparks) (.inr ⟨?_, fun _ => rfl⟩)
  have hadmits : b.use.queue.admits?.toList.length <= b.use.queue.request.1.toNat := by
    unfold AdmissionQueue.admits?
    cases b.use.queue.request.1 with
    | false => exact Nat.le_refl _
    | true =>
        rw [if_pos rfl]
        cases b.use.queue.chain.popFree <;> simp
  show b.use.queue.request.2.chain.ready.length + b.pending <= _
  rw [hleaves.ready_eq, List.length_append]
  omega

theorem Sound.wake (h : b.Sound capacity) (caller : Nat) :
    (b.act (.call (.wake caller))).Sound capacity := by
  simp only [act]
  split
  · rename_i hroused
    have hcaller := h.roused_parks caller hroused
    rcases List.nodup_append.mp h.roused_nodup with ⟨hnotified, hstirred, _⟩
    have herase : forall other, other ∈ b.notified.erase caller ++ b.stirred.erase caller ↔
        other ≠ caller ∧ other ∈ b.roused := by
      intro other
      rw [List.mem_append, hnotified.mem_erase_iff, hstirred.mem_erase_iff, ← and_or_left,
        roused, List.mem_append]
    refine
      { use := h.use.wake caller
        roused_nodup := (List.erase_sublist.append List.erase_sublist).nodup h.roused_nodup
        roused_parks := ?_
        heard := ?_ }
    · intro other hother
      rcases (herase other).mp hother with ⟨hne, hin⟩
      exact (AdmissionUse.parks_wake hcaller hne).trans (h.roused_parks other hin)
    · intro other hother
      rcases mem_asleep.mp hother with ⟨hparks, hnot⟩
      rcases h.use.wake_ready hcaller with hnil | ⟨hleft, hlength⟩
      · exact length_ready_le_of_nil hnil
      · have hne : other ≠ caller := by
          rintro rfl
          rw [hleft] at hparks
          cases hparks
        have hparked : b.use.parks other = true := AdmissionUse.parks_wake hcaller hne ▸ hparks
        have hbefore := h.heard other (mem_asleep.mpr
          ⟨hparked, fun hin => hnot ((herase other).mpr ⟨hne, hin⟩)⟩)
        have herased := List.le_length_erase (a := caller) (l := b.notified)
        show (b.use.act (.wake caller)).queue.chain.ready.length <=
          (b.notified.erase caller).length + b.pending
        omega
  · exact h

theorem Sound.close (h : b.Sound capacity) : (b.act (.call .close)).Sound capacity := by
  have hnil : (b.use.act .close).queue.chain.ready = [] := h.use.queue.close_leaves.ready_eq
  have hroused : (b.act (.call .close)).roused = b.asleep ++ b.roused := by
    simp [act, roused]
  refine
    { use := h.use.close
      roused_nodup := hroused ▸ h.asleep_nodup
      roused_parks := ?_
      heard := fun _ _ => length_ready_le_of_nil hnil }
  intro other hother
  rw [hroused, List.mem_append] at hother
  rcases hother with hother | hother
  · exact (mem_asleep.mp hother).1
  · exact h.roused_parks other hother

theorem mem_asleep_of_rouse {c : AdmissionBell} (huse : c.use = b.use)
    (hperm : c.roused.Perm (caller :: b.roused)) {other : Nat} (hother : other ∈ c.asleep) :
    other ∈ b.asleep := by
  rcases mem_asleep.mp hother with ⟨hparks, hnot⟩
  exact mem_asleep.mpr ⟨huse ▸ hparks,
    fun hin => hnot (hperm.mem_iff.mpr (List.mem_cons_of_mem caller hin))⟩

theorem Sound.rouse (h : b.Sound capacity) (hcaller : caller ∈ b.asleep) {c : AdmissionBell}
    (huse : c.use = b.use) (hperm : c.roused.Perm (caller :: b.roused))
    (hcount : b.notified.length + b.pending <= c.notified.length + c.pending) :
    c.Sound capacity := by
  rcases mem_asleep.mp hcaller with ⟨hparks, hnot⟩
  refine
    { use := huse ▸ h.use
      roused_nodup := hperm.nodup_iff.mpr (List.nodup_cons.mpr ⟨hnot, h.roused_nodup⟩)
      roused_parks := ?_
      heard := ?_ }
  · intro other hother
    rw [huse]
    rcases List.mem_cons.mp (hperm.mem_iff.mp hother) with heq | hin
    · exact heq ▸ hparks
    · exact h.roused_parks other hin
  · intro other hother
    rw [huse]
    exact Nat.le_trans (h.heard other (mem_asleep_of_rouse huse hperm hother)) hcount

theorem Sound.notify (h : b.Sound capacity) (caller : Nat) :
    (b.act (.notify caller)).Sound capacity := by
  simp only [act]
  split
  · exact h
  · rename_i hpending
    split
    · rename_i hcaller
      refine h.rouse hcaller rfl (List.Perm.refl _) ?_
      simp only [List.length_cons]
      omega
    · split
      · rename_i hnobody
        exact
          { use := h.use
            roused_nodup := h.roused_nodup
            roused_parks := h.roused_parks
            heard := fun other hother => by
              have hin : other ∈ b.asleep := hother
              rw [hnobody] at hin
              cases hin }
      · exact h

theorem Sound.stir (h : b.Sound capacity) (caller : Nat) :
    (b.act (.stir caller)).Sound capacity := by
  simp only [act]
  split
  · rename_i hcaller
    exact h.rouse hcaller rfl List.perm_middle (Nat.le_refl _)
  · exact h

theorem Sound.act (h : b.Sound capacity) (step : BellStep) : (b.act step).Sound capacity := by
  cases step with
  | call call =>
      cases call with
      | join =>
          exact h.pass h.use.join (fun _ hparks => AdmissionUse.parks_join.trans hparks)
            (.inr ⟨Nat.le_refl _, fun _ => AdmissionUse.parks_join⟩)
      | enter caller =>
          refine h.pass (h.use.enter caller) (fun _ => AdmissionUse.parks_enter) ?_
          exact h.use.enter_ready.imp id
            (And.imp_left fun hle => Nat.add_le_add_right hle _)
      | wake caller => exact h.wake caller
      | request => exact h.request
      | release slot =>
          refine h.pass (h.use.release slot)
            (fun _ hparks => AdmissionUse.parks_release.trans hparks)
            (.inr ⟨?_, fun _ => AdmissionUse.parks_release⟩)
          exact Nat.le_of_eq (by rw [h.use.ready_release])
      | close => exact h.close
  | notify caller => exact h.notify caller
  | stir caller => exact h.stir caller

theorem Sound.run (h : b.Sound capacity) (steps : List BellStep) :
    (b.run steps).Sound capacity := by
  induction steps generalizing b with
  | nil => exact h
  | cons step rest ih => exact ih (h.act step)

/-!
## What it comes to
-/

/-- Who is inside a draw sleeps, was notified, or stirred, and only one of them. -/
theorem Sound.parkers_perm (h : b.Sound capacity) :
    (b.asleep ++ b.notified ++ b.stirred).Perm b.use.parkers := by
  have hparkers : b.use.parkers.Nodup := List.nodup_range.filter _
  rw [List.append_assoc]
  refine (List.perm_ext_iff_of_nodup h.asleep_nodup hparkers).mpr fun other => ?_
  rw [List.mem_append, mem_asleep, AdmissionUse.mem_parkers]
  constructor
  · rintro (hother | hother)
    · exact hother.1
    · exact h.roused_parks other hother
  · intro hparks
    by_cases hin : other ∈ b.roused
    · exact .inr hin
    · exact .inl ⟨hparks, hin⟩

/--
In every order of calls, notifications and wake-ups, each caller inside a draw is asleep,
notified or stirred.  While somebody sleeps, at most so many slots are ready as there are
callers that were notified and requests that have still to notify; and once all of these
have gone their way nobody sleeps beside a slot that is ready.
-/
theorem no_notification_is_lost {capacity : Nat} {q : AdmissionQueue}
    (h : AdmissionQueue.ofCapacity? capacity = .ok q) (steps : List BellStep) :
    let b := (start q).run steps
    (b.asleep ++ b.notified ++ b.stirred).Perm b.use.parkers ∧
      (b.asleep ≠ [] -> b.use.queue.readyLength <= b.notified.length + b.pending) ∧
      (b.notified = [] -> b.pending = 0 -> b.asleep = [] ∨ b.use.queue.readyLength = 0) := by
  intro b
  have hsound : b.Sound capacity := (start_sound h).run steps
  have hbound : b.asleep ≠ [] -> b.use.queue.readyLength <= b.notified.length + b.pending := by
    intro hasleep
    rcases List.exists_mem_of_ne_nil _ hasleep with ⟨caller, hcaller⟩
    rw [AdmissionQueue.readyLength, hsound.use.queue.represents.readyLength_eq]
    exact hsound.heard caller hcaller
  refine ⟨hsound.parkers_perm, hbound, ?_⟩
  intro hnotified hpending
  by_cases hasleep : b.asleep = []
  · exact .inl hasleep
  · have hready := hbound hasleep
    rw [hnotified, hpending] at hready
    exact .inr (Nat.eq_zero_of_le_zero hready)

theorem no_notification_is_lost_newcomer :
    exists q, AdmissionQueue.ofCapacity? 2 = .ok q ∧
      let served := [.call .join, .call .join, .call .join, .call .join, .call (.enter 0),
        .call (.enter 1), .call (.enter 2), .call .request, .call .request, .notify 1]
      let b := (start q).run served
      let c := (start q).run (served ++
        [.call (.enter 3), .notify 2, .call (.wake 2), .call (.wake 1)])
      (b.asleep = [0, 2] ∧ b.use.queue.readyLength = 2 ∧
        b.use.queue.readyLength <= b.notified.length + b.pending) ∧
        c.notified = [] ∧ c.pending = 0 ∧ c.asleep = [0, 1] ∧
          (c.asleep = [] ∨ c.use.queue.readyLength = 0) := by
  have h : AdmissionQueue.ofCapacity? 2 = .ok _ := rfl
  refine ⟨_, h, ⟨by decide, by decide, ?_⟩, by decide, by decide, by decide, ?_⟩
  · exact (no_notification_is_lost h _).2.1 (by decide)
  · exact (no_notification_is_lost h _).2.2 (by decide) (by decide)

end AdmissionBell
end AirDefense
