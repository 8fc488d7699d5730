import AirDefense.Proofs.Slots.Pool
import AirDefense.Slots.Admission

/-!
# Admission as sets of taken slots

A slot of the admission queue is taken from the draw that answers with it until
it is given back.  Requests move slots from the free stack to the ready queue, and
take none.
-/

namespace AirDefense
namespace AdmissionQueue

def Sound (q : AdmissionQueue) : Prop :=
  exists free ready, q.chain.Represents free ready

/-- A call on `q` that answers with `slot?` leaves the queue `r`. -/
structure Serves (q : AdmissionQueue) (slot? : Option Nat) (r : AdmissionQueue) : Prop where
  sound : r.Sound
  takes : Takes slot? q.chain.IsInUse r.chain.IsInUse
  capacity_eq : r.capacity = q.capacity

variable {q : AdmissionQueue}

theorem ofCapacity?_sound {n : Nat} (h : ofCapacity? n = .ok q) :
    q.Sound ∧ q.capacity = n ∧ forall i, ¬ q.chain.IsInUse i := by
  rcases bind_eq_ok.mp h with ⟨c, hc, h⟩
  rcases SlotChain.build?_represents hc with ⟨hcapacity, hrepresents⟩
  rw [← pure_eq_ok.mp h]
  refine ⟨⟨_, _, hrepresents⟩, hcapacity, fun i hi => ?_⟩
  have hinUse := hrepresents.isInUse_iff.mp hi
  rw [hcapacity] at hinUse
  exact hinUse.2.1 (List.mem_range.mpr hinUse.1)

/-!
## Draws
-/

theorem Sound.wake (h : q.Sound) : q.Serves q.wake.1.slot? q.wake.2 := by
  rcases h with ⟨free, ready, hrepresents⟩
  cases ready with
  | nil =>
      simp only [AdmissionQueue.wake, hrepresents.popReady_nil]
      split <;>
        exact ⟨⟨_, _, hrepresents⟩, takes_none fun i => Iff.rfl, rfl⟩
  | cons slot ready =>
      rcases hrepresents.popReady_cons with ⟨d, hd, hcapacity, hrest⟩
      simp only [AdmissionQueue.wake, hd, SlotAnswer.slot?]
      have hdistinct := hrepresents.distinct
      have hslot : slot ∉ free ∧ slot ∉ ready := by
        rw [List.nodup_append] at hdistinct
        exact ⟨fun hin => hdistinct.2.2 slot hin slot (List.mem_cons_self ..) rfl,
          (List.nodup_cons.mp hdistinct.2.1).1⟩
      have hlt : slot < q.chain.capacity := hrepresents.lt_of_mem_ready (List.mem_cons_self ..)
      refine ⟨⟨_, _, hrest⟩, ⟨fun i hi htaken => ?_, fun i => ?_⟩, hcapacity⟩
      · injection hi with hi
        subst hi
        exact (hrepresents.isInUse_iff.mp htaken).2.2 (List.mem_cons_self ..)
      · rw [hrest.isInUse_iff, hrepresents.isInUse_iff, hcapacity]
        by_cases hi : i = slot
        · subst hi
          simp [hlt, hslot.1, hslot.2]
        · simp [hi, Ne.symm hi]

theorem Sound.enter (h : q.Sound) : q.Serves q.enter.1.slot? q.enter.2 := by
  have hqueued : ({ q with drawers := q.drawers + 1 } : AdmissionQueue).Sound := h
  have hwake := hqueued.wake
  exact ⟨hwake.sound, hwake.takes, hwake.capacity_eq⟩

/-!
## Requests and returns
-/

theorem Sound.request (h : q.Sound) : q.Serves none q.request.2 := by
  unfold AdmissionQueue.request
  split
  · exact ⟨h, takes_none fun i => Iff.rfl, rfl⟩
  · rcases h with ⟨free, ready, hrepresents⟩
    cases free with
    | nil =>
        rw [hrepresents.popFree_nil]
        exact ⟨⟨_, _, hrepresents⟩, takes_none fun i => Iff.rfl, rfl⟩
    | cons slot free =>
        rcases hrepresents.popFree_cons with ⟨d, hd, hcapacity, hrest⟩
        rw [hd]
        have hdistinct := List.nodup_cons.mp hrepresents.distinct
        have hlt : slot < q.chain.capacity := hrepresents.lt_of_mem_free (List.mem_cons_self ..)
        have hinUse : d.IsInUse slot := by
          rw [hrest.isInUse_iff, hcapacity]
          simpa [hlt, not_or] using hdistinct.1
        have hqueued := hrest.enqueue hinUse
        have hsame : (d.enqueue slot).capacity = q.chain.capacity :=
          (SlotChain.capacity_enqueue ..).trans hcapacity
        refine ⟨⟨_, _, hqueued⟩, takes_none fun i => ?_, hsame⟩
        simp only [hqueued.isInUse_iff, hrepresents.isInUse_iff, hsame, List.mem_append,
          List.mem_cons, List.not_mem_nil, or_false, not_or]
        exact ⟨fun hi => ⟨hi.1, ⟨hi.2.2.2, hi.2.1⟩, hi.2.2.1⟩,
          fun hi => ⟨hi.1, hi.2.1.2, hi.2.2, hi.2.1.1⟩⟩

theorem Sound.release (h : q.Sound) {slot : Nat} (hinUse : q.chain.IsInUse slot) :
    exists r, q.release? slot = .ok r ∧ r.Sound ∧ r.capacity = q.capacity ∧
      forall i, r.chain.IsInUse i ↔ q.chain.IsInUse i ∧ i ≠ slot := by
  rcases h with ⟨free, ready, hrepresents⟩
  have hcheck := SlotChain.expectInUse?_of_isInUse hrepresents hinUse
  have hstack := hrepresents.stack hinUse
  refine ⟨{ q with chain := q.chain.stack slot }, ?_, ⟨_, _, hstack⟩,
    SlotChain.capacity_stack .., fun i => ?_⟩
  · exact bind_eq_ok.mpr ⟨_, bind_eq_ok.mpr ⟨(), hcheck, rfl⟩, rfl⟩
  · simp only [hstack.isInUse_iff, hrepresents.isInUse_iff, SlotChain.capacity_stack,
      List.mem_cons, not_or]
    exact ⟨fun hi => ⟨⟨hi.1, hi.2.1.2, hi.2.2⟩, hi.2.1.1⟩,
      fun hi => ⟨hi.1.1, ⟨hi.2, hi.1.2.1⟩, hi.1.2.2⟩⟩

theorem Sound.close (h : q.Sound) : q.Serves none q.close := by
  rcases h with ⟨free, ready, hrepresents⟩
  have hall := hrepresents.freeReady
  rw [← hrepresents.readyLength_eq] at hall
  refine ⟨⟨_, _, hall.2⟩, takes_none fun i => ?_, hall.1⟩
  simp only [AdmissionQueue.close, hall.2.isInUse_iff, hrepresents.isInUse_iff, hall.1,
    List.mem_append, List.mem_reverse, List.not_mem_nil, not_false_eq_true, and_true, not_or]
  exact ⟨fun hi => ⟨hi.1, hi.2.2, hi.2.1⟩, fun hi => ⟨hi.1, hi.2.2, hi.2.1⟩⟩

/-!
## Queues that are shut
-/

structure IsShut (q : AdmissionQueue) : Prop where
  closed : q.closed = true
  readyLength_eq : q.readyLength = 0

theorem Sound.isShut_close (h : q.Sound) : q.close.IsShut := by
  rcases h with ⟨free, ready, hrepresents⟩
  have hall := hrepresents.freeReady
  rw [← hrepresents.readyLength_eq] at hall
  exact ⟨rfl, hall.2.readyLength_eq⟩

theorem IsShut.request (h : q.IsShut) : q.request = (false, q) := by
  unfold AdmissionQueue.request
  rw [if_pos (by simp [h.closed])]

theorem IsShut.wake (h : q.IsShut) (hsound : q.Sound) :
    q.wake = (.refused, { q with drawers := q.drawers - 1 }) := by
  rcases hsound with ⟨free, ready, hrepresents⟩
  have hready : ready = [] := by
    apply List.eq_nil_of_length_eq_zero
    rw [← hrepresents.readyLength_eq]
    exact h.readyLength_eq
  subst hready
  simp only [AdmissionQueue.wake, hrepresents.popReady_nil, h.closed, if_true]

theorem IsShut.isShut_wake (h : q.IsShut) (hsound : q.Sound) : q.wake.2.IsShut := by
  rw [h.wake hsound]
  exact ⟨h.closed, h.readyLength_eq⟩

theorem IsShut.isShut_enter (h : q.IsShut) (hsound : q.Sound) : q.enter.2.IsShut :=
  isShut_wake (q := { q with drawers := q.drawers + 1 }) ⟨h.closed, h.readyLength_eq⟩ hsound

theorem IsShut.isShut_release (h : q.IsShut) {slot : Nat} {r : AdmissionQueue}
    (hr : q.release? slot = .ok r) : r.IsShut := by
  rcases bind_eq_ok.mp hr with ⟨c, hc, hr⟩
  rcases bind_eq_ok.mp hc with ⟨_, _, hc⟩
  rw [← pure_eq_ok.mp hr, ← pure_eq_ok.mp hc]
  exact ⟨h.closed, h.readyLength_eq⟩

theorem Sound.inUse_add_free_le (h : q.Sound) {slots : List Nat} (hnodup : slots.Nodup)
    (hinUse : forall i, i ∈ slots -> q.chain.IsInUse i) :
    slots.length + q.freeLength <= q.capacity := by
  rcases h with ⟨free, ready, hrepresents⟩
  exact hrepresents.inUse_add_free_le hnodup hinUse

theorem Sound.length_eq (h : q.Sound) (hidle : forall i, ¬ q.chain.IsInUse i) :
    q.freeLength + q.readyLength = q.capacity := by
  rcases h with ⟨free, ready, hrepresents⟩
  simp only [freeLength, readyLength, hrepresents.freeLength_eq, hrepresents.readyLength_eq]
  exact hrepresents.length_eq hidle

end AdmissionQueue
end AirDefense
