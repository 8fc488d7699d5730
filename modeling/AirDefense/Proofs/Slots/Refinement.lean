import AirDefense.Proofs.Calls
import AirDefense.Proofs.Slots.Writes
import Mathlib.Data.Finset.Card
import Mathlib.Data.Finset.Range

/-!
# A stack, a queue and a set

Under any calls a slot chain shows a stack of free slots, a queue of ready slots and the
set of the slots in use, and answers as they do.  The calls are also written out in single
writes, with every index and every count checked.  None of these checks fails, and a slot
that is refused has been refused before anything was written.
-/

namespace AirDefense

/-!
## The lists
-/

structure SlotLists where
  free : List Nat
  ready : List Nat
  inUse : Finset Nat
deriving DecidableEq

namespace SlotLists

def allFree (capacity : Nat) : SlotLists := ⟨List.range capacity, [], ∅⟩

/-- Every slot below the capacity is in one place, and no other slot is. -/
structure Partition (capacity : Nat) (l : SlotLists) : Prop where
  distinct : (l.free ++ l.ready).Nodup
  apart : Disjoint (l.free ++ l.ready).toFinset l.inUse
  all : (l.free ++ l.ready).toFinset ∪ l.inUse = Finset.range capacity

def refusal (capacity slot : Nat) : ChainFault :=
  .contract (if slot < capacity then .slotNotInUse slot else .slotOutOfRange slot capacity)

/--
A call on the lists.  The free slots are a stack and the ready slots a queue; what is taken
off either is in use, and only what is in use may be given back.
-/
def perform (capacity : Nat) (l : SlotLists) : ChainCall -> ChainAnswer × SlotLists
  | .popFree =>
      match l.free with
      | [] => (.taken none, l)
      | slot :: rest => (.taken (some slot), ⟨rest, l.ready, insert slot l.inUse⟩)
  | .popReady =>
      match l.ready with
      | [] => (.taken none, l)
      | slot :: rest => (.taken (some slot), ⟨l.free, rest, insert slot l.inUse⟩)
  | .pushFree slot =>
      if slot ∈ l.inUse then (.given, ⟨slot :: l.free, l.ready, l.inUse.erase slot⟩)
      else (.failed (refusal capacity slot), l)
  | .pushReady slot =>
      if slot ∈ l.inUse then (.given, ⟨l.free, l.ready ++ [slot], l.inUse.erase slot⟩)
      else (.failed (refusal capacity slot), l)

end SlotLists

namespace SlotChain

/-!
## What a chain denotes
-/

structure Denotes (capacity : Nat) (c : SlotChain) (l : SlotLists) : Prop where
  capacity_eq : c.capacity = capacity
  represents : c.Represents l.free l.ready
  mem_inUse : forall i, i ∈ l.inUse ↔ c.IsInUse i

variable {capacity : Nat} {c d : SlotChain} {l : SlotLists} {slot : Nat}

theorem denotes_allFree (h : ofCapacity? capacity = .ok c) :
    c.Denotes capacity (.allFree capacity) := by
  rcases ofCapacity?_represents h with ⟨hcapacity, hrepresents⟩
  refine ⟨hcapacity, hrepresents, fun i => ?_⟩
  rw [hrepresents.isInUse_iff, hcapacity, List.mem_range]
  constructor
  · intro hi
    exact absurd hi (Finset.notMem_empty i)
  · rintro ⟨hlt, hnot, _⟩
    exact absurd hlt hnot

namespace Denotes

theorem partition (h : c.Denotes capacity l) : l.Partition capacity := by
  refine ⟨h.represents.distinct, ?_, ?_⟩
  · rw [Finset.disjoint_left]
    intro i hi hinUse
    rcases h.represents.isInUse_iff.mp ((h.mem_inUse i).mp hinUse) with ⟨_, hfree, hready⟩
    rw [List.mem_toFinset, List.mem_append] at hi
    exact hi.elim hfree hready
  · ext i
    rw [Finset.mem_union, List.mem_toFinset, List.mem_append, Finset.mem_range, h.mem_inUse,
      h.represents.isInUse_iff, ← h.capacity_eq]
    constructor
    · rintro ((hfree | hready) | hinUse)
      · exact h.represents.lt_of_mem_free hfree
      · exact h.represents.lt_of_mem_ready hready
      · exact hinUse.1
    · intro hlt
      by_cases hfree : i ∈ l.free
      · exact .inl (.inl hfree)
      · by_cases hready : i ∈ l.ready
        · exact .inl (.inr hready)
        · exact .inr ⟨hlt, hfree, hready⟩

theorem inUseLength_eq (h : c.Denotes capacity l) :
    c.freeLength + c.readyLength + l.inUse.card = capacity ∧ c.inUseLength = l.inUse.card := by
  have hpartition := h.partition
  have hcard := Finset.card_union_of_disjoint hpartition.apart
  rw [hpartition.all, Finset.card_range, List.toFinset_card_of_nodup hpartition.distinct,
    List.length_append, ← h.represents.freeLength_eq, ← h.represents.readyLength_eq] at hcard
  have hcapacity := h.capacity_eq
  unfold inUseLength
  omega

/-!
## One call
-/

theorem take {free ready : List Nat} (h : c.Denotes capacity l)
    (hcapacity : d.capacity = c.capacity) (hd : d.Represents free ready)
    (hlisted : forall i, i ∈ l.free ∨ i ∈ l.ready ↔ i = slot ∨ i ∈ free ∨ i ∈ ready)
    (hslot : slot ∉ free ∧ slot ∉ ready) (hlt : slot < c.capacity) :
    d.Denotes capacity ⟨free, ready, insert slot l.inUse⟩ := by
  refine ⟨hcapacity.trans h.capacity_eq, hd, fun i => ?_⟩
  have hi := hlisted i
  rw [Finset.mem_insert, h.mem_inUse, h.represents.isInUse_iff, hd.isInUse_iff, hcapacity]
  by_cases heq : i = slot
  · subst heq
    simp [hslot, hlt]
  · simp only [heq, false_or] at hi ⊢
    rw [← not_or, hi, not_or]

theorem give {free ready : List Nat} (h : c.Denotes capacity l)
    (hcapacity : d.capacity = c.capacity) (hd : d.Represents free ready)
    (hlisted : forall i, i ∈ free ∨ i ∈ ready ↔ i = slot ∨ i ∈ l.free ∨ i ∈ l.ready) :
    d.Denotes capacity ⟨free, ready, l.inUse.erase slot⟩ := by
  refine ⟨hcapacity.trans h.capacity_eq, hd, fun i => ?_⟩
  have hi := not_congr (hlisted i)
  rw [not_or, not_or, not_or] at hi
  rw [Finset.mem_erase, h.mem_inUse, h.represents.isInUse_iff, hd.isInUse_iff, hcapacity, hi]
  exact and_left_comm

theorem expectInUse?_eq (h : c.Denotes capacity l) (slot : Nat) :
    c.expectInUse? slot =
      if slot ∈ l.inUse then .ok ()
      else
        .error (if slot < capacity then .slotNotInUse slot else .slotOutOfRange slot capacity) := by
  by_cases hslot : slot ∈ l.inUse
  · rw [if_pos hslot]
    exact expectInUse?_of_isInUse h.represents ((h.mem_inUse slot).mp hslot)
  · have hplace : ¬ c.place[slot]? = some .inUse := fun hinUse =>
      hslot ((h.mem_inUse slot).mpr hinUse)
    rw [if_neg hslot, expectInUse?, if_neg hplace, h.capacity_eq]
    split <;> rfl

theorem perform (h : c.Denotes capacity l) (call : ChainCall) :
    (c.perform call).1 = (l.perform capacity call).1 ∧
      (c.perform call).2.Denotes capacity (l.perform capacity call).2 := by
  have hlists := h.represents
  rcases l with ⟨free, ready, inUse⟩
  cases call with
  | popFree =>
      cases free with
      | nil =>
          simp only [SlotChain.perform, SlotLists.perform, hlists.popFree_nil]
          exact ⟨rfl, h⟩
      | cons slot rest =>
          rcases hlists.popFree_cons with ⟨d, hpop, hcapacity, hd⟩
          have hdistinct : slot ∉ rest ++ ready := (List.nodup_cons.mp hlists.distinct).1
          rw [List.mem_append, not_or] at hdistinct
          simp only [SlotChain.perform, SlotLists.perform, hpop]
          refine ⟨rfl, h.take hcapacity hd (fun i => ?_) hdistinct
            (hlists.lt_of_mem_free List.mem_cons_self)⟩
          rw [List.mem_cons, or_assoc]
  | popReady =>
      cases ready with
      | nil =>
          simp only [SlotChain.perform, SlotLists.perform, hlists.popReady_nil]
          exact ⟨rfl, h⟩
      | cons slot rest =>
          rcases hlists.popReady_cons with ⟨d, hpop, hcapacity, hd⟩
          have hdistinct : slot ∉ free ++ rest :=
            (List.nodup_cons.mp (List.perm_middle.nodup_iff.mp hlists.distinct)).1
          rw [List.mem_append, not_or] at hdistinct
          simp only [SlotChain.perform, SlotLists.perform, hpop]
          refine ⟨rfl, h.take hcapacity hd (fun i => ?_) hdistinct
            (hlists.lt_of_mem_ready List.mem_cons_self)⟩
          rw [List.mem_cons, or_left_comm]
  | pushFree slot =>
      have hcheck := h.expectInUse?_eq slot
      by_cases hslot : slot ∈ inUse
      · rw [if_pos hslot] at hcheck
        have hd := hlists.stack ((h.mem_inUse slot).mp hslot)
        simp only [SlotChain.perform, SlotLists.perform, pushFree?, hcheck, if_pos hslot]
        refine ⟨rfl, h.give (capacity_stack c slot) hd fun i => ?_⟩
        rw [List.mem_cons, or_assoc]
      · rw [if_neg hslot] at hcheck
        simp only [SlotChain.perform, SlotLists.perform, pushFree?, hcheck, if_neg hslot]
        exact ⟨rfl, h⟩
  | pushReady slot =>
      have hcheck := h.expectInUse?_eq slot
      by_cases hslot : slot ∈ inUse
      · rw [if_pos hslot] at hcheck
        have hd := hlists.enqueue ((h.mem_inUse slot).mp hslot)
        simp only [SlotChain.perform, SlotLists.perform, pushReady?, hcheck, if_pos hslot]
        refine ⟨rfl, h.give (capacity_enqueue c slot) hd fun i => ?_⟩
        rw [List.mem_append, List.mem_singleton, ← or_assoc, or_comm]
      · rw [if_neg hslot] at hcheck
        simp only [SlotChain.perform, SlotLists.perform, pushReady?, hcheck, if_neg hslot]
        exact ⟨rfl, h⟩

/-!
## Any number of calls
-/

theorem run (h : c.Denotes capacity l) (calls : List ChainCall) :
    (runCalls SlotChain.perform c calls).1 =
        (runCalls (SlotLists.perform capacity) l calls).1 ∧
      (runCalls SlotChain.perform c calls).2.Denotes capacity
        (runCalls (SlotLists.perform capacity) l calls).2 :=
  runCalls_related (fun _ _ hdenotes call => hdenotes.perform call) h calls

theorem run_writes (h : c.Denotes capacity l) (calls : List ChainCall) :
    runCalls ChainWrites.perform c calls = runCalls SlotChain.perform c calls := by
  have hstep : forall c d, (d = c ∧ exists l, c.Denotes capacity l) -> forall call,
      (ChainWrites.perform c call).1 = (SlotChain.perform d call).1 ∧
        (SlotChain.perform d call).2 = (ChainWrites.perform c call).2 ∧
          exists l, (ChainWrites.perform c call).2.Denotes capacity l := by
    rintro c d ⟨rfl, l, hl⟩ call
    rw [ChainWrites.perform_eq hl.represents]
    exact ⟨rfl, rfl, _, (hl.perform call).2⟩
  rcases runCalls_related hstep ⟨rfl, l, h⟩ calls with ⟨hanswers, hlast, _⟩
  exact Prod.ext hanswers hlast.symm

end Denotes

/--
Whatever is called, in whatever order, a chain with any slots answers as a stack, a queue
and a set do, and shows them: its links lead from the free head through the stack and from
the ready head through the queue to the ready tail, its counts are their lengths, and they
and the slots in use are a partition of the slots below the capacity.  Every single read and
write along the way succeeds, but for the slots that are refused.
-/
theorem chain_refines_lists {capacity : Nat} (h : 0 < capacity) :
    exists c, ofCapacity? capacity = .ok c ∧ forall calls : List ChainCall,
      let lists := runCalls (SlotLists.perform capacity) (.allFree capacity) calls
      let chain := runCalls SlotChain.perform c calls
      chain.1 = lists.1 ∧ runCalls ChainWrites.perform c calls = chain ∧
        chain.2.Represents lists.2.free lists.2.ready ∧ lists.2.Partition capacity ∧
        (forall i, i ∈ lists.2.inUse ↔ chain.2.IsInUse i) ∧
        chain.2.freeLength + chain.2.readyLength <= capacity ∧
        chain.2.inUseLength = lists.2.inUse.card := by
  rcases exists_ofCapacity? (Nat.pos_iff_ne_zero.mp h) with ⟨c, hc⟩
  have hfresh := denotes_allFree hc
  refine ⟨c, hc, fun calls => ?_⟩
  rcases hfresh.run calls with ⟨hanswers, hlast⟩
  have hcounts := hlast.inUseLength_eq
  exact ⟨hanswers, hfresh.run_writes calls, hlast.represents, hlast.partition, hlast.mem_inUse,
    by omega, hcounts.2⟩

def queued : List ChainCall :=
  [.popFree, .pushReady 0, .popFree, .pushReady 1, .pushFree 0, .pushFree 3, .popReady,
    .pushFree 0, .popReady, .popReady]

theorem chain_refines_lists_three :
    0 < 3 ∧ exists c, ofCapacity? 3 = .ok c ∧
      (runCalls ChainWrites.perform c queued).1 =
        [.taken (some 0), .given, .taken (some 1), .given,
          .failed (.contract (.slotNotInUse 0)), .failed (.contract (.slotOutOfRange 3 3)),
          .taken (some 0), .given, .taken (some 1), .taken none] ∧
      (runCalls ChainWrites.perform c queued).2.Represents [0, 2] [] ∧
      (runCalls ChainWrites.perform c queued).2.inUseLength = 1 := by
  rcases chain_refines_lists (show 0 < 3 by decide) with ⟨c, hc, hcalls⟩
  rcases hcalls queued with ⟨hanswers, hwrites, hlists, _, _, _, hlength⟩
  refine ⟨by decide, c, hc, ?_⟩
  rw [hwrites]
  exact ⟨hanswers, hlists, hlength⟩

end SlotChain
end AirDefense
