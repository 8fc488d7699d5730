import AirDefense.Slots.Chain
import Mathlib.Data.List.Nodup
import Mathlib.Data.List.Perm.Subperm

/-!
# Chains as lists

A slot chain stands for a stack of free slots and a queue of ready slots; every
other slot below the capacity is in use.  Both lists are linked through one
array, and each operation is shown to do to them what it does to a stack and a
queue.
-/

namespace AirDefense
namespace SlotChain

/-!
## Links

What an operation writes into the links is seen through `after` only.
-/

theorem after_link (c : SlotChain) (i j : Nat) (target : Option Nat) :
    (c.link i target).after j =
      if j = i ∧ i < c.capacity then target else c.after j := by
  unfold after link capacity
  rw [Array.getElem?_setIfInBounds]
  by_cases hij : i = j
  · subst j
    by_cases hi : i < c.next.size
    · simp [hi]
    · simp [hi]
  · simp [hij, Ne.symm hij]

@[simp] theorem after_setPlace (c : SlotChain) (i j : Nat) (p : SlotPlace) :
    (c.setPlace i p).after j = c.after j := rfl

@[simp] theorem capacity_link (c : SlotChain) (i : Nat) (target : Option Nat) :
    (c.link i target).capacity = c.capacity := by
  simp [capacity, link]

@[simp] theorem capacity_stack (c : SlotChain) (i : Nat) :
    (c.stack i).capacity = c.capacity := by
  simp [stack, capacity, link, setPlace]

@[simp] theorem capacity_enqueue (c : SlotChain) (i : Nat) :
    (c.enqueue i).capacity = c.capacity := by
  unfold enqueue
  cases c.readyTail <;> simp [capacity, link, setPlace]

/-- The links lead from `start` through `slots`, and on to `finish`. -/
def Leads (c : SlotChain) : Option Nat -> List Nat -> Option Nat -> Prop
  | start, [], finish => start = finish
  | start, slot :: rest, finish =>
      start = some slot ∧ c.Leads (c.after slot) rest finish

theorem leads_append {c : SlotChain} {start finish : Option Nat} {xs ys : List Nat} :
    c.Leads start (xs ++ ys) finish ↔
      exists middle, c.Leads start xs middle ∧ c.Leads middle ys finish := by
  induction xs generalizing start with
  | nil =>
      simp [Leads]
  | cons x xs ih =>
      simp only [List.cons_append, Leads, ih]
      constructor
      · intro h
        rcases h with ⟨hstart, middle, hxs, hys⟩
        exact ⟨middle, ⟨hstart, hxs⟩, hys⟩
      · intro h
        rcases h with ⟨middle, ⟨hstart, hxs⟩, hys⟩
        exact ⟨hstart, middle, hxs, hys⟩

theorem Leads.congr {c d : SlotChain} {start finish : Option Nat} {slots : List Nat}
    (h : c.Leads start slots finish)
    (hafter : forall i, i ∈ slots -> d.after i = c.after i) :
    d.Leads start slots finish := by
  induction slots generalizing start with
  | nil =>
      exact h
  | cons slot rest ih =>
      rcases h with ⟨hstart, hrest⟩
      have hslot : d.after slot = c.after slot := hafter slot (List.mem_cons_self ..)
      refine ⟨hstart, ?_⟩
      rw [hslot]
      exact ih hrest fun i hi => hafter i (List.mem_cons_of_mem _ hi)

theorem walk_of_leads {c : SlotChain} {start : Option Nat} {slots : List Nat}
    (h : c.Leads start slots none) {n : Nat} (hn : slots.length <= n) :
    c.walk n start = slots := by
  induction slots generalizing start n with
  | nil =>
      rw [show start = none from h]
      cases n <;> rfl
  | cons slot rest ih =>
      rcases h with ⟨hstart, hrest⟩
      cases n with
      | zero =>
          simp at hn
      | succ n =>
          rw [hstart, walk, ih hrest (by simpa using hn)]

/-!
## The lists behind a chain
-/

/-- The chain stands for the stack `free` and the queue `ready`. -/
structure Represents (c : SlotChain) (free ready : List Nat) : Prop where
  size_place : c.place.size = c.capacity
  distinct : (free ++ ready).Nodup
  leads_free : c.Leads c.freeHead free none
  leads_ready : c.Leads c.readyHead ready none
  readyTail_eq : c.readyTail = ready.getLast?
  freeLength_eq : c.freeLength = free.length
  readyLength_eq : c.readyLength = ready.length
  place_free : forall i, c.place[i]? = some .free ↔ i ∈ free
  place_ready : forall i, c.place[i]? = some .ready ↔ i ∈ ready

namespace Represents

variable {c : SlotChain} {free ready : List Nat}

theorem lt_of_mem_free (h : c.Represents free ready) {i : Nat} (hi : i ∈ free) :
    i < c.capacity := by
  have hplace : c.place[i]? = some .free := (h.place_free i).mpr hi
  rw [← h.size_place]
  exact (Array.getElem?_eq_some_iff.mp hplace).1

theorem lt_of_mem_ready (h : c.Represents free ready) {i : Nat} (hi : i ∈ ready) :
    i < c.capacity := by
  have hplace : c.place[i]? = some .ready := (h.place_ready i).mpr hi
  rw [← h.size_place]
  exact (Array.getElem?_eq_some_iff.mp hplace).1

/-- A slot is in use when it is on neither list. -/
theorem isInUse_iff (h : c.Represents free ready) {i : Nat} :
    c.IsInUse i ↔ i < c.capacity ∧ i ∉ free ∧ i ∉ ready := by
  unfold IsInUse
  rw [← h.place_free, ← h.place_ready, ← h.size_place]
  constructor
  · intro hplace
    have hi : i < c.place.size := (Array.getElem?_eq_some_iff.mp hplace).1
    rw [hplace]
    exact ⟨hi, by simp, by simp⟩
  · intro hi
    rcases hi with ⟨hlt, hfree, hready⟩
    rw [Array.getElem?_eq_getElem hlt] at hfree hready ⊢
    cases hplace : c.place[i] with
    | free => simp [hplace] at hfree
    | ready => simp [hplace] at hready
    | inUse => rfl

theorem lt_of_isInUse (h : c.Represents free ready) {i : Nat} (hi : c.IsInUse i) :
    i < c.capacity :=
  (h.isInUse_iff.mp hi).1

theorem length_le (h : c.Represents free ready) :
    free.length + ready.length <= c.capacity := by
  have hsubset : free ++ ready ⊆ List.range c.capacity := by
    intro i hi
    rcases List.mem_append.mp hi with hfree | hready
    · exact List.mem_range.mpr (h.lt_of_mem_free hfree)
    · exact List.mem_range.mpr (h.lt_of_mem_ready hready)
  have hlength := (List.subperm_of_subset h.distinct hsubset).length_le
  simpa using hlength

theorem inUse_add_free_le (h : c.Represents free ready) {slots : List Nat} (hnodup : slots.Nodup)
    (hinUse : forall i, i ∈ slots -> c.IsInUse i) :
    slots.length + c.freeLength <= c.capacity := by
  have hapart : (slots ++ free).Nodup := by
    refine hnodup.append h.distinct.of_append_left fun i hi hfree => ?_
    exact (h.isInUse_iff.mp (hinUse i hi)).2.1 hfree
  have hsubset : slots ++ free ⊆ List.range c.capacity := by
    intro i hi
    rcases List.mem_append.mp hi with hused | hfree
    · exact List.mem_range.mpr (h.lt_of_isInUse (hinUse i hused))
    · exact List.mem_range.mpr (h.lt_of_mem_free hfree)
  have hlength := (List.subperm_of_subset hapart hsubset).length_le
  rwa [List.length_append, List.length_range, ← h.freeLength_eq] at hlength

theorem length_eq (h : c.Represents free ready) (hidle : forall i, ¬ c.IsInUse i) :
    free.length + ready.length = c.capacity := by
  have hlisted : List.range c.capacity ⊆ free ++ ready := by
    intro i hi
    by_contra hnot
    rw [List.mem_append, not_or] at hnot
    exact hidle i (h.isInUse_iff.mpr ⟨List.mem_range.mp hi, hnot⟩)
  have hlength := (List.subperm_of_subset List.nodup_range hlisted).length_le
  rw [List.length_range, List.length_append] at hlength
  exact Nat.le_antisymm h.length_le hlength

theorem free_eq (h : c.Represents free ready) : c.free = free :=
  walk_of_leads h.leads_free (by have := h.length_le; omega)

theorem ready_eq (h : c.Represents free ready) : c.ready = ready :=
  walk_of_leads h.leads_ready (by have := h.length_le; omega)

end Represents

/-!
## Fresh chains
-/

theorem exists_ofCapacity? {capacity : Nat} (h : capacity ≠ 0) :
    exists c, ofCapacity? capacity = .ok c :=
  ⟨_, if_neg h⟩

theorem exists_build? {capacity : Nat} (h : capacity ≠ 0) (hroom : capacity <= room) :
    exists c, build? capacity = .ok c := by
  unfold build?
  rw [if_neg (Nat.not_lt.mpr hroom)]
  exact exists_ofCapacity? h

private theorem leads_range {c : SlotChain} {n : Nat}
    (hafter : forall i, i < n -> c.after i = if i + 1 < n then some (i + 1) else none)
    (k : Nat) (hk : k <= n) :
    c.Leads (if n - k < n then some (n - k) else none) (List.range' (n - k) k) none := by
  induction k with
  | zero =>
      simp [Leads]
  | succ k ih =>
      have hlt : n - (k + 1) < n := by omega
      have hnext : n - (k + 1) + 1 = n - k := by omega
      rw [List.range'_succ, hnext]
      refine ⟨by simp [hlt], ?_⟩
      rw [hafter _ hlt, hnext]
      exact ih (by omega)

theorem ofCapacity?_represents {n : Nat} {c : SlotChain} (h : ofCapacity? n = .ok c) :
    c.capacity = n ∧ c.Represents (List.range n) [] := by
  unfold ofCapacity? at h
  by_cases hn : n = 0
  · simp [hn] at h
  · rw [if_neg hn] at h
    injection h with h
    have hplace : forall i, c.place[i]? = if i < n then some .free else none := by
      intro i
      rw [← h]
      simp [Array.getElem?_replicate]
    have hcapacity : c.capacity = n := by
      rw [← h]
      simp [capacity]
    have hafter : forall i, i < n ->
        c.after i = if i + 1 < n then some (i + 1) else none := by
      intro i hi
      rw [← h]
      simp [after, hi]
    have hleads := leads_range hafter n (Nat.le_refl n)
    refine ⟨hcapacity, ?_⟩
    exact
      { size_place := by rw [hcapacity, ← h]; simp
        distinct := by simpa using List.nodup_range
        leads_free := by
          rw [← h] at hleads ⊢
          simpa [Nat.pos_of_ne_zero hn, List.range_eq_range'] using hleads
        leads_ready := by rw [← h]; rfl
        readyTail_eq := by rw [← h]; rfl
        freeLength_eq := by rw [← h]; simp
        readyLength_eq := by rw [← h]; rfl
        place_free := by intro i; rw [hplace i]; simp
        place_ready := by intro i; rw [hplace i]; simp }

theorem build?_represents {n : Nat} {c : SlotChain} (h : build? n = .ok c) :
    c.capacity = n ∧ c.Represents (List.range n) [] := by
  unfold build? at h
  split at h
  · cases h
  · exact ofCapacity?_represents h

/-!
## Steps

Every operation changes the place of one slot and a link or two.
-/

theorem place_setPlace {c : SlotChain} {i : Nat} (hi : i < c.place.size) (p : SlotPlace)
    (j : Nat) :
    (c.setPlace i p).place[j]? = if j = i then some p else c.place[j]? := by
  unfold setPlace
  rw [Array.getElem?_setIfInBounds]
  by_cases hij : i = j
  · subst j
    simp [hi]
  · simp [hij, Ne.symm hij]

theorem place_relink {c : SlotChain} {i : Nat} (hi : i < c.place.size) (target : Option Nat)
    (p : SlotPlace) (j : Nat) :
    ((c.link i target).setPlace i p).place[j]? = if j = i then some p else c.place[j]? :=
  place_setPlace (c := c.link i target) hi p j

theorem after_relink {c : SlotChain} {i : Nat} (hi : i < c.capacity) (target : Option Nat)
    (p : SlotPlace) (j : Nat) :
    ((c.link i target).setPlace i p).after j = if j = i then target else c.after j := by
  rw [after_setPlace, after_link]
  simp only [hi, and_true]

theorem size_place_relink (c : SlotChain) (i : Nat) (target : Option Nat) (p : SlotPlace) :
    ((c.link i target).setPlace i p).place.size = c.place.size := by
  simp [link, setPlace]

section Enqueue

variable {c : SlotChain} {i : Nat}

theorem freeHead_enqueue : (c.enqueue i).freeHead = c.freeHead := by
  unfold enqueue
  cases c.readyTail <;> rfl

theorem freeLength_enqueue : (c.enqueue i).freeLength = c.freeLength := by
  unfold enqueue
  cases c.readyTail <;> rfl

theorem readyHead_enqueue :
    (c.enqueue i).readyHead = if c.readyTail.isNone then some i else c.readyHead := by
  unfold enqueue
  cases c.readyTail <;> rfl

theorem readyTail_enqueue : (c.enqueue i).readyTail = some i := by
  unfold enqueue
  cases c.readyTail <;> rfl

theorem readyLength_enqueue : (c.enqueue i).readyLength = c.readyLength + 1 := by
  unfold enqueue
  cases c.readyTail <;> rfl

theorem size_place_enqueue : (c.enqueue i).place.size = c.place.size := by
  unfold enqueue
  cases c.readyTail <;> simp [link, setPlace]

theorem place_enqueue (hi : i < c.place.size) (j : Nat) :
    (c.enqueue i).place[j]? = if j = i then some .ready else c.place[j]? := by
  unfold enqueue
  cases c.readyTail with
  | none =>
      exact place_setPlace (c := { c.link i none with
        readyHead := some i
        readyTail := some i
        readyLength := c.readyLength + 1 }) hi .ready j
  | some last =>
      exact place_setPlace (c := { (c.link i none).link last (some i) with
        readyTail := some i
        readyLength := c.readyLength + 1 }) hi .ready j

theorem after_enqueue (hi : i < c.capacity)
    (htail : forall last, c.readyTail = some last -> last < c.capacity) (j : Nat) :
    (c.enqueue i).after j =
      if some j = c.readyTail then some i else if j = i then none else c.after j := by
  have hunlinked : (c.link i none).after j = if j = i then none else c.after j := by
    rw [after_link]
    simp only [hi, and_true]
  unfold enqueue
  cases hlast : c.readyTail with
  | none =>
      rw [after_setPlace, if_neg (by simp)]
      exact hunlinked
  | some last =>
      have hlt : last < (c.link i none).capacity := by
        rw [capacity_link]
        exact htail last hlast
      rw [after_setPlace]
      refine (after_link (c.link i none) last j (some i)).trans ?_
      simp only [hlt, and_true, hunlinked, Option.some.injEq]

end Enqueue

private theorem place_iff {c d : SlotChain} {i : Nat} {p q : SlotPlace}
    {before after : List Nat}
    (hd : forall j, d.place[j]? = if j = i then some p else c.place[j]?)
    (hc : forall j, c.place[j]? = some q ↔ j ∈ before)
    (hself : i ∈ after ↔ p = q)
    (hothers : forall j, j ≠ i -> (j ∈ after ↔ j ∈ before)) (j : Nat) :
    d.place[j]? = some q ↔ j ∈ after := by
  rw [hd]
  by_cases hj : j = i
  · simp [hj, hself]
  · rw [if_neg hj, hc, hothers j hj]

namespace Represents

variable {c : SlotChain} {free ready : List Nat} {i : Nat}

/-!
### Taking

What is taken off a list is in use, because it is on neither list any more.
-/

theorem popFree_nil (h : c.Represents [] ready) : c.popFree = none := by
  have hhead : c.freeHead = none := h.leads_free
  simp [popFree, hhead]

theorem popFree_cons (h : c.Represents (i :: free) ready) :
    exists d, c.popFree = some (i, d) ∧ d.capacity = c.capacity ∧
      d.Represents free ready := by
  rcases h.leads_free with ⟨hhead, hrest⟩
  have hi : i < c.place.size := by
    rw [h.size_place]
    exact h.lt_of_mem_free (List.mem_cons_self ..)
  have hdistinct : i ∉ free ++ ready ∧ (free ++ ready).Nodup :=
    List.nodup_cons.mp h.distinct
  have hfree : i ∉ free := fun hmem => hdistinct.1 (List.mem_append_left _ hmem)
  have hready : i ∉ ready := fun hmem => hdistinct.1 (List.mem_append_right _ hmem)
  generalize hd : ({ c with
    freeHead := c.after i
    freeLength := c.freeLength - 1 }.link i none).setPlace i .inUse = d
  have hpop : c.popFree = some (i, d) := by rw [popFree, hhead, ← hd]
  have hcapacity : d.capacity = c.capacity := by rw [← hd]; simp [capacity, link, setPlace]
  have hplace : forall j, d.place[j]? = if j = i then some .inUse else c.place[j]? := by
    rw [← hd]
    exact place_relink (c := { c with
      freeHead := c.after i
      freeLength := c.freeLength - 1 }) hi none .inUse
  have hafter : forall j, j ≠ i -> d.after j = c.after j := by
    intro j hj
    rw [← hd, after_setPlace, after_link, if_neg (by simp [hj])]
    rfl
  refine ⟨d, hpop, hcapacity, ?_⟩
  exact
    { size_place := by
        rw [hcapacity, ← h.size_place, ← hd]
        exact size_place_relink ..
      distinct := hdistinct.2
      leads_free := by
        rw [show d.freeHead = c.after i by rw [← hd]; rfl]
        exact hrest.congr fun j hj => hafter j fun heq => hfree (heq ▸ hj)
      leads_ready := by
        rw [show d.readyHead = c.readyHead by rw [← hd]; rfl]
        exact h.leads_ready.congr fun j hj => hafter j fun heq => hready (heq ▸ hj)
      readyTail_eq := by rw [← h.readyTail_eq, ← hd]; rfl
      freeLength_eq := by
        have hlength := h.freeLength_eq
        simp only [List.length_cons] at hlength
        rw [← hd]
        simp [link, setPlace, hlength]
      readyLength_eq := by rw [← h.readyLength_eq, ← hd]; rfl
      place_free := place_iff hplace h.place_free (by simp [hfree])
        (by intro j hj; simp [hj])
      place_ready := place_iff hplace h.place_ready (by simp [hready])
        (by intro j hj; rfl) }

theorem popReady_nil (h : c.Represents free []) : c.popReady = none := by
  have hhead : c.readyHead = none := h.leads_ready
  simp [popReady, hhead]

theorem popReady_cons (h : c.Represents free (i :: ready)) :
    exists d, c.popReady = some (i, d) ∧ d.capacity = c.capacity ∧
      d.Represents free ready := by
  rcases h.leads_ready with ⟨hhead, hrest⟩
  have hi : i < c.place.size := by
    rw [h.size_place]
    exact h.lt_of_mem_ready (List.mem_cons_self ..)
  have hdistinct : i ∉ free ++ ready ∧ (free ++ ready).Nodup :=
    List.nodup_cons.mp (List.perm_middle.nodup_iff.mp h.distinct)
  have hfree : i ∉ free := fun hmem => hdistinct.1 (List.mem_append_left _ hmem)
  have hready : i ∉ ready := fun hmem => hdistinct.1 (List.mem_append_right _ hmem)
  generalize hd : ({ c with
    readyHead := c.after i
    readyTail := if (c.after i).isNone then none else c.readyTail
    readyLength := c.readyLength - 1 }.link i none).setPlace i .inUse = d
  have hpop : c.popReady = some (i, d) := by rw [popReady, hhead, ← hd]
  have hcapacity : d.capacity = c.capacity := by rw [← hd]; simp [capacity, link, setPlace]
  have hplace : forall j, d.place[j]? = if j = i then some .inUse else c.place[j]? := by
    rw [← hd]
    exact place_relink (c := { c with
      readyHead := c.after i
      readyTail := if (c.after i).isNone then none else c.readyTail
      readyLength := c.readyLength - 1 }) hi none .inUse
  have hafter : forall j, j ≠ i -> d.after j = c.after j := by
    intro j hj
    rw [← hd, after_setPlace, after_link, if_neg (by simp [hj])]
    rfl
  refine ⟨d, hpop, hcapacity, ?_⟩
  exact
    { size_place := by
        rw [hcapacity, ← h.size_place, ← hd]
        exact size_place_relink ..
      distinct := hdistinct.2
      leads_free := by
        rw [show d.freeHead = c.freeHead by rw [← hd]; rfl]
        exact h.leads_free.congr fun j hj => hafter j fun heq => hfree (heq ▸ hj)
      leads_ready := by
        rw [show d.readyHead = c.after i by rw [← hd]; rfl]
        exact hrest.congr fun j hj => hafter j fun heq => hready (heq ▸ hj)
      readyTail_eq := by
        rw [show d.readyTail = if (c.after i).isNone then none else c.readyTail by
          rw [← hd]; rfl]
        cases ready with
        | nil =>
            rw [show c.after i = none from hrest]
            rfl
        | cons k rest =>
            rw [hrest.1, h.readyTail_eq]
            simp
      freeLength_eq := by rw [← h.freeLength_eq, ← hd]; rfl
      readyLength_eq := by
        have hlength := h.readyLength_eq
        simp only [List.length_cons] at hlength
        rw [← hd]
        simp [link, setPlace, hlength]
      place_free := place_iff hplace h.place_free (by simp [hfree])
        (by intro j hj; rfl)
      place_ready := place_iff hplace h.place_ready (by simp [hready])
        (by intro j hj; simp [hj]) }

/-!
### Giving back
-/

theorem stack (h : c.Represents free ready) (hi : c.IsInUse i) :
    (c.stack i).Represents (i :: free) ready := by
  rcases h.isInUse_iff.mp hi with ⟨hlt, hfree, hready⟩
  generalize hd : c.stack i = d
  have hcapacity : d.capacity = c.capacity := by rw [← hd, capacity_stack]
  have hplace : forall j, d.place[j]? = if j = i then some .free else c.place[j]? := by
    have hsize : i < c.place.size := by
      rw [h.size_place]
      exact hlt
    rw [← hd]
    exact place_relink (c := { c with
      freeHead := some i
      freeLength := c.freeLength + 1 }) hsize c.freeHead .free
  have hafter : forall j, d.after j = if j = i then c.freeHead else c.after j := by
    rw [← hd]
    exact after_relink (c := { c with
      freeHead := some i
      freeLength := c.freeLength + 1 }) hlt c.freeHead .free
  have hkept : forall {start slots}, i ∉ slots -> c.Leads start slots none ->
      d.Leads start slots none := by
    intro start slots hnot hleads
    refine hleads.congr fun j hj => ?_
    rw [hafter, if_neg fun (heq : j = i) => hnot (heq ▸ hj)]
  exact
    { size_place := by
        rw [hcapacity, ← h.size_place, ← hd]
        exact size_place_relink ..
      distinct := by
        rw [List.cons_append, List.nodup_cons]
        exact ⟨by simp [hfree, hready], h.distinct⟩
      leads_free := by
        refine ⟨by rw [← hd]; rfl, ?_⟩
        rw [hafter, if_pos rfl]
        exact hkept hfree h.leads_free
      leads_ready := by
        rw [show d.readyHead = c.readyHead by rw [← hd]; rfl]
        exact hkept hready h.leads_ready
      readyTail_eq := by rw [← h.readyTail_eq, ← hd]; rfl
      freeLength_eq := by rw [← hd]; simp [SlotChain.stack, link, setPlace, h.freeLength_eq]
      readyLength_eq := by rw [← h.readyLength_eq, ← hd]; rfl
      place_free := place_iff hplace h.place_free (by simp)
        (by intro j hj; simp [hj])
      place_ready := place_iff hplace h.place_ready (by simp [hready])
        (by intro j hj; rfl) }

section Enqueue

variable (h : c.Represents free ready) (hi : c.IsInUse i)
include h hi

theorem after_enqueue (j : Nat) :
    (c.enqueue i).after j =
      if some j = c.readyTail then some i else if j = i then none else c.after j := by
  apply SlotChain.after_enqueue (h.lt_of_isInUse hi)
  intro last hlast
  rw [h.readyTail_eq] at hlast
  exact h.lt_of_mem_ready (List.mem_of_getLast? hlast)

theorem after_enqueue_self : (c.enqueue i).after i = none := by
  have hne : some i ≠ c.readyTail := by
    rw [h.readyTail_eq]
    exact fun heq => (h.isInUse_iff.mp hi).2.2 (List.mem_of_getLast? heq.symm)
  rw [h.after_enqueue hi, if_neg hne, if_pos rfl]

/-- A path that passes neither the new slot nor the last one is kept. -/
theorem leads_enqueue {start finish : Option Nat} {slots : List Nat}
    (hleads : c.Leads start slots finish) (hnot : i ∉ slots)
    (htail : forall j, j ∈ slots -> some j ≠ c.readyTail) :
    (c.enqueue i).Leads start slots finish := by
  refine hleads.congr fun j hj => ?_
  rw [h.after_enqueue hi, if_neg (htail j hj), if_neg fun (heq : j = i) => hnot (heq ▸ hj)]

theorem leads_free_enqueue : (c.enqueue i).Leads (c.enqueue i).freeHead free none := by
  rw [freeHead_enqueue]
  apply h.leads_enqueue hi h.leads_free (h.isInUse_iff.mp hi).2.1
  intro j hj heq
  rw [h.readyTail_eq] at heq
  exact (List.nodup_append.mp h.distinct).2.2 j hj j (List.mem_of_getLast? heq.symm) rfl

theorem leads_ready_enqueue :
    (c.enqueue i).Leads (c.enqueue i).readyHead (ready ++ [i]) none := by
  have hend := h.after_enqueue_self hi
  have hready := (h.isInUse_iff.mp hi).2.2
  rcases List.eq_nil_or_concat ready with hnil | ⟨front, last, hconcat⟩
  · have htail : c.readyTail = none := by
      rw [h.readyTail_eq, hnil]
      rfl
    rw [readyHead_enqueue, htail, hnil]
    exact ⟨rfl, hend⟩
  · rw [List.concat_eq_append] at hconcat
    subst hconcat
    have htail : c.readyTail = some last := by
      rw [h.readyTail_eq]
      simp
    rcases leads_append.mp h.leads_ready with ⟨middle, hfront, hlast⟩
    have hnodup : (front ++ [last]).Nodup := (List.nodup_append.mp h.distinct).2.1
    rw [readyHead_enqueue, htail, List.append_assoc]
    refine leads_append.mpr ⟨middle, ?_, hlast.1, ?_⟩
    · apply h.leads_enqueue hi hfront fun hmem => hready (List.mem_append_left _ hmem)
      intro j hj heq
      rw [htail] at heq
      injection heq with heq
      exact (List.nodup_append.mp hnodup).2.2 j hj last (List.mem_singleton_self _) heq
    · rw [h.after_enqueue hi, if_pos htail.symm]
      exact ⟨rfl, hend⟩

theorem enqueue : (c.enqueue i).Represents free (ready ++ [i]) := by
  rcases h.isInUse_iff.mp hi with ⟨hlt, hfree, hready⟩
  have hplace := place_enqueue (c := c) (i := i) (by rw [h.size_place]; exact hlt)
  exact
    { size_place := by rw [capacity_enqueue, size_place_enqueue, h.size_place]
      distinct := by
        rw [← List.append_assoc]
        apply h.distinct.append (List.nodup_singleton i)
        intro j hj hsame
        rw [List.mem_singleton.mp hsame, List.mem_append] at hj
        exact hj.elim hfree hready
      leads_free := h.leads_free_enqueue hi
      leads_ready := h.leads_ready_enqueue hi
      readyTail_eq := by simp [readyTail_enqueue]
      freeLength_eq := freeLength_enqueue.trans h.freeLength_eq
      readyLength_eq := by
        rw [readyLength_enqueue, h.readyLength_eq, List.length_append]
        rfl
      place_free := place_iff hplace h.place_free (by simp [hfree])
        (by intro j hj; rfl)
      place_ready := place_iff hplace h.place_ready (by simp)
        (by intro j hj; simp [hj]) }

end Enqueue

/-!
### Several at once
-/

theorem foldl_stack {slots : List Nat} (h : c.Represents free ready) (hnodup : slots.Nodup)
    (hinUse : forall i, i ∈ slots -> c.IsInUse i) :
    (slots.foldl SlotChain.stack c).capacity = c.capacity ∧
      (slots.foldl SlotChain.stack c).Represents (slots.reverse ++ free) ready := by
  induction slots generalizing c free with
  | nil =>
      exact ⟨rfl, h⟩
  | cons i rest ih =>
      rcases List.nodup_cons.mp hnodup with ⟨hi, hrest⟩
      have hstack := h.stack (hinUse i (List.mem_cons_self ..))
      have hkept : forall j, j ∈ rest -> (c.stack i).IsInUse j := by
        intro j hj
        rcases h.isInUse_iff.mp (hinUse j (List.mem_cons_of_mem _ hj)) with
          ⟨hlt, hfree, hready⟩
        have hne : j ≠ i := fun heq => hi (heq ▸ hj)
        exact hstack.isInUse_iff.mpr
          ⟨by rw [capacity_stack]; exact hlt, by simp [hne, hfree], hready⟩
      rcases ih hstack hrest hkept with ⟨hcapacity, hrepresents⟩
      refine ⟨by rw [List.foldl_cons, hcapacity, capacity_stack], ?_⟩
      simpa using hrepresents

theorem freeReady (h : c.Represents free ready) :
    (freeReady ready.length c).capacity = c.capacity ∧
      (freeReady ready.length c).Represents (ready.reverse ++ free) [] := by
  induction ready generalizing c free with
  | nil =>
      exact ⟨rfl, h⟩
  | cons i rest ih =>
      rcases h.popReady_cons with ⟨d, hpop, hcapacity, hd⟩
      have hi : d.IsInUse i := by
        have hmem : i ∈ i :: rest := List.mem_cons_self ..
        have hdistinct := List.nodup_append.mp h.distinct
        refine hd.isInUse_iff.mpr ⟨?_, ?_, (List.nodup_cons.mp hdistinct.2.1).1⟩
        · rw [hcapacity]
          exact h.lt_of_mem_ready hmem
        · exact fun hfree => hdistinct.2.2 i hfree i hmem rfl
      rcases ih (hd.stack hi) with ⟨hsame, hrest⟩
      rw [List.length_cons, SlotChain.freeReady, hpop]
      refine ⟨by rw [hsame, capacity_stack, hcapacity], ?_⟩
      simpa using hrest

end Represents

/-!
## Contract checks
-/

theorem expectInUse?_of_isInUse {c : SlotChain} {free ready : List Nat}
    (h : c.Represents free ready) {i : Nat} (hi : c.IsInUse i) :
    c.expectInUse? i = .ok () := by
  rw [expectInUse?, if_pos (h.lt_of_isInUse hi), if_pos (show _ = _ from hi)]

theorem expectInUse?_of_not_isInUse {c : SlotChain} {i : Nat} (hi : ¬ c.IsInUse i) :
    exists fault, c.expectInUse? i = .error fault := by
  unfold expectInUse?
  rw [if_neg (show ¬ c.place[i]? = _ from hi)]
  by_cases hlt : i < c.capacity
  · exact ⟨_, if_pos hlt⟩
  · exact ⟨_, if_neg hlt⟩

end SlotChain
end AirDefense
