import AirDefense.Field.Lock
import AirDefense.Proofs.Callers

/-!
# Exclusion at the field lock

Any number of callers take the field lock and give it up again, each at the tiers
it likes.  A caller that has to wait is woken by a step of its own, which may come
late and may come before its turn.  The lock has one owner at most, and it has one
as long as anybody waits.
-/

namespace AirDefense

theorem PerTier.get_modify (p : PerTier α) (t u : Tier) (f : α -> α) :
    (p.modify t f).get u = if u = t then f (p.get u) else p.get u := by
  rw [modify, get_set]
  split
  · rename_i heq
    rw [heq]
  · rfl

@[simp] theorem PerTier.get_constant (x : α) (t : Tier) : (constant x).get t = x := by
  cases t <;> rfl

/-!
## Transitions of the lock
-/

namespace FieldLock

variable {l : FieldLock} {t : Tier}

theorem exists_blocked (h : l.isBlockedUpTo t = true) : exists u, 0 < l.blocked.get u := by
  cases t with
  | high =>
      exact ⟨.high, of_decide_eq_true h⟩
  | middle =>
      simp only [isBlockedUpTo, Bool.or_eq_true, decide_eq_true_eq] at h
      rcases h with hhigh | hmiddle
      · exact ⟨.high, hhigh⟩
      · exact ⟨.middle, hmiddle⟩
  | low =>
      simp only [isBlockedUpTo, Bool.or_eq_true, decide_eq_true_eq] at h
      rcases h with (hhigh | hmiddle) | hlow
      · exact ⟨.high, hhigh⟩
      · exact ⟨.middle, hmiddle⟩
      · exact ⟨.low, hlow⟩

theorem mem_rotation (t u : Tier) : u ∈ rotation t := by
  cases t <;> cases u <;> decide

theorem lt_of_nextTier {next : Tier} (h : l.nextTier t = some next) :
    l.served.get next < l.tickets.get next := by
  have hunserved : l.hasUnserved next = true := List.find?_some h
  exact of_decide_eq_true hunserved

theorem le_of_nextTier (h : l.nextTier t = none) (u : Tier) :
    l.tickets.get u <= l.served.get u := by
  have hserved := List.find?_eq_none.mp h u (mem_rotation t u)
  exact Nat.le_of_not_lt fun hlt => hserved (decide_eq_true hlt)

def IsQuiet (l : FieldLock) : Prop :=
  forall t, l.tickets.get t <= l.served.get t

theorem IsQuiet.nextTier (h : l.IsQuiet) (t : Tier) : l.nextTier t = none := by
  apply List.find?_eq_none.mpr
  intro u _ hunserved
  exact Nat.not_lt.mpr (h u) (of_decide_eq_true hunserved)

theorem enter_of_free (hholders : l.holders = 0) (hblocked : l.blocked = .constant 0) (t : Tier) :
    (l.enter t).1 = none := by
  cases t <;> simp [enter, isBlockedUpTo, hholders, hblocked, PerTier.constant]

theorem enter_eq_none {held : FieldLock} (h : l.enter t = (none, held)) :
    l.holders = 0 ∧ held = { l with holders := 1 } := by
  unfold enter at h
  split at h
  · cases h
  · rename_i hfree
    simp only [Bool.or_eq_true, decide_eq_true_eq, not_or] at hfree
    have hholders : l.holders = 0 := by omega
    injection h with _ h
    rw [← h, hholders]
    exact ⟨rfl, rfl⟩

theorem release?_idle (hholders : l.holders = 1) (hnext : l.nextTier t = none) :
    l.release? t = .ok { l with holders := 0 } := by
  have hleft : ({ l with holders := 0 } : FieldLock).nextTier t = none := hnext
  simp [release?, hholders, hleft]

theorem IsQuiet.release?_of_enter (h : l.IsQuiet) {held : FieldLock}
    (henter : l.enter t = (none, held)) (u : Tier) : held.release? u = .ok l := by
  rcases enter_eq_none henter with ⟨hholders, hheld⟩
  subst hheld
  have hquiet : ({ l with holders := 1 } : FieldLock).IsQuiet := h
  rw [release?_idle rfl (hquiet.nextTier u)]
  simp only [← hholders]

theorem blocked_release? {m : FieldLock} (h : l.release? t = .ok m) :
    m.blocked = l.blocked := by
  unfold release? at h
  split at h
  · cases h
  · simp only at h
    split at h
    · cases h
      rfl
    · split at h <;> cases h <;> rfl

theorem release?_handoff {next : Tier} (hholders : l.holders = 1)
    (hnext : l.nextTier t = some next) :
    l.release? t = .ok
      { l with
        served := l.served.modify next (· + 1)
        handoffs := l.handoffs + 1 } := by
  have hleft : ({ l with holders := 0 } : FieldLock).nextTier t = some next := hnext
  simp [release?, hholders, hleft]

end FieldLock

/-!
## The lock in use
-/

/-- A caller of the lock. -/
inductive LockCaller where
  | outside
  | parked (ticket : LockTicket)
  | holding (tier : Tier)
deriving DecidableEq, Repr

namespace LockCaller

def waitsAt (t : Tier) : LockCaller -> Bool
  | parked ticket => ticket.tier = t
  | _ => false

def hasTicket (t : Tier) (number : Nat) : LockCaller -> Bool
  | parked ticket => ticket.tier = t ∧ ticket.number = number
  | _ => false

/-- The caller waits, and its ticket was not served. -/
def isUnserved (served : PerTier Nat) : LockCaller -> Bool
  | parked ticket => served.get ticket.tier <= ticket.number
  | _ => false

/-- The caller returned with the lock, or was given it while it waits. -/
def owns (served : PerTier Nat) : LockCaller -> Bool
  | outside => false
  | parked ticket => ticket.number < served.get ticket.tier
  | holding _ => true

end LockCaller

structure LockUse where
  lock : FieldLock
  callers : List LockCaller
deriving DecidableEq, Repr

/-- The steps of a lock in use. -/
inductive LockCall where
  | join
  | acquire (caller : Nat) (tier : Tier)
  | wake (caller : Nat)
  | release (caller : Nat) (tier : Tier)
deriving DecidableEq, Repr

namespace LockUse

def start : LockUse := ⟨.idle, []⟩

/-- One step.  A step that its caller is in no position to take changes nothing. -/
def act (u : LockUse) : LockCall -> LockUse
  | .join => { u with callers := u.callers ++ [.outside] }
  | .acquire caller t =>
      match u.callers[caller]? with
      | some .outside =>
          match u.lock.enter t with
          | (none, lock) => { lock, callers := u.callers.set caller (.holding t) }
          | (some ticket, lock) => { lock, callers := u.callers.set caller (.parked ticket) }
      | _ => u
  | .wake caller =>
      match u.callers[caller]? with
      | some (.parked ticket) =>
          match u.lock.wake ticket with
          | some lock => { lock, callers := u.callers.set caller (.holding ticket.tier) }
          | none => u
      | _ => u
  | .release caller t =>
      match u.callers[caller]? with
      | some (.holding _) =>
          match u.lock.release? t with
          | .ok lock => { lock, callers := u.callers.set caller .outside }
          | .error _ => u
      | _ => u

def run (u : LockUse) (calls : List LockCall) : LockUse :=
  calls.foldl act u

/-!
## The invariant

Each ticket that was given out and not served is with one caller.
-/

structure Sound (u : LockUse) : Prop where
  holders_le : u.lock.holders <= 1
  holders_eq : u.lock.holders = u.callers.countP (LockCaller.owns u.lock.served)
  blocked_eq : forall t, u.lock.blocked.get t = u.callers.countP (LockCaller.waitsAt t)
  served_le : forall t, u.lock.served.get t <= u.lock.tickets.get t
  ticket_eq : forall t number, u.lock.served.get t <= number ->
    u.callers.countP (LockCaller.hasTicket t number) =
      (decide (number < u.lock.tickets.get t)).toNat
  held_of_unserved : forall t, u.lock.served.get t < u.lock.tickets.get t ->
    u.lock.holders = 1

theorem start_sound : start.Sound :=
  { holders_le := Nat.zero_le 1
    holders_eq := rfl
    blocked_eq := fun t => by cases t <;> rfl
    served_le := fun t => by cases t <;> exact Nat.le_refl 0
    ticket_eq := fun t number _ => by cases t <;> simp [start, FieldLock.idle]
    held_of_unserved := fun t ht => by cases t <;> cases ht }

variable {u : LockUse}

/-- As long as a caller waits that was not served, the lock has a holder. -/
theorem Sound.held (h : u.Sound) {c : LockCaller} (hc : c ∈ u.callers)
    (hunserved : c.isUnserved u.lock.served = true) : u.lock.holders = 1 := by
  cases c with
  | outside => cases hunserved
  | holding t => cases hunserved
  | parked ticket =>
      have hticket := h.ticket_eq ticket.tier ticket.number (of_decide_eq_true hunserved)
      have hpos : 0 < u.callers.countP (LockCaller.hasTicket ticket.tier ticket.number) :=
        List.countP_pos_iff.mpr ⟨_, hc, by simp [LockCaller.hasTicket]⟩
      rw [hticket] at hpos
      have hlt : ticket.number < u.lock.tickets.get ticket.tier := by
        by_contra hnot
        simp [hnot] at hpos
      exact h.held_of_unserved ticket.tier
        (Nat.lt_of_le_of_lt (of_decide_eq_true hunserved) hlt)

theorem Sound.held_of_owns (h : u.Sound) {c : LockCaller} (hc : c ∈ u.callers)
    (howns : c.owns u.lock.served = true) : u.lock.holders = 1 := by
  have hpos : 0 < u.callers.countP (LockCaller.owns u.lock.served) :=
    List.countP_pos_iff.mpr ⟨c, hc, howns⟩
  have hle := h.holders_le
  rw [← h.holders_eq] at hpos
  omega

theorem Sound.held_of_blocked (h : u.Sound) {t : Tier} (hblocked : 0 < u.lock.blocked.get t) :
    u.lock.holders = 1 := by
  rw [h.blocked_eq] at hblocked
  rcases List.countP_pos_iff.mp hblocked with ⟨c, hc, hwaits⟩
  cases hunserved : c.isUnserved u.lock.served with
  | true =>
      exact h.held hc hunserved
  | false =>
      apply h.held_of_owns hc
      cases c with
      | outside => cases hwaits
      | holding _ => cases hwaits
      | parked ticket =>
          simp only [LockCaller.isUnserved, decide_eq_false_iff_not] at hunserved
          exact decide_eq_true (Nat.lt_of_not_le hunserved)

/-!
## Every step keeps the invariant
-/

theorem countP_join {p : LockCaller -> Bool} (callers : List LockCaller)
    (hp : p .outside = false) : (callers ++ [LockCaller.outside]).countP p = callers.countP p := by
  simp [List.countP_append, hp]

theorem Sound.join (h : u.Sound) : (u.act .join).Sound :=
  { holders_le := h.holders_le
    holders_eq := h.holders_eq.trans (countP_join u.callers rfl).symm
    blocked_eq := fun t => (h.blocked_eq t).trans (countP_join u.callers rfl).symm
    served_le := h.served_le
    ticket_eq := fun t number hle =>
      (countP_join u.callers rfl).trans (h.ticket_eq t number hle)
    held_of_unserved := h.held_of_unserved }

theorem Sound.take (h : u.Sound) {caller : Nat} (hc : u.callers[caller]? = some .outside)
    (hidle : u.lock.holders = 0) (t : Tier) :
    (LockUse.mk { u.lock with holders := u.lock.holders + 1 }
      (u.callers.set caller (.holding t))).Sound := by
  have hheld := h.holders_eq
  exact
    { holders_le := by simp [hidle]
      holders_eq := by
        have hcount := countP_set_add (p := LockCaller.owns u.lock.served) (d := .holding t) hc
        simp only [LockCaller.owns, Bool.toNat_false, Bool.toNat_true] at hcount
        simp only
        omega
      blocked_eq := by
        intro s
        have hcount := countP_set_add (p := LockCaller.waitsAt s) (d := .holding t) hc
        have hblocked := h.blocked_eq s
        simp only [LockCaller.waitsAt] at hcount hblocked ⊢
        omega
      served_le := h.served_le
      ticket_eq := by
        intro s number hle
        have hcount := countP_set_add (p := LockCaller.hasTicket s number) (d := .holding t) hc
        have hticket := h.ticket_eq s number hle
        simp only [LockCaller.hasTicket] at hcount hticket ⊢
        omega
      held_of_unserved := fun s hs => by simp [hidle] }

theorem Sound.park (h : u.Sound) {caller : Nat} (hc : u.callers[caller]? = some .outside)
    (hbusy : u.lock.holders = 1) (t : Tier) :
    (LockUse.mk
      { u.lock with
        blocked := u.lock.blocked.modify t (· + 1)
        tickets := u.lock.tickets.modify t (· + 1) }
      (u.callers.set caller
        (.parked ⟨t, u.lock.tickets.get t, u.lock.handoffs⟩))).Sound := by
  generalize hd : LockCaller.parked ⟨t, u.lock.tickets.get t, u.lock.handoffs⟩ = d
  exact
    { holders_le := h.holders_le
      holders_eq := by
        have hcount := countP_set_add (p := LockCaller.owns u.lock.served) (d := d) hc
        have hserved := Nat.not_lt.mpr (h.served_le t)
        have hheld := h.holders_eq
        simp only [← hd, LockCaller.owns, hserved, decide_false] at hcount ⊢
        omega
      blocked_eq := by
        intro s
        have hcount := countP_set_add (p := LockCaller.waitsAt s) (d := d) hc
        have hblocked := h.blocked_eq s
        rw [PerTier.get_modify, hblocked]
        by_cases hs : s = t
        · simp only [← hd, LockCaller.waitsAt, hs, if_true, decide_true, Bool.toNat_false,
            Bool.toNat_true] at hcount ⊢
          omega
        · simp only [← hd, LockCaller.waitsAt, hs, Ne.symm hs, if_false, decide_false,
            Bool.toNat_false] at hcount ⊢
          omega
      served_le := by
        intro s
        have hle := h.served_le s
        rw [PerTier.get_modify]
        split <;> simp only <;> omega
      ticket_eq := by
        intro s number hle
        have hcount := countP_set_add (p := LockCaller.hasTicket s number) (d := d) hc
        have hticket := h.ticket_eq s number hle
        rw [PerTier.get_modify]
        by_cases hs : s = t
        · subst hs
          simp only [← hd, LockCaller.hasTicket, true_and, if_true, Bool.toNat_false] at hcount ⊢
          rcases Nat.lt_trichotomy number (u.lock.tickets.get s) with hlt | heq | hgt
          · have hnew : number < u.lock.tickets.get s + 1 := by omega
            simp only [hlt, hnew, (Nat.ne_of_lt hlt).symm, decide_true, decide_false,
              Bool.toNat_true, Bool.toNat_false] at hticket hcount ⊢
            omega
          · subst heq
            simp only [Nat.lt_irrefl, Nat.lt_succ_self, decide_true, decide_false,
              Bool.toNat_true, Bool.toNat_false] at hticket hcount ⊢
            omega
          · have hnew : ¬ number < u.lock.tickets.get s + 1 := by omega
            simp only [hnew, Nat.not_lt_of_lt hgt, Nat.ne_of_lt hgt, decide_false,
              Bool.toNat_false] at hticket hcount ⊢
            omega
        · simp only [← hd, LockCaller.hasTicket, hs, Ne.symm hs, false_and, if_false,
            decide_false, Bool.toNat_false] at hcount ⊢
          omega
      held_of_unserved := fun _ _ => hbusy }

theorem Sound.acquire (h : u.Sound) (caller : Nat) (t : Tier) :
    (u.act (.acquire caller t)).Sound := by
  cases hc : u.callers[caller]? with
  | none =>
      simpa only [LockUse.act, hc] using h
  | some c =>
      cases c with
      | parked ticket =>
          simpa only [LockUse.act, hc] using h
      | holding held =>
          simpa only [LockUse.act, hc] using h
      | outside =>
          simp only [LockUse.act, hc, FieldLock.enter]
          by_cases hbusy : (decide (0 < u.lock.holders) || u.lock.isBlockedUpTo t) = true
          · rw [if_pos hbusy]
            apply h.park hc
            rcases Bool.or_eq_true _ _ ▸ hbusy with hheld | hblocked
            · have hle := h.holders_le
              have hpos := of_decide_eq_true hheld
              omega
            · rcases FieldLock.exists_blocked hblocked with ⟨s, hs⟩
              exact h.held_of_blocked hs
          · rw [if_neg hbusy]
            apply h.take hc
            simp only [Bool.or_eq_true, decide_eq_true_eq, not_or] at hbusy
            omega

/-- A caller that was served returns with the lock. -/
theorem Sound.resume (h : u.Sound) {caller : Nat} {ticket : LockTicket}
    (hc : u.callers[caller]? = some (.parked ticket))
    (hserved : ticket.number < u.lock.served.get ticket.tier) (longest : PerTier Nat) :
    (LockUse.mk
      { u.lock with
        blocked := u.lock.blocked.modify ticket.tier (· - 1)
        longestWait := longest }
      (u.callers.set caller (.holding ticket.tier))).Sound := by
  generalize hd : LockCaller.holding ticket.tier = d
  exact
    { holders_le := h.holders_le
      holders_eq := by
        have hcount := countP_set_add (p := LockCaller.owns u.lock.served) (d := d) hc
        have hheld := h.holders_eq
        simp only [← hd, LockCaller.owns, hserved, decide_true] at hcount ⊢
        omega
      blocked_eq := by
        intro s
        have hcount := countP_set_add (p := LockCaller.waitsAt s) (d := d) hc
        have hblocked := h.blocked_eq s
        rw [PerTier.get_modify, hblocked]
        by_cases hs : s = ticket.tier
        · simp only [← hd, LockCaller.waitsAt, hs, if_true, decide_true, Bool.toNat_true,
            Bool.toNat_false] at hcount ⊢
          omega
        · simp only [← hd, LockCaller.waitsAt, hs, Ne.symm hs, if_false, decide_false,
            Bool.toNat_false] at hcount ⊢
          omega
      served_le := h.served_le
      ticket_eq := by
        intro s number hle
        have hcount := countP_set_add (p := LockCaller.hasTicket s number) (d := d) hc
        have hticket := h.ticket_eq s number hle
        have hother : ¬ (ticket.tier = s ∧ ticket.number = number) := by
          rintro ⟨hs, hnumber⟩
          rw [← hs, ← hnumber] at hle
          exact Nat.not_le_of_lt hserved hle
        simp only [← hd, LockCaller.hasTicket, hother, decide_false, Bool.toNat_false]
          at hcount ⊢
        omega
      held_of_unserved := h.held_of_unserved }

theorem Sound.wake (h : u.Sound) (caller : Nat) : (u.act (.wake caller)).Sound := by
  cases hc : u.callers[caller]? with
  | none =>
      simpa only [LockUse.act, hc] using h
  | some c =>
      cases c with
      | outside =>
          simpa only [LockUse.act, hc] using h
      | holding held =>
          simpa only [LockUse.act, hc] using h
      | parked ticket =>
          simp only [LockUse.act, hc, FieldLock.wake]
          by_cases hwaits : u.lock.served.get ticket.tier <= ticket.number
          · simpa only [if_pos hwaits] using h
          · simp only [if_neg hwaits]
            exact h.resume hc (Nat.lt_of_not_le hwaits) _

theorem countP_owns_modify (callers : List LockCaller) (served : PerTier Nat) (next : Tier) :
    callers.countP (LockCaller.owns (served.modify next (· + 1))) =
      callers.countP (LockCaller.owns served) +
        callers.countP (LockCaller.hasTicket next (served.get next)) := by
  induction callers with
  | nil =>
      rfl
  | cons c rest ih =>
      have hc : (c.owns (served.modify next (· + 1))).toNat =
          (c.owns served).toNat + (c.hasTicket next (served.get next)).toNat := by
        cases c with
        | outside => rfl
        | holding t => rfl
        | parked ticket =>
            simp only [LockCaller.owns, LockCaller.hasTicket, PerTier.get_modify]
            by_cases ht : ticket.tier = next
            · rw [if_pos ht, ht]
              rcases Nat.lt_trichotomy ticket.number (served.get next) with hlt | heq | hgt
              · simp [hlt, Nat.lt_succ_of_lt hlt, Nat.ne_of_lt hlt]
              · simp [heq]
              · have hnew : ¬ ticket.number < served.get next + 1 := by omega
                simp [hnew, Nat.not_lt_of_lt hgt, (Nat.ne_of_lt hgt).symm]
            · simp [ht]
      simp only [List.countP_cons, ih]
      revert hc
      cases c.owns (served.modify next (· + 1)) <;> cases c.owns served <;>
        cases c.hasTicket next (served.get next) <;> simp <;> omega

section Leaving

variable {caller : Nat} {held : Tier}

theorem countP_leave {callers : List LockCaller}
    (hc : callers[caller]? = some (.holding held)) {p : LockCaller -> Bool}
    (hholding : p (.holding held) = false) (houtside : p .outside = false) :
    (callers.set caller .outside).countP p = callers.countP p := by
  have hcount := countP_set_add (p := p) (d := .outside) hc
  rw [hholding, houtside] at hcount
  exact hcount

theorem Sound.owners_leave (h : u.Sound) (hc : u.callers[caller]? = some (.holding held)) :
    (u.callers.set caller .outside).countP (LockCaller.owns u.lock.served) = 0 := by
  have hholders := h.held_of_owns (List.mem_of_getElem? hc) rfl
  have hcount := countP_set_add (p := LockCaller.owns u.lock.served) (d := .outside) hc
  rw [← h.holders_eq, hholders] at hcount
  exact Nat.succ.inj hcount

theorem Sound.giveUp (h : u.Sound) (hc : u.callers[caller]? = some (.holding held))
    (hserved : forall s, u.lock.tickets.get s <= u.lock.served.get s) :
    (LockUse.mk { u.lock with holders := 0 } (u.callers.set caller .outside)).Sound :=
  { holders_le := Nat.zero_le 1
    holders_eq := (h.owners_leave hc).symm
    blocked_eq := fun s => (h.blocked_eq s).trans (countP_leave hc rfl rfl).symm
    served_le := h.served_le
    ticket_eq := fun s number hle =>
      (countP_leave hc rfl rfl).trans (h.ticket_eq s number hle)
    held_of_unserved := fun s hs => absurd hs (Nat.not_lt.mpr (hserved s)) }

theorem Sound.passOn (h : u.Sound) (hc : u.callers[caller]? = some (.holding held))
    {next : Tier} (hnext : u.lock.served.get next < u.lock.tickets.get next) :
    (LockUse.mk
      { u.lock with
        served := u.lock.served.modify next (· + 1)
        handoffs := u.lock.handoffs + 1 }
      (u.callers.set caller .outside)).Sound := by
  have hholders := h.held_of_owns (List.mem_of_getElem? hc) rfl
  have hticket : forall s number, u.lock.served.get s <= number ->
      (u.callers.set caller .outside).countP (LockCaller.hasTicket s number) =
        (decide (number < u.lock.tickets.get s)).toNat :=
    fun s number hle => (countP_leave hc rfl rfl).trans (h.ticket_eq s number hle)
  exact
    { holders_le := h.holders_le
      holders_eq := by
        have hwoken := hticket next (u.lock.served.get next) (Nat.le_refl _)
        simp only [countP_owns_modify, h.owners_leave hc, hwoken, hnext, decide_true,
          Bool.toNat_true, Nat.zero_add]
        exact hholders
      blocked_eq := fun s => (h.blocked_eq s).trans (countP_leave hc rfl rfl).symm
      served_le := by
        intro s
        have hle := h.served_le s
        rw [PerTier.get_modify]
        split
        · rename_i hs
          subst hs
          exact hnext
        · exact hle
      ticket_eq := by
        intro s number hle
        apply hticket
        rw [PerTier.get_modify] at hle
        split at hle <;> omega
      held_of_unserved := fun _ _ => hholders }

end Leaving

theorem Sound.release (h : u.Sound) (caller : Nat) (t : Tier) :
    (u.act (.release caller t)).Sound := by
  cases hc : u.callers[caller]? with
  | none =>
      simpa only [LockUse.act, hc] using h
  | some c =>
      cases c with
      | outside =>
          simpa only [LockUse.act, hc] using h
      | parked ticket =>
          simpa only [LockUse.act, hc] using h
      | holding held =>
          have hholders := h.held_of_owns (List.mem_of_getElem? hc) rfl
          cases hnext : u.lock.nextTier t with
          | none =>
              simp only [LockUse.act, hc, FieldLock.release?_idle hholders hnext]
              exact h.giveUp hc (FieldLock.le_of_nextTier hnext)
          | some next =>
              simp only [LockUse.act, hc, FieldLock.release?_handoff hholders hnext]
              exact h.passOn hc (FieldLock.lt_of_nextTier hnext)

theorem Sound.act (h : u.Sound) (call : LockCall) : (u.act call).Sound := by
  cases call with
  | join => exact h.join
  | acquire caller t => exact h.acquire caller t
  | wake caller => exact h.wake caller
  | release caller t => exact h.release caller t

theorem Sound.run (h : u.Sound) (calls : List LockCall) : (u.run calls).Sound := by
  induction calls generalizing u with
  | nil => exact h
  | cons call rest ih => exact ih (h.act call)

theorem Sound.release?_ok (h : u.Sound) {caller : Nat} {held : Tier}
    (hc : u.callers[caller]? = some (.holding held)) (t : Tier) :
    exists l, u.lock.release? t = .ok l := by
  have hholders := h.held_of_owns (List.mem_of_getElem? hc) rfl
  cases hnext : u.lock.nextTier t with
  | none => exact ⟨_, FieldLock.release?_idle hholders hnext⟩
  | some next => exact ⟨_, FieldLock.release?_handoff hholders hnext⟩

/--
In every order of calls the lock has as many holders as owners, and at most one;
it knows who waits where; and it is never free while somebody waits unserved.
-/
theorem lock_excludes_without_idling (calls : List LockCall) :
    let u := start.run calls
    u.lock.holders <= 1 ∧
      u.lock.holders = u.callers.countP (LockCaller.owns u.lock.served) ∧
      (forall t, u.lock.blocked.get t = u.callers.countP (LockCaller.waitsAt t)) ∧
      (forall t, u.lock.served.get t <= u.lock.tickets.get t) ∧
      (forall c, c ∈ u.callers -> c.isUnserved u.lock.served = true ->
        u.lock.holders = 1) ∧
      (forall (caller : Nat) held t, u.callers[caller]? = some (.holding held) ->
        exists l, u.lock.release? t = .ok l) := by
  intro u
  have h : u.Sound := start_sound.run calls
  exact ⟨h.holders_le, h.holders_eq, h.blocked_eq, h.served_le,
    fun c hc hunserved => h.held hc hunserved, fun caller held t hc => h.release?_ok hc t⟩

end LockUse
end AirDefense
