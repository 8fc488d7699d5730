import AirDefense.Proofs.Field.LockExclusion

/-!
# Waiting for the field lock

Callers that give the lock up at the tier at which they took it pass it round the
tiers.  A handoff serves a tier that waits, or brings the lock nearer to it.  So a
caller with `k` others of its tier before it waits through `3 * (k + 1)` handoffs at
most, whoever comes later and at whatever tier.
-/

namespace AirDefense

/-!
## The way round
-/

namespace FieldLock

/-- How many tiers a release at tier `t` looks at until it comes to tier `u`. -/
def turns (t u : Tier) : Nat :=
  (u.index + 2 - t.index) % 3 + 1

theorem turns_pos (t u : Tier) : 0 < turns t u :=
  Nat.succ_pos _

theorem turns_le (t u : Tier) : turns t u <= 3 := by
  have hlt : (u.index + 2 - t.index) % 3 < 3 := Nat.mod_lt _ (by decide)
  exact hlt

theorem turns_self (t : Tier) : turns t t = 3 := by
  cases t <;> rfl

theorem pairwise_rotation (t : Tier) :
    (rotation t).Pairwise fun next u => turns next u < turns t u := by
  cases t <;> decide

variable {l : FieldLock} {t u next : Tier}

theorem hasUnserved_iff : l.hasUnserved t = true ↔ l.served.get t < l.tickets.get t :=
  decide_eq_true_iff

/-- The lock goes to a tier that waits, or to one on the way to it. -/
theorem turns_nextTier (hu : l.served.get u < l.tickets.get u)
    (hnext : l.nextTier t = some next) : next = u ∨ turns next u < turns t u := by
  rcases List.find?_eq_some_iff_append.mp hnext with ⟨_, before, after, horder, hserved⟩
  have hall := pairwise_rotation t
  have hmem := mem_rotation t u
  rw [horder] at hall hmem
  rcases List.mem_append.mp hmem with hbefore | hrest
  · have hnot := hserved u hbefore
    rw [hasUnserved_iff.mpr hu] at hnot
    cases hnot
  · rcases List.mem_cons.mp hrest with heq | hafter
    · exact .inl heq.symm
    · exact .inr ((List.pairwise_cons.mp (List.pairwise_append.mp hall).2.1).1 u hafter)

theorem enter_eq_some {ticket : LockTicket} {m : FieldLock}
    (h : l.enter t = (some ticket, m)) :
    ticket = ⟨t, l.tickets.get t, l.handoffs⟩ ∧
      m = { l with
        blocked := l.blocked.modify t (· + 1)
        tickets := l.tickets.modify t (· + 1) } := by
  unfold enter at h
  split at h
  · cases h
    exact ⟨rfl, rfl⟩
  · cases h

theorem wake_eq_some {ticket : LockTicket} {m : FieldLock} (h : l.wake ticket = some m) :
    ticket.number < l.served.get ticket.tier ∧
      m = { l with
        blocked := l.blocked.modify ticket.tier (· - 1)
        longestWait :=
          l.longestWait.modify ticket.tier (max · (l.handoffs - ticket.since)) } := by
  unfold wake at h
  split at h
  · cases h
  · rename_i hserved
    injection h with h
    exact ⟨Nat.lt_of_not_le hserved, h.symm⟩

end FieldLock

/-!
## Callers with guards
-/

/-- The steps of a lock whose callers cannot but release it at their own tier. -/
inductive GuardCall where
  | join
  | acquire (caller : Nat) (tier : Tier)
  | wake (caller : Nat)
  /-- A caller that has the lock drops its guard. -/
  | drop (caller : Nat)
deriving DecidableEq, Repr

def LockCaller.ownsAt (served : PerTier Nat) (t : Tier) : LockCaller -> Bool
  | outside => false
  | parked ticket => ticket.tier = t ∧ ticket.number < served.get t
  | holding held => held = t

theorem LockCaller.owns_of_ownsAt {served : PerTier Nat} {t : Tier} {c : LockCaller}
    (h : c.ownsAt served t = true) : c.owns served = true := by
  cases c with
  | outside => cases h
  | holding held => rfl
  | parked ticket =>
      rcases of_decide_eq_true h with ⟨heq, hlt⟩
      subst heq
      exact decide_eq_true hlt

namespace LockUse

def guard (u : LockUse) : GuardCall -> LockUse
  | .join => u.act .join
  | .acquire caller t => u.act (.acquire caller t)
  | .wake caller => u.act (.wake caller)
  | .drop caller =>
      match u.callers[caller]? with
      | some (.holding t) => u.act (.release caller t)
      | _ => u

def guarded (u : LockUse) (calls : List GuardCall) : LockUse :=
  calls.foldl guard u

variable {u v : LockUse} {t : Tier} {number limit : Nat}

theorem Sound.guard (h : u.Sound) (call : GuardCall) : (u.guard call).Sound := by
  cases call with
  | join => exact h.act .join
  | acquire caller t => exact h.act (.acquire caller t)
  | wake caller => exact h.act (.wake caller)
  | drop caller =>
      simp only [LockUse.guard]
      split
      · exact h.act _
      · exact h

theorem Sound.guarded (h : u.Sound) (calls : List GuardCall) : (u.guarded calls).Sound := by
  induction calls generalizing u with
  | nil => exact h
  | cons call rest ih => exact ih (h.guard call)

inductive Moves (u : LockUse) : GuardCall -> LockUse -> Prop where
  | nothing {call : GuardCall} : Moves u call u
  | join : Moves u .join { u with callers := u.callers ++ [.outside] }
  | take {caller : Nat} {t : Tier} {lock : FieldLock} (hc : u.callers[caller]? = some .outside)
      (henter : u.lock.enter t = (none, lock)) :
      Moves u (.acquire caller t) { lock, callers := u.callers.set caller (.holding t) }
  | park {caller : Nat} {t : Tier} {ticket : LockTicket} {lock : FieldLock}
      (hc : u.callers[caller]? = some .outside)
      (henter : u.lock.enter t = (some ticket, lock)) :
      Moves u (.acquire caller t) { lock, callers := u.callers.set caller (.parked ticket) }
  | resume {caller : Nat} {ticket : LockTicket} {lock : FieldLock}
      (hc : u.callers[caller]? = some (.parked ticket))
      (hwake : u.lock.wake ticket = some lock) :
      Moves u (.wake caller) { lock, callers := u.callers.set caller (.holding ticket.tier) }
  | giveUp {caller : Nat} {t : Tier} (hc : u.callers[caller]? = some (.holding t))
      (hnext : u.lock.nextTier t = none) :
      Moves u (.drop caller)
        { lock := { u.lock with holders := 0 }, callers := u.callers.set caller .outside }
  | passOn {caller : Nat} {t next : Tier} (hc : u.callers[caller]? = some (.holding t))
      (hnext : u.lock.nextTier t = some next) :
      Moves u (.drop caller)
        { lock :=
            { u.lock with
              served := u.lock.served.modify next (· + 1)
              handoffs := u.lock.handoffs + 1 }
          callers := u.callers.set caller .outside }

theorem Sound.moves (h : u.Sound) (call : GuardCall) : u.Moves call (u.guard call) := by
  cases call with
  | join => exact .join
  | acquire caller t =>
      simp only [LockUse.guard, LockUse.act]
      split
      · rename_i hc
        split
        · rename_i lock henter
          exact .take hc henter
        · rename_i ticket lock henter
          exact .park hc henter
      · exact .nothing
  | wake caller =>
      simp only [LockUse.guard, LockUse.act]
      split
      · rename_i ticket hc
        split
        · rename_i lock hwake
          exact .resume hc hwake
        · exact .nothing
      · exact .nothing
  | drop caller =>
      simp only [LockUse.guard]
      split
      · rename_i held hc
        have hholders := h.held_of_owns (List.mem_of_getElem? hc) rfl
        cases hnext : u.lock.nextTier held with
        | none =>
            simp only [LockUse.act, hc, FieldLock.release?_idle hholders hnext]
            exact .giveUp hc hnext
        | some next =>
            simp only [LockUse.act, hc, FieldLock.release?_handoff hholders hnext]
            exact .passOn hc hnext
      · exact .nothing

/-!
## Who has the lock
-/

variable {r : Tier} {c d : LockCaller} {caller : Nat} {lock : FieldLock}

def IsHeldAt (u : LockUse) (t : Tier) : Prop :=
  exists (caller : Nat) (c : LockCaller), u.callers[caller]? = some c ∧
    c.ownsAt u.lock.served t = true

theorem IsHeldAt.holders_eq (hheld : u.IsHeldAt r) (h : u.Sound) : u.lock.holders = 1 := by
  rcases hheld with ⟨caller, c, hc, howns⟩
  exact h.held_of_owns (List.mem_of_getElem? hc) (LockCaller.owns_of_ownsAt howns)

theorem Sound.eq_of_owns (h : u.Sound) {i j : Nat} (hi : u.callers[i]? = some c)
    (hj : u.callers[j]? = some d) (hc : c.owns u.lock.served = true)
    (hd : d.owns u.lock.served = true) : i = j :=
  eq_of_countP_le_one (h.holders_eq ▸ h.holders_le) hi hj hc hd

theorem IsHeldAt.eq_of_holding (hheld : u.IsHeldAt r) (h : u.Sound)
    (hc : u.callers[caller]? = some (.holding t)) : r = t := by
  rcases hheld with ⟨i, c, hi, howns⟩
  have heq := h.eq_of_owns hi hc (LockCaller.owns_of_ownsAt howns) rfl
  rw [heq, hc] at hi
  injection hi with hi
  rw [← hi] at howns
  exact (of_decide_eq_true howns).symm

theorem IsHeldAt.set (hheld : u.IsHeldAt r) (hc : u.callers[caller]? = some c)
    (hserved : lock.served = u.lock.served)
    (hd : c.ownsAt u.lock.served r = true -> d.ownsAt u.lock.served r = true) :
    (LockUse.mk lock (u.callers.set caller d)).IsHeldAt r := by
  rcases hheld with ⟨i, b, hi, howns⟩
  by_cases heq : caller = i
  · subst heq
    rw [hc] at hi
    injection hi with hi
    subst hi
    exact ⟨caller, d, List.getElem?_set_self (List.getElem?_eq_some_iff.mp hc).1,
      hserved ▸ hd howns⟩
  · exact ⟨i, b, by rw [← hi]; exact List.getElem?_set_ne heq, hserved ▸ howns⟩

theorem Sound.isHeldAt_passOn (h : u.Sound) (hc : u.callers[caller]? = some (.holding t))
    {next : Tier} (hnext : u.lock.served.get next < u.lock.tickets.get next)
    (hserved : lock.served = u.lock.served.modify next (· + 1)) :
    (LockUse.mk lock (u.callers.set caller .outside)).IsHeldAt next := by
  have hticket := h.ticket_eq next (u.lock.served.get next) (Nat.le_refl _)
  rw [decide_eq_true hnext, ← countP_leave hc rfl rfl] at hticket
  have hpos : 0 < (u.callers.set caller .outside).countP
      (LockCaller.hasTicket next (u.lock.served.get next)) := by
    rw [hticket]
    exact Nat.one_pos
  rcases List.countP_pos_iff.mp hpos with ⟨b, hb, hhas⟩
  rcases List.getElem?_of_mem hb with ⟨i, hi⟩
  refine ⟨i, b, hi, ?_⟩
  cases b with
  | outside => cases hhas
  | holding held => cases hhas
  | parked ticket =>
      rcases of_decide_eq_true hhas with ⟨htier, hnumber⟩
      apply decide_eq_true
      rw [hserved, PerTier.get_modify, if_pos rfl]
      exact ⟨htier, by omega⟩

/-!
## Tickets that are due

The measure of a wait: the way from the owner's tier to the tier of the ticket, and a
whole round for every ticket that is served before.
-/

/-- The ticket is served before more than `limit` handoffs were made in all. -/
structure IsDue (u : LockUse) (t : Tier) (number limit : Nat) : Prop where
  issued : number < u.lock.tickets.get t
  unserved : u.lock.served.get t <= number -> exists r, u.IsHeldAt r ∧
    u.lock.handoffs + FieldLock.turns r t + 3 * (number - u.lock.served.get t) <= limit
  parked : forall c, c ∈ u.callers -> c.hasTicket t number = true -> u.lock.handoffs <= limit

theorem IsDue.handoffs_lt (h : u.IsDue t number limit)
    (hwaits : u.lock.served.get t <= number) : u.lock.handoffs < limit := by
  rcases h.unserved hwaits with ⟨r, _, hle⟩
  have hpos := FieldLock.turns_pos r t
  omega

theorem IsDue.mono (h : u.IsDue t number limit) {limit' : Nat} (hle : limit <= limit') :
    u.IsDue t number limit' where
  issued := h.issued
  unserved := by
    intro hwaits
    rcases h.unserved hwaits with ⟨r, hheld, hlimit⟩
    exact ⟨r, hheld, Nat.le_trans hlimit hle⟩
  parked := fun c hc hhas => Nat.le_trans (h.parked c hc hhas) hle

theorem IsDue.of_still (h : u.IsDue t number limit)
    (hserved : v.lock.served = u.lock.served) (hhandoffs : v.lock.handoffs = u.lock.handoffs)
    (htickets : u.lock.tickets.get t <= v.lock.tickets.get t)
    (hheld : forall r, u.IsHeldAt r -> v.IsHeldAt r)
    (hparked : forall c, c ∈ v.callers -> c.hasTicket t number = true ->
      c ∈ u.callers ∨ u.lock.served.get t <= number) : v.IsDue t number limit where
  issued := Nat.lt_of_lt_of_le h.issued htickets
  unserved := by
    intro hwaits
    rw [hserved] at hwaits
    rcases h.unserved hwaits with ⟨r, hr, hle⟩
    rw [hserved, hhandoffs]
    exact ⟨r, hheld r hr, hle⟩
  parked := by
    intro c hc hhas
    rw [hhandoffs]
    rcases hparked c hc hhas with hold | hwaits
    · exact h.parked c hold hhas
    · exact Nat.le_of_lt (h.handoffs_lt hwaits)

theorem mem_of_mem_set {callers : List LockCaller} (hmem : c ∈ callers.set caller d)
    (hc : c.hasTicket t number = true) (hd : d.hasTicket t number = false) : c ∈ callers := by
  rcases List.mem_or_eq_of_mem_set hmem with hold | heq
  · exact hold
  · rw [heq, hd] at hc
    cases hc

/-- A handoff serves the ticket, or goes some of the way to it. -/
theorem IsDue.passOn (hdue : u.IsDue t number limit) (h : u.Sound)
    (hc : u.callers[caller]? = some (.holding r)) {next : Tier}
    (hnext : u.lock.nextTier r = some next) :
    (LockUse.mk
      { u.lock with
        served := u.lock.served.modify next (· + 1)
        handoffs := u.lock.handoffs + 1 }
      (u.callers.set caller .outside)).IsDue t number limit where
  issued := hdue.issued
  unserved := by
    simp only [PerTier.get_modify]
    intro hwaits
    have hbefore : u.lock.served.get t <= number := by
      split at hwaits <;> omega
    rcases hdue.unserved hbefore with ⟨s, hheld, hle⟩
    rw [hheld.eq_of_holding h hc] at hle
    refine ⟨next, h.isHeldAt_passOn hc (FieldLock.lt_of_nextTier hnext) rfl, ?_⟩
    rcases FieldLock.turns_nextTier (Nat.lt_of_le_of_lt hbefore hdue.issued) hnext with
      heq | hnearer
    · subst heq
      have hpos := FieldLock.turns_pos r next
      rw [if_pos rfl] at hwaits ⊢
      rw [FieldLock.turns_self]
      omega
    · split at hwaits <;> split <;> omega
  parked := by
    intro c hmem hhas
    have hold : c ∈ u.callers := mem_of_mem_set hmem hhas rfl
    by_cases hwaits : u.lock.served.get t <= number
    · exact hdue.handoffs_lt hwaits
    · exfalso
      rcases List.getElem?_of_mem hold with ⟨i, hi⟩
      cases c with
      | outside => cases hhas
      | holding held => cases hhas
      | parked ticket =>
          rcases of_decide_eq_true hhas with ⟨htier, hnumber⟩
          have howns : (LockCaller.parked ticket).owns u.lock.served = true := by
            apply decide_eq_true
            rw [htier, hnumber]
            exact Nat.lt_of_not_le hwaits
          have heq := h.eq_of_owns hi hc howns rfl
          rw [heq, hc] at hi
          cases hi

theorem IsDue.moves (hdue : u.IsDue t number limit) (h : u.Sound) {call : GuardCall}
    (hmoves : u.Moves call v) : v.IsDue t number limit := by
  cases hmoves with
  | nothing => exact hdue
  | join =>
      refine hdue.of_still rfl rfl (Nat.le_refl _) ?_ ?_
      · rintro r ⟨i, c, hi, howns⟩
        exact ⟨i, c, by
          rw [← hi]
          exact List.getElem?_append_left (List.getElem?_eq_some_iff.mp hi).1, howns⟩
      · intro c hc hhas
        rcases List.mem_append.mp hc with hold | hnew
        · exact .inl hold
        · rw [List.mem_singleton.mp hnew] at hhas
          cases hhas
  | @take caller s lock hc henter =>
      rcases FieldLock.enter_eq_none henter with ⟨hidle, hlock⟩
      subst hlock
      refine hdue.of_still rfl rfl (Nat.le_refl _) ?_ ?_
      · intro r hheld
        rw [hheld.holders_eq h] at hidle
        cases hidle
      · intro c hmem hhas
        exact .inl (mem_of_mem_set hmem hhas rfl)
  | @park caller s ticket lock hc henter =>
      rcases FieldLock.enter_eq_some henter with ⟨hticket, hlock⟩
      subst hticket hlock
      refine hdue.of_still rfl rfl ?_ (fun r hheld => hheld.set hc rfl nofun) ?_
      · simp only [PerTier.get_modify]
        split <;> omega
      · intro c hmem hhas
        rcases List.mem_or_eq_of_mem_set hmem with hold | heq
        · exact .inl hold
        · rw [heq] at hhas
          rcases of_decide_eq_true hhas with ⟨htier, hnumber⟩
          subst htier
          exact .inr (hnumber ▸ h.served_le s)
  | @resume caller ticket lock hc hwake =>
      rcases FieldLock.wake_eq_some hwake with ⟨_, hlock⟩
      subst hlock
      refine hdue.of_still rfl rfl (Nat.le_refl _) (fun r hheld => hheld.set hc rfl ?_) ?_
      · intro howns
        exact decide_eq_true (of_decide_eq_true howns).1
      · intro c hmem hhas
        exact .inl (mem_of_mem_set hmem hhas rfl)
  | @giveUp caller s hc hnext =>
      have hserved := Nat.lt_of_lt_of_le hdue.issued (FieldLock.le_of_nextTier hnext t)
      refine ⟨hdue.issued, fun hwaits => absurd hserved (Nat.not_lt.mpr hwaits), ?_⟩
      intro c hmem hhas
      exact hdue.parked c (mem_of_mem_set hmem hhas rfl) hhas
  | passOn hc hnext => exact hdue.passOn h hc hnext

theorem IsDue.guarded (hdue : u.IsDue t number limit) (h : u.Sound) (calls : List GuardCall) :
    (u.guarded calls).IsDue t number limit := by
  induction calls generalizing u with
  | nil => exact hdue
  | cons call rest ih => exact ih (hdue.moves h (h.moves call)) (h.guard call)

/-!
## How many are before a caller
-/

def queued (u : LockUse) (t : Tier) : Nat :=
  u.callers.countP fun c => c.waitsAt t && c.isUnserved u.lock.served

def hasTicketIn (t : Tier) (low d : Nat) : LockCaller -> Bool
  | .parked ticket => ticket.tier = t ∧ low <= ticket.number ∧ ticket.number < low + d
  | _ => false

theorem countP_hasTicketIn_succ (callers : List LockCaller) (t : Tier) (low d : Nat) :
    callers.countP (hasTicketIn t low (d + 1)) =
      callers.countP (hasTicketIn t low d) +
        callers.countP (LockCaller.hasTicket t (low + d)) := by
  induction callers with
  | nil => rfl
  | cons c rest ih =>
      have hc : (hasTicketIn t low (d + 1) c).toNat =
          (hasTicketIn t low d c).toNat + (c.hasTicket t (low + d)).toNat := by
        cases c with
        | outside => rfl
        | holding held => rfl
        | parked ticket =>
            simp only [hasTicketIn, LockCaller.hasTicket]
            by_cases htier : ticket.tier = t
            · rcases Nat.lt_trichotomy ticket.number (low + d) with hlt | heq | hgt
              · have hnew : ticket.number < low + (d + 1) := by omega
                simp [htier, hlt, hnew, Nat.ne_of_lt hlt]
              · simp [htier, heq]
              · have hnew : ¬ ticket.number < low + (d + 1) := by omega
                simp [htier, hnew, Nat.not_lt_of_lt hgt, Nat.ne_of_gt hgt]
            · simp [htier]
      simp only [List.countP_cons, ih]
      revert hc
      cases hasTicketIn t low (d + 1) c <;> cases hasTicketIn t low d c <;>
        cases c.hasTicket t (low + d) <;> simp <;> omega

theorem Sound.countP_hasTicketIn (h : u.Sound) (t : Tier) (d : Nat)
    (hd : u.lock.served.get t + d <= u.lock.tickets.get t) :
    u.callers.countP (hasTicketIn t (u.lock.served.get t) d) = d := by
  induction d with
  | zero =>
      apply List.countP_eq_zero.mpr
      intro c _ hin
      cases c with
      | outside => cases hin
      | holding held => cases hin
      | parked ticket =>
          rcases of_decide_eq_true hin with ⟨_, hle, hlt⟩
          omega
  | succ d ih =>
      have hticket := h.ticket_eq t (u.lock.served.get t + d) (Nat.le_add_right _ _)
      have hissued : u.lock.served.get t + d < u.lock.tickets.get t := by omega
      rw [decide_eq_true hissued] at hticket
      rw [countP_hasTicketIn_succ, ih (by omega), hticket]
      rfl

theorem Sound.number_lt (h : u.Sound) {ticket : LockTicket}
    (hc : .parked ticket ∈ u.callers) : ticket.number < u.lock.tickets.get ticket.tier := by
  by_cases hwaits : u.lock.served.get ticket.tier <= ticket.number
  · by_contra hnot
    have hnone := h.ticket_eq ticket.tier ticket.number hwaits
    rw [decide_eq_false hnot] at hnone
    exact List.countP_eq_zero.mp hnone _ hc (by simp [LockCaller.hasTicket])
  · exact Nat.lt_of_lt_of_le (Nat.lt_of_not_le hwaits) (h.served_le ticket.tier)

theorem Sound.queued_eq (h : u.Sound) (t : Tier) :
    u.lock.served.get t + u.queued t = u.lock.tickets.get t := by
  have hle := h.served_le t
  have hall : u.queued t = u.callers.countP
      (hasTicketIn t (u.lock.served.get t) (u.lock.tickets.get t - u.lock.served.get t)) := by
    apply List.countP_congr
    intro c hc
    cases c with
    | outside => exact Iff.rfl
    | holding held => exact Iff.rfl
    | parked ticket =>
        have hlt := h.number_lt hc
        simp only [LockCaller.waitsAt, LockCaller.isUnserved, hasTicketIn, Bool.and_eq_true,
          decide_eq_true_eq]
        constructor
        · rintro ⟨htier, hwaits⟩
          subst htier
          exact ⟨rfl, hwaits, by omega⟩
        · rintro ⟨htier, hwaits, _⟩
          subst htier
          exact ⟨rfl, hwaits⟩
  rw [hall, h.countP_hasTicketIn t _ (by omega)]
  omega

theorem Sound.isHeldAt_of_waits (h : u.Sound) {ticket : LockTicket}
    (henter : u.lock.enter t = (some ticket, lock)) : exists r, u.IsHeldAt r := by
  have hholders : u.lock.holders = 1 := by
    unfold FieldLock.enter at henter
    split at henter
    · rename_i hbusy
      rcases Bool.or_eq_true _ _ ▸ hbusy with hheld | hblocked
      · exact Nat.le_antisymm h.holders_le (of_decide_eq_true hheld)
      · rcases FieldLock.exists_blocked hblocked with ⟨s, hs⟩
        exact h.held_of_blocked hs
    · cases henter
  have hpos : 0 < u.callers.countP (LockCaller.owns u.lock.served) := by
    rw [← h.holders_eq, hholders]
    exact Nat.one_pos
  rcases List.countP_pos_iff.mp hpos with ⟨c, hc, howns⟩
  rcases List.getElem?_of_mem hc with ⟨i, hi⟩
  cases c with
  | outside => cases howns
  | holding held => exact ⟨held, i, _, hi, decide_eq_true rfl⟩
  | parked ticket => exact ⟨ticket.tier, i, _, hi, decide_eq_true ⟨rfl, of_decide_eq_true howns⟩⟩

/-- A caller that begins to wait is due after a round for each caller before it, and one more. -/
theorem Sound.isDue_park (h : u.Sound) (hc : u.callers[caller]? = some .outside)
    {ticket : LockTicket} (henter : u.lock.enter t = (some ticket, lock)) :
    (LockUse.mk lock (u.callers.set caller (.parked ticket))).IsDue t ticket.number
      (u.lock.handoffs + 3 * (u.queued t + 1)) := by
  rcases h.isHeldAt_of_waits henter with ⟨r, hheld⟩
  rcases FieldLock.enter_eq_some henter with ⟨hticket, hlock⟩
  subst hticket hlock
  have hqueued := h.queued_eq t
  have hturns := FieldLock.turns_le r t
  refine ⟨?_, fun _ => ⟨r, hheld.set hc rfl nofun, ?_⟩, fun _ _ _ => Nat.le_add_right _ _⟩
  · simp only [PerTier.get_modify, if_true]
    exact Nat.lt_succ_self _
  · simp only
    omega

def ahead (u : LockUse) (t : Tier) : GuardCall -> Nat
  | .acquire caller s =>
      if s = t ∧ u.callers[caller]? = some .outside ∧ (u.lock.enter s).1 ≠ none then u.queued t
      else 0
  | _ => 0

/-- The most that were before any caller that began to wait at tier `t`. -/
def mostAhead (t : Tier) : LockUse -> List GuardCall -> Nat
  | _, [] => 0
  | u, call :: rest => max (u.ahead t call) (mostAhead t (u.guard call) rest)

/-- Nobody at tier `t` has waited longer, or will, than is due to `k` callers before it. -/
structure IsPatient (u : LockUse) (t : Tier) (k : Nat) : Prop where
  due : forall ticket, .parked ticket ∈ u.callers -> ticket.tier = t ->
    u.IsDue t ticket.number (ticket.since + 3 * (k + 1))
  longest : u.lock.longestWait.get t <= 3 * (k + 1)

theorem ahead_acquire (hc : u.callers[caller]? = some .outside) {ticket : LockTicket}
    (henter : u.lock.enter t = (some ticket, lock)) :
    u.ahead t (.acquire caller t) = u.queued t := by
  simp [ahead, hc, henter]

theorem Moves.parked {call : GuardCall} (hmoves : u.Moves call v) {ticket : LockTicket}
    (hticket : .parked ticket ∈ v.callers) :
    .parked ticket ∈ u.callers ∨ exists caller lock, call = .acquire caller ticket.tier ∧
      u.callers[caller]? = some .outside ∧ u.lock.enter ticket.tier = (some ticket, lock) ∧
        v = ⟨lock, u.callers.set caller (.parked ticket)⟩ := by
  cases hmoves with
  | nothing => exact .inl hticket
  | join =>
      rcases List.mem_append.mp hticket with hold | hnew
      · exact .inl hold
      · cases List.mem_singleton.mp hnew
  | @park caller s taken lock hc henter =>
      rcases List.mem_or_eq_of_mem_set hticket with hold | heq
      · exact .inl hold
      · injection heq with heq
        subst heq
        have htier : ticket.tier = s := by rw [(FieldLock.enter_eq_some henter).1]
        subst htier
        exact .inr ⟨caller, lock, rfl, hc, henter, rfl⟩
  | take hc henter | resume hc hwake | giveUp hc hnext | passOn hc hnext =>
      rcases List.mem_or_eq_of_mem_set hticket with hold | heq
      · exact .inl hold
      · cases heq

theorem IsPatient.moves {k : Nat} (hk : u.IsPatient t k) (h : u.Sound) {call : GuardCall}
    (hmoves : u.Moves call v) : v.IsPatient t (max k (u.ahead t call)) where
  due := by
    intro ticket hticket htier
    rcases hmoves.parked hticket with hold | ⟨caller, lock, hcall, hc, henter, hv⟩
    · exact ((hk.due ticket hold htier).moves h hmoves).mono (by omega)
    · subst htier
      have hsince : ticket.since = u.lock.handoffs := by
        rw [(FieldLock.enter_eq_some henter).1]
      rw [hcall, hv, ahead_acquire hc henter, hsince]
      exact (h.isDue_park hc henter).mono (by omega)
  longest := by
    have hlongest := hk.longest
    have hkept : v.lock.longestWait = u.lock.longestWait ->
        v.lock.longestWait.get t <= 3 * (max k (u.ahead t call) + 1) := by
      intro hsame
      rw [hsame]
      omega
    cases hmoves with
    | @resume caller ticket lock hc hwake =>
        rw [(FieldLock.wake_eq_some hwake).2]
        simp only [PerTier.get_modify]
        split
        · rename_i htier
          subst htier
          have hmem := List.mem_of_getElem? hc
          have hdue := (hk.due ticket hmem rfl).parked _ hmem (by simp [LockCaller.hasTicket])
          omega
        · omega
    | take hc henter =>
        apply hkept
        rw [(FieldLock.enter_eq_none henter).2]
    | park hc henter =>
        apply hkept
        rw [(FieldLock.enter_eq_some henter).2]
    | nothing | join | giveUp hc hnext | passOn hc hnext => exact hkept rfl

theorem IsPatient.guarded {k : Nat} (hk : u.IsPatient t k) (h : u.Sound)
    (calls : List GuardCall) : (u.guarded calls).IsPatient t (max k (mostAhead t u calls)) := by
  induction calls generalizing u k with
  | nil =>
      rw [mostAhead, Nat.max_zero]
      exact hk
  | cons call rest ih =>
      have hrest := ih (hk.moves h (h.moves call)) (h.guard call)
      rw [Nat.max_assoc] at hrest
      exact hrest

theorem start_isPatient (t : Tier) : start.IsPatient t 0 where
  due := fun ticket hticket => by cases hticket
  longest := by cases t <;> exact Nat.zero_le 3

theorem Moves.waits {call : GuardCall} (hmoves : u.Moves call v) {ticket : LockTicket}
    (hc : u.callers[caller]? = some (.parked ticket)) :
    v.callers[caller]? = some (.parked ticket) ∨
      ticket.number < v.lock.served.get ticket.tier := by
  have hother : forall {i : Nat} {b d : LockCaller}, u.callers[i]? = some b ->
      b ≠ .parked ticket -> (u.callers.set i d)[caller]? = some (.parked ticket) := by
    intro i b d hi hne
    rw [List.getElem?_set_ne, hc]
    rintro rfl
    rw [hc] at hi
    injection hi with hi
    exact hne hi.symm
  cases hmoves with
  | nothing => exact .inl hc
  | join =>
      rw [List.getElem?_append_left (List.getElem?_eq_some_iff.mp hc).1]
      exact .inl hc
  | take hi henter => exact .inl (hother hi nofun)
  | park hi henter => exact .inl (hother hi nofun)
  | giveUp hi hnext => exact .inl (hother hi nofun)
  | passOn hi hnext => exact .inl (hother hi nofun)
  | @resume i woken lock hi hwake =>
      rcases FieldLock.wake_eq_some hwake with ⟨hserved, hlock⟩
      by_cases heq : woken = ticket
      · rw [hlock, ← heq]
        exact .inr hserved
      · exact .inl (hother hi fun hsame => heq (LockCaller.parked.inj hsame))

theorem Moves.served_le {call : GuardCall} (hmoves : u.Moves call v) (t : Tier) :
    u.lock.served.get t <= v.lock.served.get t := by
  cases hmoves with
  | take hc henter => exact Nat.le_of_eq (by rw [(FieldLock.enter_eq_none henter).2])
  | park hc henter => exact Nat.le_of_eq (by rw [(FieldLock.enter_eq_some henter).2])
  | resume hc hwake => exact Nat.le_of_eq (by rw [(FieldLock.wake_eq_some hwake).2])
  | nothing | join | giveUp hc hnext => exact Nat.le_refl _
  | passOn hc hnext =>
      simp only [PerTier.get_modify]
      split <;> omega

theorem Sound.waits_guarded (h : u.Sound) {ticket : LockTicket}
    (hc : u.callers[caller]? = some (.parked ticket) ∨
      ticket.number < u.lock.served.get ticket.tier) (calls : List GuardCall) :
    (u.guarded calls).callers[caller]? = some (.parked ticket) ∨
      ticket.number < (u.guarded calls).lock.served.get ticket.tier := by
  induction calls generalizing u with
  | nil => exact hc
  | cons call rest ih =>
      apply ih (h.guard call)
      rcases hc with hwaits | hserved
      · exact (h.moves call).waits hwaits
      · exact .inr (Nat.lt_of_lt_of_le hserved ((h.moves call).served_le _))

/--
A caller that begins to wait with `k` callers of its tier unserved before it waits on
until it is served, and it is served by the `3 * (k + 1)`-th handoff from then on.  The
longest wait of a tier is bounded by the most callers that were ever before another.
-/
theorem bypass_is_bounded (calls : List GuardCall) (t : Tier) :
    let u := start.guarded calls
    (forall (caller : Nat) ticket, u.callers[caller]? = some .outside ->
      (u.lock.enter t).1 = some ticket -> forall later,
        let v := (u.guard (.acquire caller t)).guarded later
        (v.lock.served.get t <= ticket.number ->
          v.callers[caller]? = some (.parked ticket) ∧
            v.lock.handoffs < u.lock.handoffs + 3 * (u.queued t + 1)) ∧
        (v.callers[caller]? = some (.parked ticket) ->
          v.lock.handoffs <= u.lock.handoffs + 3 * (u.queued t + 1))) ∧
      u.lock.longestWait.get t <= 3 * (mostAhead t start calls + 1) := by
  intro u
  have h : u.Sound := start_sound.guarded calls
  constructor
  · intro caller ticket hc hticket later v
    have henter : u.lock.enter t = (some ticket, (u.lock.enter t).2) := Prod.ext hticket rfl
    have htier : ticket.tier = t := by rw [(FieldLock.enter_eq_some henter).1]
    have hparked : u.guard (.acquire caller t) =
        ⟨(u.lock.enter t).2, u.callers.set caller (.parked ticket)⟩ := by
      simp only [LockUse.guard, LockUse.act, hc]
      rw [henter]
    have hsound := h.guard (.acquire caller t)
    have hdue := (hparked ▸ h.isDue_park hc henter).guarded hsound later
    have hnow : (u.guard (.acquire caller t)).callers[caller]? = some (.parked ticket) := by
      rw [hparked]
      exact List.getElem?_set_self (List.getElem?_eq_some_iff.mp hc).1
    have hwaits := hsound.waits_guarded (.inl hnow) later
    constructor
    · intro hunserved
      refine ⟨hwaits.resolve_right ?_, hdue.handoffs_lt hunserved⟩
      rw [htier]
      exact Nat.not_lt.mpr hunserved
    · intro hstill
      exact hdue.parked _ (List.mem_of_getElem? hstill) (by simp [LockCaller.hasTicket, htier])
  · have hpatient := (start_isPatient t).guarded start_sound calls
    rw [Nat.zero_max] at hpatient
    exact hpatient.longest

end LockUse
end AirDefense
