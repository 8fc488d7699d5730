import AirDefense.Proofs.Field.LockWaits

/-!
# Lines at the field lock

The field lock knows its callers by counters only.  To them it is an owner and three
lines: a caller takes the lock that nobody owns, or joins the line of its tier, and
whoever leaves the lock gives it to the first in the next line round.  The counters
always stand for such lines, and callers of the one are served just as callers of the
other.
-/

namespace AirDefense

/-- A lock as lines of callers. -/
structure LockLines where
  owner : Option Nat
  /-- The callers of each tier that were not given the lock yet, the first one first. -/
  lines : PerTier (List Nat)
  /-- How often the lock was given to a caller in a line. -/
  grants : Nat
deriving DecidableEq, Repr

namespace LockLines

def idle : LockLines := ⟨none, .constant [], 0⟩

def enter (q : LockLines) (caller : Nat) (t : Tier) : LockLines :=
  match q.owner with
  | none => { q with owner := some caller }
  | some _ => { q with lines := q.lines.modify t (· ++ [caller]) }

def pass (q : LockLines) : List Tier -> LockLines
  | [] => { q with owner := none }
  | t :: rest =>
      match q.lines.get t with
      | [] => q.pass rest
      | caller :: behind =>
          { owner := some caller, lines := q.lines.set t behind, grants := q.grants + 1 }

/-- A release at tier `t` comes to that tier's own line last. -/
def leave (q : LockLines) (t : Tier) : LockLines :=
  q.pass [.ofIndex (t.index + 1), .ofIndex (t.index + 2), t]

variable {q : LockLines}

theorem pass_of_empty {ts : List Tier} (h : forall t, q.lines.get t = []) :
    q.pass ts = { q with owner := none } := by
  induction ts with
  | nil => rfl
  | cons t rest ih =>
      rw [pass, h t]
      exact ih

theorem pass_of_find? {ts : List Tier} {p : Tier -> Bool} {next : Tier}
    (hp : forall t, p t = true ↔ q.lines.get t ≠ []) (hnext : ts.find? p = some next)
    {caller : Nat} {behind : List Nat} (hline : q.lines.get next = caller :: behind) :
    q.pass ts =
      { owner := some caller, lines := q.lines.set next behind, grants := q.grants + 1 } := by
  induction ts with
  | nil => cases hnext
  | cons t rest ih =>
      rw [pass]
      cases ht : q.lines.get t with
      | nil =>
          have hnot : ¬ p t = true := fun h => (hp t).mp h ht
          rw [List.find?_cons_of_neg hnot] at hnext
          exact ih hnext
      | cons first others =>
          have hyes : p t = true := (hp t).mpr (by simp [ht])
          rw [List.find?_cons_of_pos hyes] at hnext
          injection hnext with hnext
          subst hnext
          rw [hline] at ht
          injection ht with hfirst hothers
          rw [← hfirst, ← hothers]

theorem pass_cases (q : LockLines) (ts : List Tier) :
    q.pass ts = { q with owner := none } ∨
      exists next first behind, q.lines.get next = first :: behind ∧
        q.pass ts =
          { owner := some first, lines := q.lines.set next behind, grants := q.grants + 1 } := by
  induction ts with
  | nil => exact .inl rfl
  | cons t rest ih =>
      rw [pass]
      cases ht : q.lines.get t with
      | nil => exact ih
      | cons first behind => exact .inr ⟨t, first, behind, ht, rfl⟩

end LockLines

theorem FieldLock.rotation_eq (t : Tier) :
    rotation t = [.ofIndex (t.index + 1), .ofIndex (t.index + 2), t] := by
  cases t <;> rfl

/-!
## Lines in use
-/

/-- How far a caller has come. -/
inductive LockStand where
  | outside
  | waiting (tier : Tier)
  | holding (tier : Tier)
deriving DecidableEq, Repr

def LockCaller.stand : LockCaller -> LockStand
  | outside => .outside
  | parked ticket => .waiting ticket.tier
  | holding t => .holding t

structure LineUse where
  lock : LockLines
  callers : List LockStand
deriving DecidableEq, Repr

namespace LineUse

def start : LineUse := ⟨.idle, []⟩

/--
One step.  A caller that wakes returns with the lock if it was given the lock, and waits
on if it was not.
-/
def act (q : LineUse) : LockCall -> LineUse
  | .join => { q with callers := q.callers ++ [.outside] }
  | .acquire caller t =>
      match q.callers[caller]? with
      | some .outside =>
          { lock := q.lock.enter caller t
            callers := q.callers.set caller
              (if q.lock.owner = none then .holding t else .waiting t) }
      | _ => q
  | .wake caller =>
      match q.callers[caller]? with
      | some (.waiting t) =>
          if q.lock.owner = some caller then
            { q with callers := q.callers.set caller (.holding t) }
          else q
      | _ => q
  | .release caller t =>
      match q.callers[caller]? with
      | some (.holding _) =>
          { lock := q.lock.leave t, callers := q.callers.set caller .outside }
      | _ => q

def run (q : LineUse) (calls : List LockCall) : LineUse :=
  calls.foldl act q

end LineUse

/-!
## Counters that stand for lines
-/

namespace LockUse

/--
The counters of `u` stand for the lines of `q`: the `k`-th in line has the `k`-th ticket
that was not served.
-/
structure Refines (u : LockUse) (q : LineUse) : Prop where
  callers : q.callers = u.callers.map LockCaller.stand
  owner : forall i : Nat, q.lock.owner = some i ↔
    exists c, u.callers[i]? = some c ∧ c.owns u.lock.served = true
  line : forall (t : Tier) (k i : Nat), (q.lock.lines.get t)[k]? = some i ↔
    exists since, u.callers[i]? = some (.parked ⟨t, u.lock.served.get t + k, since⟩)
  grants : q.lock.grants = u.lock.handoffs

theorem start_refines : start.Refines LineUse.start where
  callers := rfl
  owner := fun i => by simp [start, LineUse.start, LockLines.idle]
  line := fun t k i => by simp [start, LineUse.start, LockLines.idle]
  grants := rfl

variable {u : LockUse} {q : LineUse} {c d : LockCaller} {caller i : Nat} {t : Tier}
  {ticket : LockTicket}

theorem Refines.stand_eq (hr : u.Refines q) (hc : u.callers[caller]? = some c) :
    q.callers[caller]? = some c.stand := by
  rw [hr.callers, List.getElem?_map, hc, Option.map_some]

theorem Refines.stand_eq_none (hr : u.Refines q) (hc : u.callers[caller]? = none) :
    q.callers[caller]? = none := by
  rw [hr.callers, List.getElem?_map, hc, Option.map_none]

theorem Refines.owner_iff (hr : u.Refines q) (hc : u.callers[caller]? = some c) :
    q.lock.owner = some caller ↔ c.owns u.lock.served = true := by
  rw [hr.owner]
  constructor
  · rintro ⟨b, hb, howns⟩
    rw [hc] at hb
    injection hb with hb
    rwa [hb]
  · exact fun howns => ⟨c, hc, howns⟩

theorem Refines.owner_eq_none_iff (hr : u.Refines q) (h : u.Sound) :
    q.lock.owner = none ↔ u.lock.holders = 0 := by
  rw [h.holders_eq, List.countP_eq_zero, Option.eq_none_iff_forall_ne_some]
  constructor
  · intro hnone c hc howns
    rcases List.getElem?_of_mem hc with ⟨i, hi⟩
    exact hnone i ((hr.owner i).mpr ⟨c, hi, howns⟩)
  · intro hnone i hi
    rcases (hr.owner i).mp hi with ⟨c, hc, howns⟩
    exact hnone c (List.mem_of_getElem? hc) howns

theorem Refines.served_add_length (hr : u.Refines q) (h : u.Sound) (t : Tier) :
    u.lock.served.get t + (q.lock.lines.get t).length = u.lock.tickets.get t := by
  have hplace : forall k, k < (q.lock.lines.get t).length ↔
      u.lock.served.get t + k < u.lock.tickets.get t := by
    intro k
    have hticket := h.ticket_eq t (u.lock.served.get t + k) (Nat.le_add_right _ _)
    constructor
    · intro hk
      rcases (hr.line t k _).mp (List.getElem?_eq_getElem hk) with ⟨since, hc⟩
      exact h.number_lt (List.mem_of_getElem? hc)
    · intro hlt
      rw [decide_eq_true hlt] at hticket
      have hpos : 0 < u.callers.countP
          (LockCaller.hasTicket t (u.lock.served.get t + k)) := by
        rw [hticket]
        exact Nat.one_pos
      rcases List.countP_pos_iff.mp hpos with ⟨c, hc, hhas⟩
      rcases List.getElem?_of_mem hc with ⟨i, hi⟩
      cases c with
      | outside => cases hhas
      | holding held => cases hhas
      | parked ticket =>
          rcases ticket with ⟨tier, number, since⟩
          rcases of_decide_eq_true hhas with ⟨htier, hnumber⟩
          simp only at htier hnumber
          subst htier hnumber
          exact (List.getElem?_eq_some_iff.mp ((hr.line _ k i).mpr ⟨since, hi⟩)).1
  have hle := h.served_le t
  have hlength := hplace (u.lock.tickets.get t - u.lock.served.get t)
  have hlast := hplace ((q.lock.lines.get t).length)
  omega

theorem Refines.hasUnserved_iff (hr : u.Refines q) (h : u.Sound) (t : Tier) :
    u.lock.hasUnserved t = true ↔ q.lock.lines.get t ≠ [] := by
  have hlength := hr.served_add_length h t
  rw [FieldLock.hasUnserved_iff, ← List.length_pos_iff]
  omega

theorem outside_ne_parked : LockCaller.outside ≠ .parked ticket := nofun

theorem holding_ne_parked {held : Tier} : LockCaller.holding held ≠ .parked ticket := nofun

/-- Who waits, and with which ticket, is not changed by a caller that does not. -/
theorem parked_set_iff {callers : List LockCaller} (hc : callers[caller]? = some c)
    (hold : c ≠ .parked ticket) (hnew : d ≠ .parked ticket) :
    (callers.set caller d)[i]? = some (.parked ticket) ↔
      callers[i]? = some (.parked ticket) := by
  by_cases heq : i = caller
  · subst heq
    rw [List.getElem?_set_self (List.getElem?_eq_some_iff.mp hc).1, hc]
    simp [hold, hnew]
  · rw [List.getElem?_set_ne (Ne.symm heq)]

theorem exists_parked_set_iff {callers : List LockCaller} (hc : callers[caller]? = some c)
    {number : Nat} (hold : forall since, c ≠ .parked ⟨t, number, since⟩)
    (hnew : forall since, d ≠ .parked ⟨t, number, since⟩) :
    (exists since, (callers.set caller d)[i]? = some (.parked ⟨t, number, since⟩)) ↔
      exists since, callers[i]? = some (.parked ⟨t, number, since⟩) :=
  exists_congr fun since => parked_set_iff hc (hold since) (hnew since)

/-!
## Every step keeps the lines
-/

theorem Sound.enter_free (h : u.Sound) (hidle : u.lock.holders = 0) (t : Tier) :
    u.lock.enter t = (none, { u.lock with holders := 1 }) := by
  have hblocked : u.lock.isBlockedUpTo t = false := by
    by_contra hblocked
    rcases FieldLock.exists_blocked (Bool.not_eq_false _ ▸ hblocked) with ⟨s, hs⟩
    have hheld := h.held_of_blocked hs
    omega
  simp [FieldLock.enter, hidle, hblocked]

theorem enter_busy (hbusy : u.lock.holders ≠ 0) (t : Tier) :
    u.lock.enter t =
      (some ⟨t, u.lock.tickets.get t, u.lock.handoffs⟩,
        { u.lock with
          blocked := u.lock.blocked.modify t (· + 1)
          tickets := u.lock.tickets.modify t (· + 1) }) := by
  simp [FieldLock.enter, Nat.pos_of_ne_zero hbusy]

theorem Refines.take (hr : u.Refines q) (hc : u.callers[caller]? = some .outside)
    (howner : q.lock.owner = none) :
    (LockUse.mk { u.lock with holders := 1 } (u.callers.set caller (.holding t))).Refines
      ⟨{ q.lock with owner := some caller }, q.callers.set caller (.holding t)⟩ where
  callers := by rw [hr.callers, List.map_set]; rfl
  owner := by
    intro i
    constructor
    · intro hi
      injection hi with hi
      subst hi
      exact ⟨_, List.getElem?_set_self (List.getElem?_eq_some_iff.mp hc).1, rfl⟩
    · rintro ⟨b, hb, howns⟩
      rcases getElem?_set_cases hb with ⟨heq, _⟩ | ⟨_, hold⟩
      · rw [heq]
      · have hbefore := (hr.owner i).mpr ⟨b, hold, howns⟩
        rw [howner] at hbefore
        cases hbefore
  line := by
    intro s k i
    exact (hr.line s k i).trans
      (exists_parked_set_iff hc (fun _ => outside_ne_parked) fun _ => holding_ne_parked).symm
  grants := hr.grants

theorem Refines.park (hr : u.Refines q) (h : u.Sound)
    (hc : u.callers[caller]? = some .outside) :
    (LockUse.mk
      { u.lock with
        blocked := u.lock.blocked.modify t (· + 1)
        tickets := u.lock.tickets.modify t (· + 1) }
      (u.callers.set caller (.parked ⟨t, u.lock.tickets.get t, u.lock.handoffs⟩))).Refines
      ⟨{ q.lock with lines := q.lock.lines.modify t (· ++ [caller]) },
        q.callers.set caller (.waiting t)⟩ where
  callers := by rw [hr.callers, List.map_set]; rfl
  owner := by
    intro i
    have hserved := Nat.not_lt.mpr (h.served_le t)
    rw [hr.owner]
    constructor
    · rintro ⟨b, hb, howns⟩
      refine ⟨b, ?_, howns⟩
      rw [List.getElem?_set_ne, hb]
      rintro rfl
      rw [hc] at hb
      injection hb with hb
      subst hb
      cases howns
    · rintro ⟨b, hb, howns⟩
      rcases getElem?_set_cases hb with ⟨_, heq⟩ | ⟨_, hold⟩
      · rw [heq] at howns
        exact absurd (of_decide_eq_true howns) hserved
      · exact ⟨b, hold, howns⟩
  line := by
    intro s k i
    have hlength := hr.served_add_length h t
    have hset := List.getElem?_set_self
      (a := LockCaller.parked ⟨t, u.lock.tickets.get t, u.lock.handoffs⟩)
      (List.getElem?_eq_some_iff.mp hc).1
    simp only [PerTier.get_modify]
    by_cases hlast : s = t ∧ (q.lock.lines.get t).length = k
    · rcases hlast with ⟨hs, hk⟩
      subst hs hk
      rw [if_pos rfl, hlength, List.getElem?_concat_length]
      constructor
      · intro hi
        injection hi with hi
        subst hi
        exact ⟨_, hset⟩
      · rintro ⟨since, hi⟩
        rcases getElem?_set_cases hi with ⟨heq, _⟩ | ⟨_, hold⟩
        · rw [heq]
        · exact absurd (h.number_lt (List.mem_of_getElem? hold)) (Nat.lt_irrefl _)
    · have hother : forall since, LockCaller.parked
            ⟨t, u.lock.tickets.get t, u.lock.handoffs⟩ ≠
          .parked ⟨s, u.lock.served.get s + k, since⟩ := by
        intro since heq
        injection heq with heq
        injection heq with hs hnumber
        subst hs
        exact hlast ⟨rfl, by omega⟩
      have hline : (if s = t then q.lock.lines.get s ++ [caller]
          else q.lock.lines.get s)[k]? = (q.lock.lines.get s)[k]? := by
        split
        · rename_i hs
          subst hs
          have hne : (q.lock.lines.get s).length ≠ k := fun hk => hlast ⟨rfl, hk⟩
          by_cases hk : k < (q.lock.lines.get s).length
          · exact List.getElem?_append_left hk
          · rw [List.getElem?_eq_none (by simp; omega), List.getElem?_eq_none (by omega)]
        · rfl
      rw [hline, hr.line]
      exact (exists_parked_set_iff hc (fun _ => outside_ne_parked) hother).symm
  grants := hr.grants

theorem Refines.acquire (hr : u.Refines q) (h : u.Sound) (caller : Nat) (t : Tier) :
    (u.act (.acquire caller t)).Refines (q.act (.acquire caller t)) := by
  cases hc : u.callers[caller]? with
  | none =>
      have hnone := hr.stand_eq_none hc
      simpa only [LockUse.act, LineUse.act, hc, hnone] using hr
  | some c =>
      have hstand := hr.stand_eq hc
      cases c with
      | parked ticket =>
          simpa only [LockUse.act, LineUse.act, hc, hstand, LockCaller.stand] using hr
      | holding held =>
          simpa only [LockUse.act, LineUse.act, hc, hstand, LockCaller.stand] using hr
      | outside =>
          simp only [LockUse.act, LineUse.act, hc, hstand, LockCaller.stand, LockLines.enter]
          cases howner : q.lock.owner with
          | none =>
              rw [h.enter_free ((hr.owner_eq_none_iff h).mp howner)]
              simpa only [if_true, howner] using hr.take hc howner
          | some other =>
              have hbusy : u.lock.holders ≠ 0 := fun hidle => by
                rw [(hr.owner_eq_none_iff h).mpr hidle] at howner
                cases howner
              rw [enter_busy hbusy]
              simpa only [reduceCtorEq, if_false, howner] using hr.park h hc

theorem Refines.resume (hr : u.Refines q) (hc : u.callers[caller]? = some (.parked ticket))
    (hserved : ticket.number < u.lock.served.get ticket.tier) (longest : PerTier Nat) :
    (LockUse.mk
      { u.lock with
        blocked := u.lock.blocked.modify ticket.tier (· - 1)
        longestWait := longest }
      (u.callers.set caller (.holding ticket.tier))).Refines
      ⟨q.lock, q.callers.set caller (.holding ticket.tier)⟩ where
  callers := by rw [hr.callers, List.map_set]; rfl
  owner := by
    intro i
    by_cases heq : i = caller
    · subst heq
      rw [hr.owner_iff hc, List.getElem?_set_self (List.getElem?_eq_some_iff.mp hc).1]
      simp [LockCaller.owns, hserved]
    · rw [hr.owner, List.getElem?_set_ne (Ne.symm heq)]
  line := by
    intro s k i
    refine (hr.line s k i).trans
      (exists_parked_set_iff hc (fun since heq => ?_) fun _ => holding_ne_parked).symm
    injection heq with heq
    rw [heq] at hserved
    exact absurd hserved (Nat.not_lt.mpr (Nat.le_add_right _ _))
  grants := hr.grants

theorem Refines.wake (hr : u.Refines q) (caller : Nat) :
    (u.act (.wake caller)).Refines (q.act (.wake caller)) := by
  cases hc : u.callers[caller]? with
  | none =>
      have hnone := hr.stand_eq_none hc
      simpa only [LockUse.act, LineUse.act, hc, hnone] using hr
  | some c =>
      have hstand := hr.stand_eq hc
      cases c with
      | outside =>
          simpa only [LockUse.act, LineUse.act, hc, hstand, LockCaller.stand] using hr
      | holding held =>
          simpa only [LockUse.act, LineUse.act, hc, hstand, LockCaller.stand] using hr
      | parked ticket =>
          have howner := (hr.owner_iff hc).trans decide_eq_true_iff
          simp only [LockUse.act, LineUse.act, hc, hstand, LockCaller.stand, FieldLock.wake,
            howner]
          by_cases hserved : ticket.number < u.lock.served.get ticket.tier
          · rw [if_neg (Nat.not_le.mpr hserved), if_pos hserved]
            exact hr.resume hc hserved _
          · rw [if_pos (Nat.le_of_not_lt hserved), if_neg hserved]
            exact hr

section Leaving

variable {held next : Tier}

theorem Refines.owner_eq (hr : u.Refines q) (hc : u.callers[caller]? = some (.holding held)) :
    q.lock.owner = some caller :=
  (hr.owner_iff hc).mpr rfl

theorem Refines.giveUp (hr : u.Refines q) (hc : u.callers[caller]? = some (.holding held)) :
    (LockUse.mk { u.lock with holders := 0 } (u.callers.set caller .outside)).Refines
      ⟨{ q.lock with owner := none }, q.callers.set caller .outside⟩ where
  callers := by rw [hr.callers, List.map_set]; rfl
  owner := by
    intro i
    refine ⟨nofun, ?_⟩
    rintro ⟨b, hb, howns⟩
    rcases getElem?_set_cases hb with ⟨_, heq⟩ | ⟨hne, hold⟩
    · rw [heq] at howns
      cases howns
    · have hbefore := (hr.owner i).mpr ⟨b, hold, howns⟩
      rw [hr.owner_eq hc] at hbefore
      exact absurd (Option.some.inj hbefore).symm hne
  line := by
    intro s k i
    exact (hr.line s k i).trans
      (exists_parked_set_iff hc (fun _ => holding_ne_parked) fun _ => outside_ne_parked).symm
  grants := hr.grants

/-- The first in line is given the lock as the next ticket is served. -/
theorem Refines.passOn (hr : u.Refines q) (hc : u.callers[caller]? = some (.holding held))
    {first : Nat} {behind : List Nat} (hline : q.lock.lines.get next = first :: behind) :
    (LockUse.mk
      { u.lock with
        served := u.lock.served.modify next (· + 1)
        handoffs := u.lock.handoffs + 1 }
      (u.callers.set caller .outside)).Refines
      ⟨{ owner := some first, lines := q.lock.lines.set next behind,
         grants := q.lock.grants + 1 },
        q.callers.set caller .outside⟩ where
  callers := by rw [hr.callers, List.map_set]; rfl
  owner := by
    intro i
    have hfirst : forall i, i = first ↔
        exists since, u.callers[i]? = some (.parked ⟨next, u.lock.served.get next, since⟩) := by
      intro i
      have hplace := hr.line next 0 i
      rw [hline, List.getElem?_cons_zero, Option.some.injEq] at hplace
      exact eq_comm.trans hplace
    simp only [Option.some.injEq]
    constructor
    · intro hi
      rcases (hfirst i).mp hi.symm with ⟨since, hticket⟩
      refine ⟨_, (parked_set_iff hc holding_ne_parked outside_ne_parked).mpr hticket, ?_⟩
      simp [LockCaller.owns, PerTier.get_modify]
    · rintro ⟨b, hb, howns⟩
      rcases getElem?_set_cases hb with ⟨_, heq⟩ | ⟨hne, hold⟩
      · rw [heq] at howns
        cases howns
      have hnew : ¬ b.owns u.lock.served = true := by
        intro hbefore
        have hsame := (hr.owner i).mpr ⟨b, hold, hbefore⟩
        rw [hr.owner_eq hc] at hsame
        exact hne (Option.some.inj hsame).symm
      cases b with
      | outside => cases howns
      | holding held => exact absurd rfl hnew
      | parked ticket =>
          rcases ticket with ⟨tier, number, since⟩
          simp only [LockCaller.owns, PerTier.get_modify, decide_eq_true_eq] at howns hnew
          split at howns
          · rename_i htier
            subst htier
            have hnumber : number = u.lock.served.get tier := by omega
            rw [hnumber] at hold
            exact ((hfirst i).mpr ⟨since, hold⟩).symm
          · exact absurd howns hnew
  line := by
    intro s k i
    simp only [PerTier.get_set, PerTier.get_modify]
    by_cases hs : s = next
    · subst hs
      have hplace := hr.line s (k + 1) i
      rw [hline, List.getElem?_cons_succ, ← Nat.add_assoc, Nat.add_right_comm] at hplace
      rw [if_pos rfl, if_pos rfl, hplace]
      exact (exists_parked_set_iff hc (fun _ => holding_ne_parked)
        fun _ => outside_ne_parked).symm
    · rw [if_neg hs, if_neg hs, hr.line]
      exact (exists_parked_set_iff hc (fun _ => holding_ne_parked)
        fun _ => outside_ne_parked).symm
  grants := by rw [hr.grants]

end Leaving

theorem Refines.release (hr : u.Refines q) (h : u.Sound) (caller : Nat) (t : Tier) :
    (u.act (.release caller t)).Refines (q.act (.release caller t)) := by
  cases hc : u.callers[caller]? with
  | none =>
      have hnone := hr.stand_eq_none hc
      simpa only [LockUse.act, LineUse.act, hc, hnone] using hr
  | some c =>
      have hstand := hr.stand_eq hc
      cases c with
      | outside =>
          simpa only [LockUse.act, LineUse.act, hc, hstand, LockCaller.stand] using hr
      | parked ticket =>
          simpa only [LockUse.act, LineUse.act, hc, hstand, LockCaller.stand] using hr
      | holding held =>
          have hholders := h.held_of_owns (List.mem_of_getElem? hc) rfl
          simp only [LineUse.act, hstand, LockCaller.stand, LockLines.leave,
            ← FieldLock.rotation_eq]
          cases hnext : u.lock.nextTier t with
          | none =>
              have hempty : forall s, q.lock.lines.get s = [] := by
                intro s
                have hle := FieldLock.le_of_nextTier hnext s
                have hlength := hr.served_add_length h s
                exact List.eq_nil_of_length_eq_zero (by omega)
              simp only [LockUse.act, hc, FieldLock.release?_idle hholders hnext,
                LockLines.pass_of_empty hempty]
              exact hr.giveUp hc
          | some next =>
              have hline := (hr.hasUnserved_iff h next).mp
                (FieldLock.hasUnserved_iff.mpr (FieldLock.lt_of_nextTier hnext))
              rcases List.exists_cons_of_ne_nil hline with ⟨first, behind, hfirst⟩
              simp only [LockUse.act, hc, FieldLock.release?_handoff hholders hnext,
                LockLines.pass_of_find? (hr.hasUnserved_iff h) hnext hfirst]
              exact hr.passOn hc hfirst

theorem Refines.act (hr : u.Refines q) (h : u.Sound) (call : LockCall) :
    (u.act call).Refines (q.act call) := by
  cases call with
  | join =>
      have hjoin : forall {c : LockCaller} {i : Nat}, c ≠ .outside ->
          ((u.callers ++ [LockCaller.outside])[i]? = some c ↔ u.callers[i]? = some c) := by
        intro c i hne
        constructor
        · intro hc
          exact (getElem?_concat_cases hc).resolve_right fun hnew => hne hnew.2
        · intro hc
          rw [List.getElem?_append_left (List.getElem?_eq_some_iff.mp hc).1, hc]
      exact
        { callers := by simp [LockUse.act, LineUse.act, hr.callers, LockCaller.stand]
          owner := by
            intro i
            refine (hr.owner i).trans (exists_congr fun c => and_congr_left fun howns => ?_)
            exact (hjoin (by rintro rfl; cases howns)).symm
          line := by
            intro s k i
            exact (hr.line s k i).trans
              (exists_congr fun since => (hjoin outside_ne_parked.symm).symm)
          grants := hr.grants }
  | acquire caller t => exact hr.acquire h caller t
  | wake caller => exact hr.wake caller
  | release caller t => exact hr.release h caller t

theorem Refines.run (hr : u.Refines q) (h : u.Sound) (calls : List LockCall) :
    (u.run calls).Refines (q.run calls) := by
  induction calls generalizing u q with
  | nil => exact hr
  | cons call rest ih => exact ih (hr.act h call) (h.act call)

end LockUse

end AirDefense
