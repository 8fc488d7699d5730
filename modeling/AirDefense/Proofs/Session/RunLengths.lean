import AirDefense.Proofs.Number.Rounding
import AirDefense.Session.Options

/-!
# How long a run is asked to be

A run length is read as a number of seconds, and has to be positive as such; then it is rounded
to nanoseconds.  So no more than half a nanosecond becomes no time at all, and what is too long
to be kept is a fault.  All else that may be wrong with the options is reported.
-/

namespace AirDefense

/-- The natural number nearest to `x`, a tie going to the even one. -/
structure IsNearest (x : Rat) (n : Nat) : Prop where
  le_half : |x - n| <= 1 / 2
  even_of_tie : |x - n| = 1 / 2 -> n % 2 = 0

namespace IsNearest

variable {x : Rat} {n : Nat}

/-- Only what is no more than a half is rounded to zero. -/
theorem pos_iff (h : IsNearest x n) (hx : 0 <= x) : 0 < n <-> 1 / 2 < x := by
  constructor
  · intro hn
    have hone : (1 : Rat) <= n := by exact_mod_cast hn
    have hbounds := abs_le.mp h.le_half
    apply lt_of_le_of_ne
    · linarith
    · intro htie
      have heq : (n : Rat) = 1 := by linarith
      have heven := h.even_of_tie (by rw [heq, ← htie]; norm_num)
      rw [Nat.cast_eq_one.mp heq] at heven
      cases heven
  · intro hlt
    apply Nat.pos_of_ne_zero
    intro hzero
    have hle := h.le_half
    rw [hzero, Nat.cast_zero, sub_zero, abs_of_nonneg hx] at hle
    linarith

theorem self (n : Nat) : IsNearest n n := by
  constructor
  · norm_num
  · norm_num

theorem of_below (n : Nat) {rest : Rat} (hnonneg : 0 <= rest) (hlt : rest < 1 / 2) :
    IsNearest (n + rest) n := by
  have heq : (n : Rat) + rest - n = rest := by ring
  constructor
  · rw [heq, abs_of_nonneg hnonneg]
    exact hlt.le
  · rw [heq, abs_of_nonneg hnonneg]
    intro htie
    exact absurd htie hlt.ne

theorem of_above (n : Nat) {rest : Rat} (hgt : 1 / 2 < rest) (hlt : rest < 1) :
    IsNearest (n + rest) (n + 1 : Nat) := by
  have heq : (n : Rat) + rest - (n + 1 : Nat) = -(1 - rest) := by
    push_cast
    ring
  have hnonneg : 0 <= 1 - rest := by linarith
  constructor
  · rw [heq, abs_neg, abs_of_nonneg hnonneg]
    linarith
  · rw [heq, abs_neg, abs_of_nonneg hnonneg]
    intro htie
    exact absurd hgt (by linarith)

theorem of_tie (n : Nat) : IsNearest (n + 1 / 2) (n + n % 2) := by
  have hparity := Nat.mod_two_eq_zero_or_one n
  constructor
  · rcases hparity with heven | hodd
    · rw [heven]
      norm_num
    · rw [hodd]
      norm_num
  · intro _
    omega

theorem nearest (num : Nat) {den : Nat} (hden : 0 < den) :
    IsNearest (num / den) (BinaryFormat.nearest num den) := by
  have hpos : (0 : Rat) < den := by exact_mod_cast hden
  have hrest : num % den < den := Nat.mod_lt num hden
  have hdivided : (num : Rat) / den = (num / den : Nat) + (num % den : Nat) / den := by
    field_simp
    exact_mod_cast (Nat.div_add_mod num den).symm
  have hlow : 2 * (num % den) < den <-> ((num % den : Nat) : Rat) / den < 1 / 2 := by
    rw [div_lt_div_iff₀ hpos (by norm_num), one_mul, mul_comm]
    norm_cast
  have hhigh : den < 2 * (num % den) <-> 1 / 2 < ((num % den : Nat) : Rat) / den := by
    rw [div_lt_div_iff₀ (by norm_num) hpos, one_mul, mul_comm _ (2 : Rat)]
    norm_cast
  have hnonneg : 0 <= ((num % den : Nat) : Rat) / den := by positivity
  have hlt : ((num % den : Nat) : Rat) / den < 1 := by
    rw [div_lt_one hpos]
    exact_mod_cast hrest
  rw [hdivided]
  unfold BinaryFormat.nearest
  simp only
  generalize num / den = quotient at *
  generalize ((num % den : Nat) : Rat) / den = rest at *
  split
  · rename_i hbelow
    exact .of_below quotient hnonneg (hlow.mp hbelow)
  · rename_i hbelow
    split
    · rename_i habove
      exact .of_above quotient (hhigh.mp habove) hlt
    · rename_i habove
      have htie : rest = 1 / 2 :=
        le_antisymm (not_lt.mp (mt hhigh.mpr habove)) (not_lt.mp (mt hlow.mpr hbelow))
      rw [htie]
      exact .of_tie quotient

end IsNearest

namespace RunLength

theorem value_of_nonneg (m : Nat) {q : Int} (hq : 0 <= q) :
    Rounding.value m q = (m * powerOfTwo q.toNat : Nat) := by
  have hexponent : (2 : Rat) ^ q = 2 ^ q.toNat := by
    rw [← zpow_natCast, Int.toNat_of_nonneg hq]
  rw [Rounding.value, hexponent, powerOfTwo, Nat.cast_mul]
  norm_num

theorem value_of_neg (m : Nat) {q : Int} (hq : ¬ 0 <= q) :
    Rounding.value m q = m / (powerOfTwo (-q).toNat : Nat) := by
  have hexponent : (2 : Rat) ^ q = (2 ^ (-q).toNat)⁻¹ := by
    rw [← zpow_natCast, Int.toNat_of_nonneg (by omega), zpow_neg, inv_inv]
  rw [Rounding.value, hexponent, powerOfTwo, div_eq_mul_inv]
  norm_num

theorem ofSeconds?_cases (m : Nat) (q : Int) :
    (2 ^ 64 <= Rounding.value m q ∧ ofSeconds? m q = .error .durationOverflow) ∨
      (Rounding.value m q < 2 ^ 64 ∧ exists d, ofSeconds? m q = .ok d ∧
        IsNearest (Rounding.value m q * 10 ^ 9) d) := by
  have hlimit : ((limit : Nat) : Rat) = 2 ^ 64 := by norm_num [limit]
  have hsecond : ((second : Nat) : Rat) = 10 ^ 9 := by norm_num [second]
  unfold ofSeconds?
  by_cases hq : 0 <= q
  · simp only [if_pos hq]
    rw [value_of_nonneg m hq, ← hlimit, ← hsecond]
    split
    · rename_i hlong
      exact .inl ⟨by exact_mod_cast hlong, rfl⟩
    · rename_i hshort
      apply Or.inr
      constructor
      · exact_mod_cast Nat.lt_of_not_le hshort
      · exact ⟨_, rfl, by rw [← Nat.cast_mul]; exact .self _⟩
  · simp only [if_neg hq]
    have hden := powerOfTwo_pos (-q).toNat
    have hpos : (0 : Rat) < (powerOfTwo (-q).toNat : Nat) := by exact_mod_cast hden
    rw [value_of_neg m hq, ← hlimit, ← hsecond, le_div_iff₀ hpos, div_lt_iff₀ hpos]
    split
    · rename_i hlong
      exact .inl ⟨by exact_mod_cast hlong, rfl⟩
    · rename_i hshort
      apply Or.inr
      constructor
      · exact_mod_cast Nat.lt_of_not_le hshort
      · exists BinaryFormat.nearest (m * second) (powerOfTwo (-q).toNat)
        constructor
        · rfl
        · rw [div_mul_eq_mul_div, ← Nat.cast_mul]
          exact .nearest (m * second) hden

end RunLength

namespace RunOptions

/-- The text writes the positive number `v`. -/
def IsLength (text : String) (v : Rat) : Prop :=
  exists m q, WrittenNumber.ofText text = .ok (.finite false m q) ∧ 0 < m ∧ v = Rounding.value m q

theorem seconds_of_isLength {text : String} {v : Rat} (h : IsLength text v) :
    (2 ^ 64 <= v ∧ seconds text = .error (.fault .durationOverflow)) ∨
      (v < 2 ^ 64 ∧ exists d, seconds text = .ok d ∧ IsNearest (v * 10 ^ 9) d) := by
  rcases h with ⟨m, q, htext, hm, rfl⟩
  have hseconds : seconds text = (RunLength.ofSeconds? m q).mapError .fault := by
    simp only [seconds, htext, if_neg hm.ne']
  rw [hseconds]
  rcases RunLength.ofSeconds?_cases m q with ⟨hlong, hfault⟩ | ⟨hshort, d, hlength, hnearest⟩
  · rw [hfault]
    exact .inl ⟨hlong, rfl⟩
  · rw [hlength]
    exact .inr ⟨hshort, d, rfl, hnearest⟩

theorem seconds_of_not_isLength {text : String} (h : forall v, ¬ IsLength text v) :
    exists e, seconds text = .error e ∧ forall f, e ≠ .fault f := by
  unfold seconds
  split
  · exact ⟨_, rfl, fun f => nofun⟩
  · rename_i m q htext
    have hzero : m = 0 := by
      by_contra hne
      exact h _ ⟨m, q, htext, Nat.pos_of_ne_zero hne, rfl⟩
    rw [if_pos hzero]
    exact ⟨_, rfl, fun f => nofun⟩
  · exact ⟨_, rfl, fun f => nofun⟩

theorem seconds_ok {text : String} {d : Nat} (h : seconds text = .ok d) :
    exists v, IsLength text v ∧ v < 2 ^ 64 ∧ IsNearest (v * 10 ^ 9) d := by
  by_cases hlength : exists v, IsLength text v
  · rcases hlength with ⟨v, hv⟩
    rcases seconds_of_isLength hv with ⟨-, hfault⟩ | ⟨hshort, d', hd, hnearest⟩
    · cases hfault.symm.trans h
    · cases hd.symm.trans h
      exact ⟨v, hv, hshort, hnearest⟩
  · rcases seconds_of_not_isLength (not_exists.mp hlength) with ⟨e, he, -⟩
    cases he.symm.trans h

theorem seconds_fault {text : String} {f : Fault} (h : seconds text = .error (.fault f)) :
    f = .durationOverflow ∧ exists v, IsLength text v ∧ 2 ^ 64 <= v := by
  by_cases hlength : exists v, IsLength text v
  · rcases hlength with ⟨v, hv⟩
    rcases seconds_of_isLength hv with ⟨hlong, hfault⟩ | ⟨-, d, hd, -⟩
    · cases hfault.symm.trans h
      exact ⟨rfl, v, hv, hlong⟩
    · cases hd.symm.trans h
  · rcases seconds_of_not_isLength (not_exists.mp hlength) with ⟨e, he, hnofault⟩
    cases he.symm.trans h
    exact absurd rfl (hnofault f)

theorem IsLength.pos {text : String} {v : Rat} (h : IsLength text v) : 0 < v := by
  rcases h with ⟨m, q, -, hm, rfl⟩
  exact Rounding.value_pos hm q

/-!
## Arguments
-/

variable {o o' : RunOptions} {arguments rest : List String} {argument flag text : String}
  {environment : String -> Option String}

def IsFlag (argument : String) : Prop :=
  argument = "--seconds" ∨ argument = "-s"

theorem isFlag_iff : (argument = "--seconds" || argument = "-s") = true <-> IsFlag argument := by
  simp [IsFlag]

/-- The run lengths that reading comes to, with nothing at fault before them. -/
inductive Asks (text : String) : RunOptions -> List String -> Prop where
  | here {o : RunOptions} {flag : String} {rest : List String} (hflag : IsFlag flag) :
      Asks text o (flag :: text :: rest)
  | afterLength {o : RunOptions} {flag before : String} {length : Nat} {rest : List String}
      (hflag : IsFlag flag) (hlength : seconds before = .ok length)
      (h : Asks text { o with runFor := some length } rest) :
      Asks text o (flag :: before :: rest)
  | afterPath {o : RunOptions} {path : String} {rest : List String} (hflag : ¬ IsFlag path)
      (hpath : path.toList.head? ≠ some '-') (hopen : o.settingsPath = none)
      (h : Asks text { o with settingsPath := some path } rest) :
      Asks text o (path :: rest)

theorem readArguments_flag (hflag : IsFlag flag) (text : String) (rest : List String)
    (o : RunOptions) :
    readArguments (flag :: text :: rest) o =
      match seconds text with
      | .ok length => readArguments rest { o with runFor := some length }
      | .error e => .error e := by
  rw [readArguments.eq_def]
  exact if_pos (isFlag_iff.mpr hflag)

theorem readArguments_path (hflag : ¬ IsFlag argument) (hpath : argument.toList.head? ≠ some '-')
    (hopen : o.settingsPath = none) (rest : List String) :
    readArguments (argument :: rest) o =
      readArguments rest { o with settingsPath := some argument } := by
  have hhelp : ¬ (argument = "-h" || argument = "--help") = true := by
    intro hhelp
    rcases Bool.or_eq_true_iff.mp hhelp with hshort | hlong
    · rw [of_decide_eq_true hshort] at hpath
      exact hpath (by decide)
    · rw [of_decide_eq_true hlong] at hpath
      exact hpath (by decide)
  have hfirst : ¬ o.settingsPath.isSome = true := by
    rw [hopen]
    exact Bool.false_ne_true
  rw [readArguments.eq_def]
  simp only [if_neg (mt isFlag_iff.mp hflag), if_neg hhelp, if_neg hpath, if_neg hfirst]

theorem Asks.readArguments_eq (h : Asks text o arguments) {e : OptionError}
    (hseconds : seconds text = .error e) : readArguments arguments o = .error e := by
  induction h with
  | here hflag => rw [readArguments_flag hflag, hseconds]
  | afterLength hflag hlength _ ih =>
      rw [readArguments_flag hflag, hlength]
      exact ih
  | afterPath hflag hpath hopen _ ih => rw [readArguments_path hflag hpath hopen, ih]

def Gets (o read : RunOptions) (arguments : List String) : Prop :=
  read.runFor = o.runFor ∨
    exists text d, Asks text o arguments ∧ seconds text = .ok d ∧ read.runFor = some d

def Explains (o : RunOptions) (arguments : List String) : Except OptionError Invocation -> Prop
  | .ok (.run read) => Gets o read arguments
  | .ok .help => "-h" ∈ arguments ∨ "--help" ∈ arguments
  | .error (.fault f) =>
      exists text, Asks text o arguments ∧ seconds text = .error (.fault f)
  | .error _ => True

theorem Explains.widen {outcome : Except OptionError Invocation}
    (hasks : forall text, Asks text o' rest -> Asks text o arguments)
    (hgets : Gets o o' arguments) (hsub : rest ⊆ arguments) (h : Explains o' rest outcome) :
    Explains o arguments outcome := by
  cases outcome with
  | ok invocation =>
      cases invocation with
      | run read =>
          rcases h with hsame | ⟨text, d, htext, hd, hrun⟩
          · exact hgets.imp hsame.trans fun ⟨text, d, htext, hd, hrun⟩ =>
              ⟨text, d, htext, hd, hsame.trans hrun⟩
          · exact .inr ⟨text, d, hasks text htext, hd, hrun⟩
      | help => exact h.imp (hsub ·) (hsub ·)
  | error e =>
      cases e with
      | fault f =>
          rcases h with ⟨text, htext, hfault⟩
          exact ⟨text, hasks text htext, hfault⟩
      | _ => trivial

theorem explains_readArguments (arguments : List String) (o : RunOptions) :
    Explains o arguments (readArguments arguments o) := by
  fun_induction readArguments arguments o with
  | case1 o => exact .inl rfl
  | case2 => trivial
  | case3 flag o hflag text rest length hseconds ih =>
      have hflag' : IsFlag flag := isFlag_iff.mp hflag
      apply ih.widen
      · exact fun later => .afterLength hflag' hseconds
      · exact .inr ⟨text, length, .here hflag', hseconds, rfl⟩
      · exact fun _ hmem => List.mem_cons_of_mem _ (List.mem_cons_of_mem _ hmem)
  | case4 flag o hflag text rest e hseconds =>
      cases e with
      | fault f => exact ⟨text, .here (isFlag_iff.mp hflag), hseconds⟩
      | _ => trivial
  | case5 argument rest o hflag hhelp =>
      have hhelp' : argument = "-h" ∨ argument = "--help" := by simpa using hhelp
      rcases hhelp' with rfl | rfl
      · exact .inl List.mem_cons_self
      · exact .inr List.mem_cons_self
  | case6 => trivial
  | case7 => trivial
  | case8 path rest o hflag hhelp hpath hopen ih =>
      have hflag' : ¬ IsFlag path := mt isFlag_iff.mpr hflag
      apply ih.widen
      · exact fun later => .afterPath hflag' hpath (by simpa using hopen)
      · exact .inl rfl
      · exact List.subset_cons_self path rest

/-!
## Arguments and the environment
-/

/-- What is read as the run length: an argument, or, if none gives one, the environment. -/
inductive Asked (arguments : List String) (environment : String -> Option String)
    (text : String) : Prop where
  | byArgument (h : Asks text unset arguments)
  | byEnvironment (o : RunOptions) (hread : readArguments arguments unset = .ok (.run o))
      (hopen : o.runFor = none) (htext : environment secondsVariable = some text)

theorem complete_open (hopen : o.runFor = none) (htext : environment secondsVariable = some text) :
    complete environment o = (environmentSeconds text).map fun length =>
      ⟨o.settingsPath.or (environment settingsVariable), some length⟩ := by
  simp only [complete, hopen, htext]
  cases environmentSeconds text with
  | ok length => rfl
  | error e => rfl

theorem complete_settled (h : o.runFor = none -> environment secondsVariable = none) :
    complete environment o =
      .ok ⟨o.settingsPath.or (environment settingsVariable), o.runFor⟩ := by
  unfold complete
  split
  · rename_i hopen htext
    rw [h hopen] at htext
    cases htext
  · rfl

theorem environmentSeconds_fault_iff {f : Fault} :
    environmentSeconds text = .error (.fault f) <-> seconds text = .error (.fault f) := by
  unfold environmentSeconds
  cases seconds text with
  | ok length => simp
  | error e => cases e <;> simp

theorem environmentSeconds_ok_iff {d : Nat} :
    environmentSeconds text = .ok d <-> seconds text = .ok d := by
  unfold environmentSeconds
  cases seconds text with
  | ok length => simp
  | error e => cases e <;> simp

theorem Asked.read_eq (h : Asked arguments environment text) {f : Fault}
    (hfault : seconds text = .error (.fault f)) :
    read arguments environment = .error (.fault f) := by
  unfold read
  cases h with
  | byArgument h => rw [h.readArguments_eq hfault]
  | byEnvironment o hread hopen htext =>
      rw [hread]
      simp only [complete_open hopen htext, environmentSeconds_fault_iff.mpr hfault]
      rfl

/-- What an outcome tells about the run length that is read. -/
def Accounts (arguments : List String) (environment : String -> Option String) :
    Except OptionError Invocation -> Prop
  | .ok (.run r) => forall d, r.runFor = some d ->
      exists text, Asked arguments environment text ∧ seconds text = .ok d
  | .ok .help => "-h" ∈ arguments ∨ "--help" ∈ arguments
  | .error (.fault f) =>
      exists text, Asked arguments environment text ∧ seconds text = .error (.fault f)
  | .error _ => True

theorem accounts_complete (hread : readArguments arguments unset = .ok (.run o))
    (hgets : Gets unset o arguments) :
    Accounts arguments environment ((complete environment o).map .run) := by
  by_cases hsettled : o.runFor = none -> environment secondsVariable = none
  · rw [complete_settled hsettled]
    intro d hrun
    rcases hgets with hsame | ⟨text, d', hasks, hd, hgiven⟩
    · cases hsame.symm.trans hrun
    · cases hgiven.symm.trans hrun
      exact ⟨text, .byArgument hasks, hd⟩
  · rcases Classical.not_imp.mp hsettled with ⟨hopen, hset⟩
    rcases Option.ne_none_iff_exists'.mp hset with ⟨text, htext⟩
    have hasked : Asked arguments environment text := .byEnvironment o hread hopen htext
    rw [complete_open hopen htext]
    cases hseconds : environmentSeconds text with
    | ok length =>
        intro d hrun
        cases hrun
        exact ⟨text, hasked, environmentSeconds_ok_iff.mp hseconds⟩
    | error e =>
        cases e with
        | fault f => exact ⟨text, hasked, environmentSeconds_fault_iff.mp hseconds⟩
        | _ => trivial

theorem accounts_read (arguments : List String) (environment : String -> Option String) :
    Accounts arguments environment (read arguments environment) := by
  have hexplains := explains_readArguments arguments unset
  unfold read
  cases hread : readArguments arguments unset with
  | ok invocation =>
      rw [hread] at hexplains
      cases invocation with
      | run o => exact accounts_complete hread hexplains
      | help => exact hexplains
  | error e =>
      rw [hread] at hexplains
      cases e with
      | fault f =>
          rcases hexplains with ⟨text, hasks, hfault⟩
          exact ⟨text, .byArgument hasks, hfault⟩
      | _ => trivial

theorem read_outcome (hshort : "-h" ∉ arguments) (hlong : "--help" ∉ arguments) :
    (exists r, read arguments environment = .ok (.run r)) ∨
      (exists e, read arguments environment = .error e ∧ forall f, e ≠ .fault f) ∨
      read arguments environment = .error (.fault .durationOverflow) := by
  have haccounts := accounts_read arguments environment
  generalize read arguments environment = outcome at haccounts
  cases outcome with
  | ok invocation =>
      cases invocation with
      | run r => exact .inl ⟨r, rfl⟩
      | help => exact absurd haccounts (not_or.mpr ⟨hshort, hlong⟩)
  | error e =>
      cases e with
      | fault f =>
          rcases haccounts with ⟨text, -, hfault⟩
          rw [(seconds_fault hfault).1]
          exact .inr (.inr rfl)
      | _ => exact .inr (.inl ⟨_, rfl, nofun⟩)

theorem read_fault_iff :
    read arguments environment = .error (.fault .durationOverflow) <->
      exists text v, Asked arguments environment text ∧ IsLength text v ∧ 2 ^ 64 <= v := by
  constructor
  · intro hfault
    have haccounts := accounts_read arguments environment
    rw [hfault] at haccounts
    rcases haccounts with ⟨text, hasked, hseconds⟩
    rcases (seconds_fault hseconds).2 with ⟨v, hv, hlong⟩
    exact ⟨text, v, hasked, hv, hlong⟩
  · intro ⟨text, v, hasked, hv, hlong⟩
    rcases seconds_of_isLength hv with ⟨-, hfault⟩ | ⟨hshort, -⟩
    · exact hasked.read_eq hfault
    · exact absurd hlong hshort.not_ge

theorem read_rounded {r : RunOptions} {d : Nat} (hread : read arguments environment = .ok (.run r))
    (hrun : r.runFor = some d) :
    exists text v, Asked arguments environment text ∧ IsLength text v ∧ v < 2 ^ 64 ∧
      IsNearest (v * 10 ^ 9) d ∧ (0 < d <-> 1 / 2 < v * 10 ^ 9) := by
  have haccounts := accounts_read arguments environment
  rw [hread] at haccounts
  rcases haccounts d hrun with ⟨text, hasked, hseconds⟩
  rcases seconds_ok hseconds with ⟨v, hv, hshort, hnearest⟩
  have hpos := hv.pos
  exact ⟨text, v, hasked, hv, hshort, hnearest, hnearest.pos_iff (by positivity)⟩

/--
Options are read or reported, except that a run length of 2 ^ 64 seconds or more is a fault.  What
is read as positive is rounded to nanoseconds, so a run of no more than half of one has no length.
-/
theorem run_length_is_rounded (arguments : List String) (environment : String -> Option String)
    (hshort : "-h" ∉ arguments) (hlong : "--help" ∉ arguments) :
    ((exists r, read arguments environment = .ok (.run r)) ∨
      (exists e, read arguments environment = .error e ∧ forall f, e ≠ .fault f) ∨
      read arguments environment = .error (.fault .durationOverflow)) ∧
    (read arguments environment = .error (.fault .durationOverflow) <->
      exists text v, Asked arguments environment text ∧ IsLength text v ∧ 2 ^ 64 <= v) ∧
    (forall r d, read arguments environment = .ok (.run r) -> r.runFor = some d ->
      exists text v, Asked arguments environment text ∧ IsLength text v ∧ v < 2 ^ 64 ∧
        IsNearest (v * 10 ^ 9) d ∧ (0 < d <-> 1 / 2 < v * 10 ^ 9)) := by
  constructor
  · exact read_outcome hshort hlong
  · constructor
    · exact read_fault_iff
    · intro r d
      exact read_rounded

theorem run_length_is_rounded_two_seconds :
    ("-h" ∉ ["--seconds", "2"] ∧ "--help" ∉ ["--seconds", "2"]) ∧
      read ["--seconds", "2"] (fun _ => none) = .ok (.run ⟨none, some 2000000000⟩) ∧
      exists text v, Asked ["--seconds", "2"] (fun _ => none) text ∧ IsLength text v ∧
        v < 2 ^ 64 ∧ IsNearest (v * 10 ^ 9) 2000000000 ∧
        (0 < 2000000000 <-> 1 / 2 < v * 10 ^ 9) := by
  have hread : read ["--seconds", "2"] (fun _ => none) =
      .ok (.run ⟨none, some 2000000000⟩) := by decide +kernel
  exact ⟨⟨by decide, by decide⟩, hread,
    (run_length_is_rounded _ _ (by decide) (by decide)).2.2 _ _ hread rfl⟩

/-- A tenth of a nanosecond is positive and is kept as nothing; 10 ^ 20 seconds are a fault. -/
theorem run_length_of_no_time :
    ("-h" ∉ ["--seconds", "1e-10"] ∧ "--help" ∉ ["--seconds", "1e-10"]) ∧
      read ["--seconds", "1e-10"] (fun _ => none) = .ok (.run ⟨none, some 0⟩) ∧
      read [] (fun _ => some "1e-10") = .ok (.run ⟨some "1e-10", some 0⟩) ∧
      ("-h" ∉ ["--seconds", "1e20"] ∧ "--help" ∉ ["--seconds", "1e20"]) ∧
      read ["--seconds", "1e20"] (fun _ => none) = .error (.fault .durationOverflow) ∧
      read [] (fun _ => some "1e20") = .error (.fault .durationOverflow) := by
  decide +kernel

end RunOptions
end AirDefense
