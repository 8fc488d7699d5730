import AirDefense.Proofs.Faults
import AirDefense.Proofs.Json.Grammar

/-!
# The reader reads all of the grammar

Whatever text the grammar derives for a value, the reader reads that value from it and stops
right behind it.  A number has no end of its own, so the characters that follow have to be
those that may follow a value.
-/

namespace AirDefense
namespace Json
namespace Reader

/-!
## Strings
-/

section Scanning

variable {sound : Bool} {acc rest : List Char} {a b c d e : Char} {u : Nat}

theorem scan_plain (hquote : c ≠ '"') (hslash : c ≠ '\\') (hcontrol : 0x20 <= c.toNat) :
    scan sound acc (c :: rest) = scan sound (c :: acc) rest := by
  rw [scan.eq_def]
  change (if c = '"' then _ else _) = _
  rw [if_neg hquote, if_neg hslash, if_neg (by omega)]

theorem scan_quote : scan sound acc ('"' :: rest) =
    .done (if sound then some (String.ofList acc.reverse) else none) rest := by
  rw [scan.eq_def]
  rfl

theorem scan_escape (he : escaped? e = some c) :
    scan sound acc ('\\' :: e :: rest) = scan sound (c :: acc) rest := by
  rw [scan.eq_def]
  simp [he]

theorem scan_unit (hu : codeUnit? a b c d = some u) (hleading : isLeading u = false)
    (htrailing : isTrailing u = false) :
    scan sound acc ('\\' :: 'u' :: a :: b :: c :: d :: rest) =
      scan sound (Char.ofNat u :: acc) rest := by
  rw [scan.eq_def]
  simp [escaped?, hu, hleading, htrailing]

theorem not_trailing_of_leading (h : isLeading u = true) : isTrailing u = false := by
  unfold isLeading at h
  unfold isTrailing
  simp only [Bool.and_eq_true, decide_eq_true_eq, Bool.and_eq_false_imp, decide_eq_false_iff_not]
    at h ⊢
  omega

theorem scan_pair {f g h i : Char} {t : Nat} (hu : codeUnit? a b c d = some u)
    (hleading : isLeading u = true) (ht : codeUnit? f g h i = some t)
    (htrailing : isTrailing t = true) :
    scan sound acc ('\\' :: 'u' :: a :: b :: c :: d :: '\\' :: 'u' :: f :: g :: h :: i :: rest) =
      scan sound (pair u t :: acc) rest := by
  rw [scan.eq_def]
  simp [escaped?, hu, hleading, not_trailing_of_leading hleading, ht, htrailing]

theorem scan_trailing (hu : codeUnit? a b c d = some u) (htrailing : isTrailing u = true) :
    scan sound acc ('\\' :: 'u' :: a :: b :: c :: d :: rest) = scan false acc rest := by
  rw [scan.eq_def]
  simp [escaped?, hu, htrailing]

/-- A leading half makes the string unsound, whatever stands behind it but its other half. -/
theorem scan_leading {cs : List Char} {s : Option (List Char)}
    (hu : codeUnit? a b c d = some u) (hleading : isLeading u = true) (hcs : Spells cs s)
    (halone : ¬ Trails cs) :
    scan sound acc ('\\' :: 'u' :: a :: b :: c :: d :: (cs ++ '"' :: rest)) =
      scan false acc (cs ++ '"' :: rest) := by
  rw [scan.eq_def]
  simp only [escaped?, hu, hleading, not_trailing_of_leading hleading]
  cases hcs with
  | nil => cases rest <;> simp
  | plain hquote hslash hcontrol h =>
      rename_i x cs s
      cases cs <;> simp [hslash]
  | escape he h =>
      rename_i x y cs s
      have hx : x ≠ 'u' := by
        rintro rfl
        cases he
      simp [hx]
  | unit hu hleading htrailing h => simp [hu, htrailing]
  | pair hu hleading ht htrailing h => simp [hu, not_trailing_of_leading hleading]
  | half hu hhalf h =>
      rcases hhalf with htrailing | ⟨hleading, _⟩
      · exact absurd ⟨_, _, _, _, _, _, rfl, hu, htrailing⟩ halone
      · simp [hu, not_trailing_of_leading hleading]

/-- By induction on the spelling, for whatever was scanned before. -/
theorem scan_of_spells {cs : List Char} {s : Option (List Char)} (h : Spells cs s)
    (rest : List Char) :
    forall (sound : Bool) (acc : List Char), scan sound acc (cs ++ '"' :: rest) =
      .done (if sound then s.map fun x => String.ofList (acc.reverse ++ x) else none) rest := by
  have hcons : forall (c : Char) (s : Option (List Char)) (acc : List Char),
      (s.map fun x => String.ofList ((c :: acc).reverse ++ x)) =
        (s.map (c :: ·)).map fun x => String.ofList (acc.reverse ++ x) := by
    intro c s acc
    cases s <;> simp
  induction h with
  | nil =>
      intro sound acc
      simp [scan_quote]
  | plain hquote hslash hcontrol h ih =>
      intro sound acc
      rw [List.cons_append, scan_plain hquote hslash hcontrol, ih, hcons]
  | escape he h ih =>
      intro sound acc
      rw [List.cons_append, List.cons_append, scan_escape he, ih, hcons]
  | unit hu hleading htrailing h ih =>
      intro sound acc
      simp only [List.cons_append]
      rw [scan_unit hu hleading htrailing, ih, hcons]
  | pair hu hleading ht htrailing h ih =>
      intro sound acc
      simp only [List.cons_append]
      rw [scan_pair hu hleading ht htrailing, ih, hcons]
  | half hu hhalf h ih =>
      intro sound acc
      have hscan : forall text, Scanned.done (if false then text else none) rest =
          .done (if sound then (none : Option (List Char)).map fun x =>
            String.ofList (acc.reverse ++ x) else none) rest := by
        intro text
        cases sound <;> rfl
      simp only [List.cons_append]
      rcases hhalf with htrailing | ⟨hleading, halone⟩
      · rw [scan_trailing hu htrailing, ih, hscan]
      · rw [scan_leading hu hleading h halone, ih, hscan]

end Scanning

theorem scan_string {cs : List Char} {s : Option (List Char)} (h : Spells cs s)
    (rest : List Char) :
    scan true [] (cs ++ '"' :: rest) = .done (s.map String.ofList) rest := by
  rw [scan_of_spells h]
  rfl

/-!
## Numbers
-/

def NoDigit (rest : List Char) : Prop :=
  forall c, rest.head? = some c -> c.isDigit = false

/-- What may follow a value: nothing, a blank, a comma or what closes a list. -/
def Ends (rest : List Char) : Prop :=
  forall c, rest.head? = some c -> isBlank c = true ∨ c ∈ [',', ']', '\x7d']

theorem Ends.head_ne {rest : List Char} (h : Ends rest) {c : Char} (hc : rest.head? = some c) :
    c.isDigit = false ∧ c ∉ ['.', 'e', 'E'] := by
  have hfollow : forall c, c ∈ [' ', '\n', '\t', '\r', ',', ']', '\x7d'] ->
      c.isDigit = false ∧ c ∉ ['.', 'e', 'E'] := by
    intro c hc
    simp only [List.mem_cons, List.not_mem_nil, or_false] at hc
    rcases hc with rfl | rfl | rfl | rfl | rfl | rfl | rfl <;> decide
  apply hfollow
  rcases h c hc with hblank | hclose
  · unfold isBlank at hblank
    simp only [Bool.or_eq_true, decide_eq_true_eq, or_assoc] at hblank
    rcases hblank with rfl | rfl | rfl | rfl <;> decide
  · exact List.mem_append_right [' ', '\n', '\t', '\r'] hclose

theorem Ends.noDigit {rest : List Char} (h : Ends rest) : NoDigit rest :=
  fun _ hc => (h.head_ne hc).1

theorem isDigit_of_mem_digitText {ds : List Nat} (hds : forall d, d ∈ ds -> d < 10) {c : Char}
    (hc : c ∈ Numeral.digitText ds) : c.isDigit = true := by
  rcases List.mem_map.mp hc with ⟨d, hd, rfl⟩
  rw [Nat.isDigit_digitChar, decide_eq_true (hds d hd)]

theorem toNat_digitChar {d : Nat} (hd : d < 10) : d.digitChar.toNat - '0'.toNat = d := by
  rw [Nat.toNat_digitChar_of_lt_ten hd]
  exact Nat.add_sub_cancel_left 48 d

theorem digits_digitText {ds : List Nat} (hds : forall d, d ∈ ds -> d < 10) {rest : List Char}
    (hrest : NoDigit rest) : digits (Numeral.digitText ds ++ rest) = (ds, rest) := by
  have hall : forall c, c ∈ Numeral.digitText ds -> c.isDigit = true :=
    fun c hc => isDigit_of_mem_digitText hds hc
  have hnone : rest.takeWhile Char.isDigit = [] ∧ rest.dropWhile Char.isDigit = rest := by
    cases rest with
    | nil => exact ⟨rfl, rfl⟩
    | cons c rest =>
        have hc := hrest c rfl
        simp [hc]
  have hvalues : (Numeral.digitText ds).map (fun c => c.toNat - '0'.toNat) = ds := by
    unfold Numeral.digitText
    rw [List.map_map]
    exact (List.map_congr_left fun d hd => toNat_digitChar (hds d hd)).trans (List.map_id ds)
  unfold digits
  rw [List.takeWhile_append_of_pos hall, List.dropWhile_append_of_pos hall, hnone.1, hnone.2,
    List.append_nil, hvalues]

theorem exponent_of_spells {es rest : List Char} {x : Option (Bool × List Nat)}
    (h : SpellsExponent es x) (hne : forall minus ds, x = some (minus, ds) -> ds ≠ [])
    (hlt : forall minus ds, x = some (minus, ds) -> forall d, d ∈ ds -> d < 10)
    (hrest : Ends rest) : exponent (es ++ rest) = .ok (x, rest) := by
  have hdigits : forall (minus : Bool) (ds : List Nat), x = some (minus, ds) ->
      exists d ds', ds = d :: ds' ∧ digits (Numeral.digitText ds ++ rest) = (d :: ds', rest) := by
    intro minus ds hx
    rcases List.exists_cons_of_ne_nil (hne minus ds hx) with ⟨d, ds', rfl⟩
    exact ⟨d, ds', rfl, digits_digitText (hlt minus _ hx) hrest.noDigit⟩
  cases h with
  | absent =>
      cases rest with
      | nil => rfl
      | cons c rest =>
          have hc := (hrest.head_ne rfl).2
          simp only [List.mem_cons, not_or] at hc
          simp [exponent, hc.2.1, hc.2.2.1]
  | bare he =>
      rcases hdigits _ _ rfl with ⟨d, ds', rfl, hd⟩
      have hfirst : d.digitChar.isDigit = true :=
        isDigit_of_mem_digitText (hlt _ _ rfl) List.mem_cons_self
      have hminus : d.digitChar ≠ '-' := by
        intro h
        rw [h] at hfirst
        cases hfirst
      have hplus : d.digitChar ≠ '+' := by
        intro h
        rw [h] at hfirst
        cases hfirst
      change digits (d.digitChar :: (Numeral.digitText ds' ++ rest)) = _ at hd
      change exponent (_ :: d.digitChar :: (Numeral.digitText ds' ++ rest)) = _
      simp [exponent, he, hminus, hplus, hd]
  | plus he =>
      rcases hdigits _ _ rfl with ⟨d, ds', rfl, hd⟩
      simp [exponent, he, hd]
  | minus he =>
      rcases hdigits _ _ rfl with ⟨d, ds', rfl, hd⟩
      simp [exponent, he, hd]

theorem head_of_spellsExponent {es rest : List Char} {x : Option (Bool × List Nat)}
    (h : SpellsExponent es x) (hrest : Ends rest) {c : Char} (hc : (es ++ rest).head? = some c) :
    c.isDigit = false ∧ c ≠ '.' := by
  have hletter : forall {e : Char}, e = 'e' ∨ e = 'E' -> e.isDigit = false ∧ e ≠ '.' := by
    rintro e (rfl | rfl) <;> decide
  cases h with
  | absent =>
      rcases hrest.head_ne hc with ⟨hdigit, hmem⟩
      exact ⟨hdigit, fun hpoint => hmem (by simp [hpoint])⟩
  | bare he =>
      cases hc
      exact hletter he
  | plus he =>
      cases hc
      exact hletter he
  | minus he =>
      cases hc
      exact hletter he

theorem fraction_fractionText {n : Numeral} (hn : n.WellFormed) {rest : List Char}
    (hrest : forall c, rest.head? = some c -> c.isDigit = false ∧ c ≠ '.') :
    fraction (n.fractionText ++ rest) = .ok (n.fraction, rest) := by
  unfold Numeral.fractionText
  have hlt := hn.fraction_lt
  cases hfraction : n.fraction with
  | nil =>
      cases rest with
      | nil => rfl
      | cons c rest =>
          have hpoint := (hrest c rfl).2
          simp [fraction, hpoint]
  | cons d ds =>
      rw [hfraction] at hlt
      have hd := digits_digitText hlt fun c hc => (hrest c hc).1
      simp [fraction, hd]

theorem numeral_of_spells {cs rest : List Char} {n : Numeral} (h : SpellsNumeral cs n)
    (hrest : Ends rest) : numeral n.negative (cs ++ rest) = .ok (n, rest) := by
  cases h with
  | mk hn h =>
      rename_i es
      have hstop := fun c => head_of_spellsExponent h hrest (c := c)
      have hpoint : NoDigit (n.fractionText ++ (es ++ rest)) := by
        unfold Numeral.fractionText
        split
        · exact fun c hc => (hstop c hc).1
        · intro c hc
          cases hc
          rfl
      have hwhole := digits_digitText hn.whole_lt hpoint
      have hfraction := fraction_fractionText hn hstop
      have hexponent := exponent_of_spells h hn.exponent_ne_nil hn.exponent_lt hrest
      simp only [List.append_assoc]
      unfold numeral
      rw [hwhole]
      split
      · rename_i hnil
        exact absurd (congrArg Prod.fst hnil) hn.whole_ne_nil
      · rename_i hzero
        have hlead := hn.no_leading_zero _ (congrArg Prod.fst hzero)
        cases hlead
      · rename_i heq
        cases heq
        exact bind_eq_ok.mpr ⟨_, hfraction, bind_eq_ok.mpr ⟨_, hexponent, rfl⟩⟩

/-!
## Blanks
-/

variable {fuel : Nat} {first : Bool} {c : Char} {cs bs rest rest' body : List Char}
variable {v : Value} {xs : Items} {ms : Members}

theorem skipBlanks_cons (hc : isBlank c = true) : skipBlanks (c :: cs) = skipBlanks cs :=
  List.dropWhile_cons_of_pos hc

theorem skipBlanks_of_not_blank (hc : isBlank c = false) : skipBlanks (c :: cs) = c :: cs :=
  List.dropWhile_cons_of_neg (by simp [hc])

theorem skipBlanks_append (hbs : bs.all isBlank = true) :
    skipBlanks (bs ++ rest) = skipBlanks rest :=
  List.dropWhile_append_of_pos (List.all_eq_true.mp hbs)

theorem value_congr (h : skipBlanks cs = skipBlanks bs) : value fuel cs = value fuel bs := by
  cases fuel with
  | zero => rfl
  | succ fuel =>
      unfold value
      rw [h]

theorem items_congr (h : skipBlanks cs = skipBlanks bs) :
    items fuel first cs = items fuel first bs := by
  cases fuel with
  | zero => rfl
  | succ fuel =>
      unfold items
      rw [h]

theorem members_congr (h : skipBlanks cs = skipBlanks bs) :
    members fuel first cs = members fuel first bs := by
  cases fuel with
  | zero => rfl
  | succ fuel =>
      unfold members
      rw [h]

theorem skipBlanks_skipBlanks (cs : List Char) : skipBlanks (skipBlanks cs) = skipBlanks cs := by
  induction cs with
  | nil => rfl
  | cons c cs ih =>
      cases hc : isBlank c with
      | true =>
          rw [skipBlanks_cons hc]
          exact ih
      | false =>
          rw [skipBlanks_of_not_blank hc]
          exact skipBlanks_of_not_blank hc

theorem value_skipBlanks : value fuel (skipBlanks cs) = value fuel cs :=
  value_congr (skipBlanks_skipBlanks cs)

/-!
## One step of the reader
-/

theorem value_scalar (hblank : isBlank c = false) (harray : c ≠ '[') (hobject : c ≠ '\x7b') :
    value (fuel + 1) (c :: rest) = scalar c rest := by
  unfold value
  rw [skipBlanks_of_not_blank hblank]
  split
  · rename_i hnil
    cases hnil
  · rename_i hbracket
    cases hbracket
    exact absurd rfl harray
  · rename_i hbrace
    cases hbrace
    exact absurd rfl hobject
  · rename_i hcons
    cases hcons
    rfl

theorem value_array (h : items fuel true cs = (xs, rest)) :
    value (fuel + 1) ('[' :: cs) = (.array xs, rest) := by
  unfold value
  rw [skipBlanks_of_not_blank (by decide)]
  simp [h]

theorem value_object (h : members fuel true cs = (ms, rest)) :
    value (fuel + 1) ('\x7b' :: cs) = (.object ms, rest) := by
  unfold value
  rw [skipBlanks_of_not_blank (by decide)]
  simp [h]

theorem items_close : items (fuel + 1) first (']' :: rest) = (.closed, rest) := by
  unfold items
  rw [skipBlanks_of_not_blank (by decide)]
  rfl

theorem items_head (hopen : skipBlanks cs = c :: body) (hc : c ≠ ']')
    (hv : value fuel cs = (v, rest)) (hxs : items fuel false rest = (xs, rest')) :
    items (fuel + 1) true cs = (.more v xs, rest') := by
  rw [← value_skipBlanks, hopen] at hv
  unfold items
  simp [hopen, hc, hv, hxs]

theorem items_next (hopen : skipBlanks cs = c :: body) (hc : c ≠ ']')
    (hv : value fuel cs = (v, rest)) (hxs : items fuel false rest = (xs, rest')) :
    items (fuel + 1) false (',' :: cs) = (.more v xs, rest') := by
  rw [← value_skipBlanks, hopen] at hv
  unfold items
  rw [skipBlanks_of_not_blank (by decide)]
  simp [hopen, hc, hv, hxs]

theorem members_close : members (fuel + 1) first ('\x7d' :: rest) = (.closed, rest) := by
  unfold members
  rw [skipBlanks_of_not_blank (by decide)]
  rfl

theorem members_head (hopen : skipBlanks cs = '"' :: body) :
    members (fuel + 1) true cs = member fuel body := by
  unfold members
  rw [hopen]
  rfl

theorem members_next (hopen : skipBlanks cs = '"' :: body) :
    members (fuel + 1) false (',' :: cs) = member fuel body := by
  unfold members
  rw [skipBlanks_of_not_blank (by decide)]
  simp [hopen]

theorem member_mk {ks : List Char} {k : Option (List Char)} (hk : Spells ks k)
    (hbs : bs.all isBlank = true) (hv : value fuel cs = (v, rest))
    (hms : members fuel false rest = (ms, rest')) :
    member (fuel + 1) (ks ++ '"' :: (bs ++ ':' :: cs)) =
      (.more (k.map String.ofList) v ms, rest') := by
  unfold member
  rw [scan_string hk]
  dsimp only
  rw [skipBlanks_append hbs, skipBlanks_of_not_blank (by decide)]
  simp [hv, hms]

/-!
## Values
-/

theorem head_of_spellsNumeral {n : Numeral} (h : SpellsNumeral cs n) :
    exists c body, cs = c :: body ∧ c.isDigit = true := by
  cases h with
  | mk hn h =>
      rcases List.exists_cons_of_ne_nil hn.whole_ne_nil with ⟨d, ds, hwhole⟩
      refine ⟨d.digitChar, _, by rw [hwhole]; rfl, isDigit_of_mem_digitText hn.whole_lt ?_⟩
      rw [hwhole]
      exact List.mem_cons_self

theorem value_number {n : Numeral} (h : SpellsNumeral cs n) (hrest : Ends rest) :
    exists c body, n.signText ++ cs ++ rest = c :: body ∧ isBlank c = false ∧ c ≠ ']' ∧
      forall fuel, value (fuel + 1) (c :: body) = (.number n, rest) := by
  have hnumeral := numeral_of_spells h hrest
  unfold Numeral.signText
  cases hsign : n.negative with
  | true =>
      rw [hsign] at hnumeral
      refine ⟨'-', cs ++ rest, rfl, by decide, by decide, fun fuel => ?_⟩
      rw [value_scalar (by decide) (by decide) (by decide)]
      simp [scalar, hnumeral]
  | false =>
      rw [hsign] at hnumeral
      rcases head_of_spellsNumeral h with ⟨c, body, rfl, hdigit⟩
      have hne : forall x : Char, x.isDigit = false -> c ≠ x := by
        rintro x hx rfl
        rw [hdigit] at hx
        cases hx
      have hblank : isBlank c = false := by
        simp [isBlank, hne ' ' (by decide), hne '\n' (by decide), hne '\t' (by decide),
          hne '\r' (by decide)]
      refine ⟨c, body ++ rest, rfl, hblank, hne _ (by decide), fun fuel => ?_⟩
      rw [value_scalar hblank (hne _ (by decide)) (hne _ (by decide))]
      rw [List.cons_append] at hnumeral
      simp [scalar, hdigit, hnumeral, hne 'n' (by decide), hne 't' (by decide),
        hne 'f' (by decide), hne '"' (by decide), hne '-' (by decide)]

theorem opens_of_writes : forall {cs : List Char} {v : Value}, Writes cs v ->
    forall rest, Ends rest -> exists c body, skipBlanks (cs ++ rest) = c :: body ∧ c ≠ ']'
  | _, _, .blank hc h, rest, hrest => by
      rw [List.cons_append, skipBlanks_cons hc]
      exact opens_of_writes h rest hrest
  | _, _, .null, _, _ => ⟨_, _, rfl, by decide⟩
  | _, _, .yes, _, _ => ⟨_, _, rfl, by decide⟩
  | _, _, .no, _, _ => ⟨_, _, rfl, by decide⟩
  | _, _, .number h, _, hrest => by
      rcases value_number h hrest with ⟨c, body, hcs, hblank, hne, _⟩
      rw [hcs, skipBlanks_of_not_blank hblank]
      exact ⟨c, body, rfl, hne⟩
  | _, _, .string _, _, _ => ⟨_, _, rfl, by decide⟩
  | _, _, .array _, _, _ => ⟨_, _, rfl, by decide⟩
  | _, _, .object _, _, _ => ⟨_, _, rfl, by decide⟩

theorem length_pos_of_writes (h : Writes cs v) : 0 < cs.length := by
  cases h with
  | number h =>
      rcases head_of_spellsNumeral h with ⟨c, body, rfl, _⟩
      rw [List.length_append, List.length_cons]
      omega
  | _ => exact Nat.succ_pos _

theorem ends_of_writesItems : forall {cs : List Char} {xs : Items},
    WritesItems false cs xs -> forall rest, Ends (cs ++ rest)
  | _, _, .blank hc _, _ => by
      intro c hhead
      cases hhead
      exact .inl hc
  | _, _, .close, _ => by
      intro c hhead
      cases hhead
      exact .inr (by decide)
  | _, _, .next _ _, _ => by
      intro c hhead
      cases hhead
      exact .inr (by decide)

theorem ends_of_writesMembers : forall {cs : List Char} {ms : Members},
    WritesMembers false cs ms -> forall rest, Ends (cs ++ rest)
  | _, _, .blank hc _, _ => by
      intro c hhead
      cases hhead
      exact .inl hc
  | _, _, .close, _ => by
      intro c hhead
      cases hhead
      exact .inr (by decide)
  | _, _, .next _, _ => by
      intro c hhead
      cases hhead
      exact .inr (by decide)

theorem length_pos_of_writesItems (h : WritesItems first cs xs) : 0 < cs.length := by
  cases h with
  | head hv _ =>
      have hpos := length_pos_of_writes hv
      rw [List.length_append]
      omega
  | _ => exact Nat.succ_pos _

theorem length_pos_of_writesMember {cs : List Char} {ms : Members} (h : WritesMember cs ms) :
    0 < cs.length := by
  cases h <;> exact Nat.succ_pos _

mutual

/--
What writes a value is read as that value.  Every step down costs one unit of fuel, and a
character is behind every third of them.
-/
theorem value_of_writes : forall {cs : List Char} {v : Value}, Writes cs v ->
    forall {fuel : Nat} {rest : List Char}, 3 * cs.length <= fuel -> Ends rest ->
      value fuel (cs ++ rest) = (v, rest)
  | _, _, .blank hc h, fuel, rest, hfuel, hrest => by
      rw [List.length_cons] at hfuel
      rw [List.cons_append, value_congr (skipBlanks_cons hc)]
      exact value_of_writes h (by omega) hrest
  | _, _, .null, fuel + 1, rest, _, _ => value_scalar (by decide) (by decide) (by decide)
  | _, _, .yes, fuel + 1, rest, _, _ => value_scalar (by decide) (by decide) (by decide)
  | _, _, .no, fuel + 1, rest, _, _ => value_scalar (by decide) (by decide) (by decide)
  | _, _, .number h, fuel, rest, hfuel, hrest => by
      have hpos := length_pos_of_writes (.number h)
      cases fuel with
      | zero => omega
      | succ fuel =>
          rcases value_number h hrest with ⟨c, body, hcs, _, _, hvalue⟩
          rw [hcs]
          exact hvalue fuel
  | _, _, .string h, fuel + 1, rest, _, _ => by
      rw [List.cons_append, List.append_assoc, value_scalar (by decide) (by decide) (by decide)]
      simp [scalar, scan_string h]
  | _, _, .array h, fuel + 1, rest, hfuel, _ => by
      rw [List.length_cons] at hfuel
      exact value_array (items_of_writes h (by omega))
  | _, _, .object h, fuel + 1, rest, hfuel, _ => by
      rw [List.length_cons] at hfuel
      exact value_object (members_of_writes h (by omega))

theorem items_of_writes : forall {first : Bool} {cs : List Char} {xs : Items},
    WritesItems first cs xs -> forall {fuel : Nat} {rest : List Char}, 3 * cs.length <= fuel ->
      items fuel first (cs ++ rest) = (xs, rest)
  | _, _, _, .blank hc h, fuel, rest, hfuel => by
      rw [List.length_cons] at hfuel
      rw [List.cons_append, items_congr (skipBlanks_cons hc)]
      exact items_of_writes h (by omega)
  | _, _, _, .close, fuel + 1, rest, _ => items_close
  | _, _, _, .head hv hxs, fuel, rest, hfuel => by
      have hvpos := length_pos_of_writes hv
      have hxspos := length_pos_of_writesItems hxs
      rw [List.length_append] at hfuel
      have hrest := ends_of_writesItems hxs rest
      rcases opens_of_writes hv _ hrest with ⟨c, body, hopen, hc⟩
      cases fuel with
      | zero => omega
      | succ fuel =>
          rw [List.append_assoc]
          exact items_head hopen hc (value_of_writes hv (by omega) hrest)
            (items_of_writes hxs (by omega))
  | _, _, _, .next hv hxs, fuel, rest, hfuel => by
      have hxspos := length_pos_of_writesItems hxs
      rw [List.length_cons, List.length_append] at hfuel
      have hrest := ends_of_writesItems hxs rest
      rcases opens_of_writes hv _ hrest with ⟨c, body, hopen, hc⟩
      cases fuel with
      | zero => omega
      | succ fuel =>
          rw [List.cons_append, List.append_assoc]
          exact items_next hopen hc (value_of_writes hv (by omega) hrest)
            (items_of_writes hxs (by omega))

theorem members_of_writes : forall {first : Bool} {cs : List Char} {ms : Members},
    WritesMembers first cs ms -> forall {fuel : Nat} {rest : List Char},
      3 * cs.length <= fuel -> members fuel first (cs ++ rest) = (ms, rest)
  | _, _, _, .blank hc h, fuel, rest, hfuel => by
      rw [List.length_cons] at hfuel
      rw [List.cons_append, members_congr (skipBlanks_cons hc)]
      exact members_of_writes h (by omega)
  | _, _, _, .close, fuel + 1, rest, _ => members_close
  | _, _, _, .head h, fuel, rest, hfuel => by
      have hpos := length_pos_of_writesMember h
      cases fuel with
      | zero => omega
      | succ fuel =>
          rcases member_of_writes h fuel rest (by omega) with ⟨body, hopen, hmember⟩
          rw [members_head hopen]
          exact hmember
  | _, _, _, .next h, fuel + 1, rest, hfuel => by
      rw [List.length_cons] at hfuel
      rcases member_of_writes h fuel rest (by omega) with ⟨body, hopen, hmember⟩
      rw [List.cons_append, members_next hopen]
      exact hmember

theorem member_of_writes : forall {cs : List Char} {ms : Members}, WritesMember cs ms ->
    forall (fuel : Nat) (rest : List Char), 3 * cs.length <= fuel + 1 ->
      exists body, skipBlanks (cs ++ rest) = '"' :: body ∧ member fuel body = (ms, rest)
  | _, _, .blank hc h, fuel, rest, hfuel => by
      rw [List.length_cons] at hfuel
      rw [List.cons_append, skipBlanks_cons hc]
      exact member_of_writes h fuel rest (by omega)
  | _, _, .mk hk hbs hv hms, fuel, rest, hfuel => by
      rename_i ks bs cs ds k v ms
      simp only [List.length_cons, List.length_append] at hfuel
      cases fuel with
      | zero => omega
      | succ fuel =>
          refine ⟨ks ++ '"' :: (bs ++ ':' :: (cs ++ (ds ++ rest))), ?_, ?_⟩
          · rw [List.cons_append, skipBlanks_of_not_blank (by decide)]
            simp only [List.append_assoc, List.cons_append]
          · exact member_mk hk hbs (value_of_writes hv (by omega) (ends_of_writesMembers hms rest))
              (members_of_writes hms (by omega))

end

end Reader

/-!
## Documents
-/

namespace Document

open Reader

theorem ofText_of_textWrites {text : String} {v : Value} (h : TextWrites text v) :
    ofText text = { value := v, trailing := false } := by
  rcases h with ⟨cs, bs, hv, hbs, htext⟩
  have hends : Ends bs := by
    intro c hhead
    exact .inl (List.all_eq_true.mp hbs c (List.mem_of_head? hhead))
  have hnone : skipBlanks bs = [] := by
    have hend : skipBlanks (bs ++ []) = [] := skipBlanks_append hbs
    rwa [List.append_nil] at hend
  have hvalue : Reader.value (3 * (cs ++ bs).length + 3) (cs ++ bs) = (v, bs) := by
    refine value_of_writes hv ?_ hends
    rw [List.length_append]
    omega
  unfold ofText
  rw [htext]
  dsimp only
  rw [hvalue, hnone]
  rfl

theorem read_of_textWrites {text : String} {v : Value} {accept : Value -> Except Complaint α}
    (h : TextWrites text v) : (ofText text).read accept = accept v := by
  rw [ofText_of_textWrites h]
  unfold read
  cases accept v <;> rfl

end Document
end Json
end AirDefense
