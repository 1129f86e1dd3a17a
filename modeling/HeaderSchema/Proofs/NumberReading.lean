import HeaderSchema.Json.Skip
import HeaderSchema.Proofs.Yields

/-!
# Reading spelled numbers

A number ends where the next byte cannot belong to it (`EndsNumber`). Then it is
passed over as a whole (`skipNumber_spelled`), and it is read as a count if it
is one (`number_count`, `number_other`): written without a minus, a point and a
power, and below `2 ^ 64`.
-/

namespace HeaderSchema

open Utf8 (encode encode_append encode_cons)

/-- The count that a number spells, if it spells one. -/
def Numeral.count? (n : Numeral) : Option Nat :=
  if n.negative = false ∧ n.fraction = [] ∧ n.power = none ∧ n.whole < Nat.pow 2 64 then
    some n.whole
  else
    none

/-- The point and the power, which may follow the whole part. -/
def Numeral.tail (n : Numeral) : List Char :=
  (if n.fraction.isEmpty then [] else '.' :: n.fraction.map digitChar) ++
    n.power.elim [] Power.text

theorem Numeral.text_eq (n : Numeral) :
    n.text = (if n.negative then ['-'] else []) ++ (Nat.toDigits 10 n.whole ++ n.tail) := by
  simp only [Numeral.text, Numeral.tail, List.append_assoc]
  cases n.power <;> rfl

namespace Reader

/-- No byte follows that could belong to a number. -/
structure EndsNumber (rest : Bytes) : Prop where
  digit : atDigit rest = false
  power : atPower rest = false
  point : ∀ r, rest ≠ Mark.point :: r

theorem endsNumber_nil : EndsNumber [] :=
  ⟨rfl, rfl, nofun⟩

/-! ## Digits -/

theorem get_bind {α : Type} (f : Bytes → Reader α) (input : Bytes) :
    (get >>= f) input = f input input :=
  rfl

theorem isDigit_encode {ds : List Char} (h : ∀ c ∈ ds, c.isDigit = true) :
    ∀ b ∈ encode ds, isDigit b = true := by
  intro b hb
  obtain ⟨c, hc, hb⟩ := List.mem_flatMap.1 hb
  obtain ⟨hchar, hdigit, -⟩ := isDigit_ofNat (h c hc)
  rw [hchar, List.mem_singleton] at hb
  rw [hb]
  exact hdigit

theorem isDigit_digitChar (d : Fin 10) : (digitChar d).isDigit = true := by
  revert d
  decide

theorem isDigit_map_digitChar (ds : List (Fin 10)) : ∀ c ∈ ds.map digitChar, c.isDigit = true :=
  List.forall_mem_map.2 fun d _ => isDigit_digitChar d

theorem skipDigits_self {rest : Bytes} (h : atDigit rest = false) : skipDigits rest = rest := by
  cases rest with
  | nil => rfl
  | cons b r => exact List.dropWhile_cons_of_neg (by simpa [atDigit] using h)

theorem skipDigits_digits {ds : List Char} (hds : ∀ c ∈ ds, c.isDigit = true) {rest : Bytes}
    (h : atDigit rest = false) : skipDigits (encode ds ++ rest) = rest :=
  (List.dropWhile_append_of_pos (isDigit_encode hds)).trans (skipDigits_self h)

theorem passDigits_digits {ds : List Char} (hds : ∀ c ∈ ds, c.isDigit = true) {rest : Bytes}
    (h : atDigit rest = false) : passDigits (encode ds ++ rest) = .ok ((), rest) := by
  unfold passDigits
  rw [skipDigits_digits hds h]

theorem firstDigit_digit {c : Char} (h : c.isDigit = true) (atEnd : Cause) (rest : Bytes) :
    firstDigit atEnd (Utf8.encodeChar c ++ rest) = .ok (c.toNat - '0'.toNat, rest) := by
  obtain ⟨hchar, hdigit, hvalue⟩ := isDigit_ofNat h
  rw [hchar, ← hvalue]
  exact if_pos hdigit

/-! ## Passing over -/

/-- The letter of a power as a byte. -/
def powerLetter (p : Power) : UInt8 :=
  if p.upper then 0x45 else 0x65

/-- The sign of a power as a byte, if it has one. -/
def signBytes (p : Power) : Bytes :=
  match p.sign with
  | none => []
  | some true => [Mark.plus]
  | some false => [Mark.minus]

/-- The digits of a power, with what follows them. -/
def powerDigitBytes (p : Power) (rest : Bytes) : Bytes :=
  Utf8.encodeChar (digitChar p.first) ++ (encode (p.others.map digitChar) ++ rest)

theorem encode_power (p : Power) (rest : Bytes) :
    encode p.text ++ rest = powerLetter p :: (signBytes p ++ powerDigitBytes p rest) := by
  obtain ⟨upper, sign, first, others⟩ := p
  unfold Power.text powerDigitBytes
  rw [encode_cons, encode_append, encode_cons, List.append_assoc, List.append_assoc,
    List.append_assoc]
  rcases sign with _ | _ | _ <;> cases upper <;> rfl

theorem powerLetter_marks (p : Power) :
    isPowerMark (powerLetter p) = true ∧ isDigit (powerLetter p) = false ∧
      powerLetter p ≠ Mark.point := by
  unfold powerLetter
  cases p.upper <;> decide

theorem powerSign_spelled (p : Power) (rest : Bytes) :
    ∃ down, powerSign (signBytes p ++ powerDigitBytes p rest) =
      .ok (down, powerDigitBytes p rest) := by
  obtain ⟨upper, sign, first, others⟩ := p
  rcases sign with _ | _ | _
  · -- without a sign the first digit is no sign
    obtain ⟨hchar, hdigit, -⟩ := isDigit_ofNat (isDigit_digitChar first)
    unfold powerDigitBytes
    rw [hchar]
    refine ⟨false, (if_neg ?_).trans (if_neg ?_)⟩
    · simpa using ne_of_isDigit hdigit (show isDigit Mark.plus = false from rfl)
    · simpa using ne_of_isDigit hdigit (show isDigit Mark.minus = false from rfl)
  · exact ⟨true, rfl⟩
  · exact ⟨false, rfl⟩

theorem firstDigit_power (p : Power) (atEnd : Cause) (rest : Bytes) :
    ∃ d, firstDigit atEnd (powerDigitBytes p rest) =
      .ok (d, encode (p.others.map digitChar) ++ rest) :=
  ⟨_, firstDigit_digit (isDigit_digitChar p.first) atEnd _⟩

theorem skipPower_spelled (p : Power) {rest : Bytes} (h : atDigit rest = false) :
    skipPower (encode p.text ++ rest) = .ok ((), rest) := by
  obtain ⟨down, hsign⟩ := powerSign_spelled p rest
  obtain ⟨d, hfirst⟩ := firstDigit_power p .badNumber rest
  unfold skipPower
  rw [encode_power, skip_bind, bind_ok hsign, bind_ok hfirst]
  exact passDigits_digits (isDigit_map_digitChar p.others) h

/-- What follows the digits of a number ends them. -/
theorem atDigit_power (power : Option Power) {rest : Bytes} (h : EndsNumber rest) :
    atDigit (encode (power.elim [] Power.text) ++ rest) = false := by
  cases power with
  | none => exact h.digit
  | some p =>
    change atDigit (encode p.text ++ rest) = false
    rw [encode_power]
    exact (powerLetter_marks p).2.1

theorem atDigit_tail (n : Numeral) {rest : Bytes} (h : EndsNumber rest) :
    atDigit (encode n.tail ++ rest) = false := by
  obtain ⟨negative, whole, fraction, power⟩ := n
  cases fraction with
  | nil => exact atDigit_power power h
  | cons d ds => rfl

theorem ne_point_power (power : Option Power) {rest : Bytes} (h : EndsNumber rest) :
    ∀ r, encode (power.elim [] Power.text) ++ rest ≠ Mark.point :: r := by
  cases power with
  | none => exact h.point
  | some p =>
    intro r heq
    change encode p.text ++ rest = _ at heq
    rw [encode_power] at heq
    exact (powerLetter_marks p).2.2 (List.cons.inj heq).1

theorem skipPower_optional (power : Option Power) {rest : Bytes} (h : EndsNumber rest) :
    (if atPower (encode (power.elim [] Power.text) ++ rest) then skipPower else pure ())
      (encode (power.elim [] Power.text) ++ rest) = .ok ((), rest) := by
  cases power with
  | none =>
    change (if atPower rest then skipPower else pure ()) rest = _
    rw [if_neg (by simp [h.power])]
    rfl
  | some p =>
    have hat : atPower (encode p.text ++ rest) = true := by
      rw [encode_power]
      exact (powerLetter_marks p).1
    change (if atPower (encode p.text ++ rest) then skipPower else pure ()) _ = _
    rw [if_pos hat]
    exact skipPower_spelled p h.digit

/-- Without a point there may still be a power. -/
theorem skipAfterWhole_of_ne {input : Bytes} (h : ∀ r, input ≠ Mark.point :: r) :
    skipAfterWhole input = (if atPower input then skipPower else pure ()) input := by
  cases input with
  | nil => rfl
  | cons b r =>
    refine congrFun (if_neg fun hpoint => ?_) (b :: r)
    exact h r (by rw [eq_of_beq hpoint])

theorem skipAfterWhole_tail (n : Numeral) {rest : Bytes} (h : EndsNumber rest) :
    skipAfterWhole (encode n.tail ++ rest) = .ok ((), rest) := by
  obtain ⟨negative, whole, fraction, power⟩ := n
  cases fraction with
  | nil => exact (skipAfterWhole_of_ne (ne_point_power power h)).trans (skipPower_optional power h)
  | cons d ds =>
    have hdigits := passDigits_digits (isDigit_map_digitChar (d :: ds)) (atDigit_power power h)
    have hfirst : atDigit (encode ((d :: ds).map digitChar) ++
        (encode (power.elim [] Power.text) ++ rest)) = true := by
      obtain ⟨hchar, hdigit, -⟩ := isDigit_ofNat (isDigit_digitChar d)
      rw [List.map_cons, encode_cons, hchar]
      exact hdigit
    have hsplit : encode (Numeral.tail ⟨negative, whole, d :: ds, power⟩) ++ rest =
        Mark.point :: (encode ((d :: ds).map digitChar) ++
          (encode (power.elim [] Power.text) ++ rest)) := by
      change encode ('.' :: ((d :: ds).map digitChar) ++ power.elim [] Power.text) ++ rest = _
      rw [encode_append, List.append_assoc]
      rfl
    rw [hsplit]
    refine Eq.trans ?_ (skipPower_optional power h)
    unfold skipAfterWhole
    rw [get_bind]
    dsimp only
    rw [if_pos (by decide), skip_bind, get_bind]
    rw [hfirst, if_neg (by decide), bind_ok hdigits, get_bind]

/-- A number byte by byte: its sign, its first digit, which is zero only if it is
the only one, the other digits, and what follows them. -/
theorem bytes_number (n : Numeral) (rest : Bytes) :
    ∃ d ds, Nat.toDigits 10 n.whole = d :: ds ∧ (∀ c ∈ d :: ds, c.isDigit = true) ∧
      (d.toNat - '0'.toNat = 0 → ds = []) ∧
      encode n.text ++ rest = (if n.negative then [Mark.minus] else []) ++
        (Utf8.encodeChar d ++ (encode ds ++ (encode n.tail ++ rest))) := by
  obtain ⟨d, ds, hdigits, hall, hzero⟩ := Numeral.digits_whole n.whole
  refine ⟨d, ds, hdigits, hall, fun h => hzero ?_, ?_⟩
  · have hrange := digit_range (hall d List.mem_cons_self)
    have h48 : d.toNat - 48 = 0 := h
    exact Char.toNat_inj.1 (show d.toNat = 48 by omega)
  · rw [Numeral.text_eq, hdigits, encode_append, encode_append, encode_cons]
    simp only [List.append_assoc]
    cases n.negative <;> rfl

/-- Reads a minus, if one comes next, and goes on knowing whether it was there. -/
def signed {α : Type} (next : Bool → Reader α) : Reader α := do
  let negative := (← get).head? == some Mark.minus
  if negative then skip
  next negative

/-- Passes over a number behind its sign. -/
def skipUnsigned : Reader Unit := do
  let first ← firstDigit .badNumber
  if first = 0 then
    if atDigit (← get) then failNext .badNumber
  else passDigits
  skipAfterWhole

/-- Reads a number behind its sign. -/
def unsigned (negative : Bool) : Reader Number := do
  let first ← firstDigit .endOfValue
  let rest ← get
  if first = 0 then
    if atDigit rest then failNext .badNumber else afterWhole negative 0 0
  else
    let (m, dropped, rest) := wholeDigits first 0 rest
    set rest
    afterWhole negative m dropped

theorem skipNumber_eq_signed : skipNumber = signed fun _ => skipUnsigned :=
  rfl

theorem number_eq_signed : number = signed unsigned :=
  rfl

theorem signed_digit {α : Type} (next : Bool → Reader α) (negative : Bool) {d : Char}
    (hd : d.isDigit = true) (rest : Bytes) :
    signed next ((if negative then [Mark.minus] else []) ++ (Utf8.encodeChar d ++ rest)) =
      next negative (Utf8.encodeChar d ++ rest) := by
  obtain ⟨hchar, hdigit, -⟩ := isDigit_ofNat hd
  have hminus : (some (UInt8.ofNat d.toNat) == some Mark.minus) = false := by
    simpa using ne_of_isDigit hdigit (show isDigit Mark.minus = false from rfl)
  unfold signed
  rw [get_bind, hchar]
  cases negative with
  | true => rfl
  | false =>
    simp only [Bool.false_eq_true, if_false, List.nil_append, List.cons_append, List.head?_cons,
      hminus]

theorem skipNumber_spelled (n : Numeral) {rest : Bytes} (h : EndsNumber rest) :
    skipNumber (encode n.text ++ rest) = .ok ((), rest) := by
  obtain ⟨d, ds, -, hall, hzero, htext⟩ := bytes_number n rest
  obtain ⟨hd, hds⟩ := List.forall_mem_cons.1 hall
  rw [htext, skipNumber_eq_signed, signed_digit _ _ hd, skipUnsigned,
    bind_ok (firstDigit_digit hd .badNumber _)]
  split
  · next hfirst =>
    rw [hzero hfirst, get_bind, show encode [] = [] from rfl, List.nil_append,
      if_neg (by simp [atDigit_tail n h])]
    exact skipAfterWhole_tail n h
  · rw [bind_ok (passDigits_digits hds (atDigit_tail n h))]
    exact skipAfterWhole_tail n h

/-! ## Whole parts -/

theorem encode_digit {c : Char} (h : c.isDigit = true) (rest : Bytes) :
    Utf8.encodeChar c ++ rest = UInt8.ofNat c.toNat :: rest ∧
      isDigit (UInt8.ofNat c.toNat) = true ∧
      digitValue (UInt8.ofNat c.toNat) = c.toNat - '0'.toNat := by
  obtain ⟨hchar, hdigit, hvalue⟩ := isDigit_ofNat h
  exact ⟨by rw [hchar, List.singleton_append], hdigit, hvalue⟩

theorem wholeDigits_end {rest : Bytes} (h : atDigit rest = false) (m dropped : Nat) :
    wholeDigits m dropped rest = (m, dropped, rest) := by
  cases rest with
  | nil => rfl
  | cons b r => exact if_neg (by simpa [atDigit] using h)

/-- Digits only add to the significand. -/
theorem le_ofDigitChars (ds : List Char) (m : Nat) : m ≤ Nat.ofDigitChars 10 ds m := by
  induction ds generalizing m with
  | nil => exact Nat.le_of_eq Nat.ofDigitChars_nil.symm
  | cons d ds ih =>
    rw [Nat.ofDigitChars_cons]
    exact Nat.le_trans (by omega) (ih _)

theorem wholeDigits_of_lt {ds : List Char} (hds : ∀ c ∈ ds, c.isDigit = true) {rest : Bytes}
    (hrest : atDigit rest = false) {m : Nat} (h : Nat.ofDigitChars 10 ds m < significandBound) :
    wholeDigits m 0 (encode ds ++ rest) = (Nat.ofDigitChars 10 ds m, 0, rest) := by
  induction ds generalizing m with
  | nil => exact wholeDigits_end hrest m 0
  | cons d ds ih =>
    obtain ⟨hd, hds⟩ := List.forall_mem_cons.1 hds
    obtain ⟨hcons, hdigit, hvalue⟩ := encode_digit hd (encode ds ++ rest)
    rw [Nat.ofDigitChars_cons, Nat.mul_comm] at h ⊢
    have hfits := Nat.lt_of_le_of_lt (le_ofDigitChars ds _) h
    rw [encode_cons, List.append_assoc, hcons, wholeDigits, if_pos hdigit, hvalue]
    exact (if_pos ⟨rfl, hfits⟩).trans (ih hds h)

theorem wholeDigits_dropped {ds : List Char} (hds : ∀ c ∈ ds, c.isDigit = true) {rest : Bytes}
    (hrest : atDigit rest = false) (m : Nat) {dropped : Nat} (h : dropped ≠ 0) :
    wholeDigits m dropped (encode ds ++ rest) = (m, dropped + ds.length, rest) := by
  induction ds generalizing dropped with
  | nil => exact wholeDigits_end hrest m dropped
  | cons d ds ih =>
    obtain ⟨hd, hds⟩ := List.forall_mem_cons.1 hds
    obtain ⟨hcons, hdigit, -⟩ := encode_digit hd (encode ds ++ rest)
    rw [encode_cons, List.append_assoc, hcons, wholeDigits, if_pos hdigit]
    refine (if_neg fun hfits => h hfits.1).trans ?_
    rw [ih hds (Nat.succ_ne_zero dropped), Nat.succ_add_eq_add_succ]
    rfl

theorem wholeDigits_of_le {ds : List Char} (hds : ∀ c ∈ ds, c.isDigit = true) {rest : Bytes}
    (hrest : atDigit rest = false) {m : Nat} (hm : m < significandBound)
    (h : significandBound ≤ Nat.ofDigitChars 10 ds m) :
    ∃ m' dropped, wholeDigits m 0 (encode ds ++ rest) = (m', dropped, rest) ∧ dropped ≠ 0 := by
  induction ds generalizing m with
  | nil => exact absurd hm (Nat.not_lt.2 h)
  | cons d ds ih =>
    obtain ⟨hd, hds⟩ := List.forall_mem_cons.1 hds
    obtain ⟨hcons, hdigit, hvalue⟩ := encode_digit hd (encode ds ++ rest)
    rw [Nat.ofDigitChars_cons, Nat.mul_comm] at h
    rw [encode_cons, List.append_assoc, hcons, wholeDigits, if_pos hdigit, hvalue]
    dsimp only
    by_cases hfits : m * 10 + (d.toNat - '0'.toNat) < significandBound
    · rw [if_pos ⟨rfl, hfits⟩]
      exact ih hds hfits h
    · -- the first digit that does not fit, and all after it, are dropped
      rw [if_neg fun hand => hfits hand.2, wholeDigits_dropped hds hrest m (Nat.succ_ne_zero 0)]
      exact ⟨_, _, rfl, by omega⟩

/-! ## Counts -/

/-- Whatever the reader reads, it is no natural number. -/
def NotNatural (r : Reader Number) : Prop :=
  ∀ input k rest, r input ≠ .ok (.natural k, rest)

theorem NotNatural.bind {α : Type} {r : Reader α} {f : α → Reader Number}
    (h : ∀ x, NotNatural (f x)) : NotNatural (r >>= f) := by
  intro input k rest heq
  cases hr : r input with
  | error fault =>
    rw [bind_error hr] at heq
    cases heq
  | ok answer =>
    rw [bind_ok hr] at heq
    exact h answer.1 answer.2 k rest heq

theorem notNatural_failHere (cause : Cause) : NotNatural (failHere cause) :=
  fun _ _ _ heq => nomatch heq

theorem notNatural_failNext (cause : Cause) : NotNatural (failNext cause) :=
  fun _ _ _ heq => nomatch heq

theorem notNatural_float (negative : Bool) (m : Nat) (e : Int) :
    NotNatural (float negative m e) := by
  unfold float
  split
  · exact notNatural_failHere _
  · exact fun _ _ _ heq => nomatch heq

theorem notNatural_power (negative : Bool) (m : Nat) (e : Int) :
    NotNatural (power negative m e) := by
  refine .bind fun _ => .bind fun down => .bind fun first => .bind fun rest => ?_
  split
  · exact .bind fun _ => notNatural_float _ _ _
  · refine .bind fun _ => ?_
    split
    · exact notNatural_failHere _
    · exact .bind fun _ _ _ _ heq => nomatch heq

theorem notNatural_fraction (negative : Bool) (m : Nat) (e : Int) :
    NotNatural (fraction negative m e) := by
  refine .bind fun _ => .bind fun rest => ?_
  split
  · refine .bind fun _ => ?_
    split
    · exact notNatural_power _ _ _
    · exact notNatural_float _ _ _
  · split
    · exact notNatural_failNext _
    · exact notNatural_failNext _

/-- Without a point and a power the number ends after its whole part. -/
theorem afterWhole_ending {rest : Bytes} (h : EndsNumber rest) (negative : Bool)
    (m dropped : Nat) :
    afterWhole negative m dropped rest = afterWhole.ending negative m dropped rest := by
  cases rest with
  | nil => rfl
  | cons b r =>
    have hpoint : (b == Mark.point) = false :=
      beq_eq_false_iff_ne.2 fun heq => h.point r (by rw [heq])
    have hpower : isPowerMark b = false := h.power
    unfold afterWhole
    rw [get_bind]
    dsimp only
    rw [if_neg (by simp [hpoint]), if_neg (by simp [hpower])]

/-- What is left after the whole part of a number that is no count. -/
theorem afterWhole_other {n : Numeral} (h : n.count? = none) {m dropped : Nat}
    (hdropped : significandBound ≤ n.whole → dropped ≠ 0) {rest : Bytes} (hrest : EndsNumber rest)
    (k : Nat) (r : Bytes) :
    afterWhole n.negative m dropped (encode n.tail ++ rest) ≠ .ok (.natural k, r) := by
  obtain ⟨negative, whole, fraction, power⟩ := n
  cases fraction with
  | cons d ds => exact notNatural_fraction _ _ _ _ k r
  | nil =>
    cases power with
    | some p =>
      change afterWhole negative m dropped (encode p.text ++ rest) ≠ _
      obtain ⟨hmark, -, hpoint⟩ := powerLetter_marks p
      unfold afterWhole
      rw [encode_power, get_bind]
      dsimp only
      rw [if_neg (by simpa using hpoint), if_pos hmark]
      exact notNatural_power _ _ _ _ k r
    | none =>
      change afterWhole negative m dropped rest ≠ _
      rw [afterWhole_ending hrest, afterWhole.ending]
      split
      · exact notNatural_float _ _ _ _ k r
      · next hzero =>
        cases negative with
        | true =>
          simp only [Bool.not_true, Bool.false_eq_true, if_false]
          split <;> exact fun heq => nomatch heq
        | false =>
          have hlt : ¬ whole < Nat.pow 2 64 := by
            simpa [Numeral.count?] using h
          exact absurd (hdropped (Nat.not_lt.1 hlt)) hzero

/-- The sign and the whole part of a number are read before the rest. -/
theorem number_whole (n : Numeral) {rest : Bytes} (h : EndsNumber rest) :
    ∃ m dropped, number (encode n.text ++ rest) =
        afterWhole n.negative m dropped (encode n.tail ++ rest) ∧
      (n.whole < significandBound → m = n.whole ∧ dropped = 0) ∧
      (significandBound ≤ n.whole → dropped ≠ 0) := by
  obtain ⟨d, ds, hdigits, hall, hzero, htext⟩ := bytes_number n rest
  obtain ⟨hd, hds⟩ := List.forall_mem_cons.1 hall
  have hwhole : Nat.ofDigitChars 10 ds (d.toNat - '0'.toNat) = n.whole := by
    have h := Nat.ofDigitChars_ten_toDigits (n := n.whole)
    rwa [hdigits, Nat.ofDigitChars_cons, Nat.mul_zero, Nat.zero_add] at h
  have htail := atDigit_tail n h
  rw [htext, number_eq_signed, signed_digit _ _ hd, unsigned,
    bind_ok (firstDigit_digit hd .endOfValue _), get_bind]
  split
  · next hfirst =>
    have hnil := hzero hfirst
    rw [hnil, hfirst, Nat.ofDigitChars_nil] at hwhole
    rw [hnil, show encode [] = [] from rfl, List.nil_append, if_neg (by simp [htail])]
    refine ⟨0, 0, rfl, fun _ => ⟨hwhole, rfl⟩, fun hle => ?_⟩
    rw [← hwhole] at hle
    exact absurd hle (by decide)
  · by_cases hlt : n.whole < significandBound
    · rw [← hwhole] at hlt
      rw [wholeDigits_of_lt hds htail hlt, hwhole]
      exact ⟨n.whole, 0, rfl, fun _ => ⟨rfl, rfl⟩,
        fun hle => absurd (hwhole ▸ hlt) (Nat.not_lt.2 hle)⟩
    · have hsmall : d.toNat - '0'.toNat < significandBound := by
        have hrange := digit_range hd
        have h48 : '0'.toNat = 48 := rfl
        exact Nat.lt_trans (show d.toNat - '0'.toNat < 10 by omega) (by decide)
      rw [← hwhole, Nat.not_lt] at hlt
      obtain ⟨m, dropped, hdropped, hne⟩ := wholeDigits_of_le hds htail hsmall hlt
      rw [hdropped]
      exact ⟨m, dropped, rfl, fun hlt' => absurd hlt' (Nat.not_lt.2 (hwhole ▸ hlt)),
        fun _ => hne⟩

theorem number_count {n : Numeral} {k : Nat} (h : n.count? = some k) {rest : Bytes}
    (hrest : EndsNumber rest) : number (encode n.text ++ rest) = .ok (.natural k, rest) := by
  obtain ⟨m, dropped, hread, hfits, -⟩ := number_whole n hrest
  unfold Numeral.count? at h
  split at h
  · next hcount =>
    obtain ⟨hsign, hfraction, hpower, hlt⟩ := hcount
    obtain ⟨rfl, rfl⟩ := hfits hlt
    have htail : encode n.tail ++ rest = rest := by
      rw [Numeral.tail, hfraction, hpower]
      rfl
    rw [hread, htail, afterWhole_ending hrest, hsign, ← Option.some.inj h]
    rfl
  · cases h

theorem number_other {n : Numeral} (h : n.count? = none) {rest : Bytes}
    (hrest : EndsNumber rest) (k : Nat) (r : Bytes) :
    number (encode n.text ++ rest) ≠ .ok (.natural k, r) := by
  obtain ⟨m, dropped, hread, -, hdropped⟩ := number_whole n hrest
  rw [hread]
  exact afterWhole_other h hdropped hrest k r

end Reader

end HeaderSchema
