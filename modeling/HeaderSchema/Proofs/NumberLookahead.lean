import HeaderSchema.Proofs.Lookahead

/-!
# Where numbers end

A number is the one kind of value that ends without a byte of its own: its last
digit is the last because no digit, point or power comes next. The readers of
numbers look at that byte and leave it unread, so they repeat their answers where
it is the same. Each of their loops is told as a reader of its own, so that a
number is read by readers in a row.
-/

namespace HeaderSchema

namespace Reader

variable {α : Type} {b? : Option UInt8} {m L : Nat}

/-! ## One byte ahead -/

theorem repeats_firstDigit (atEnd : Cause) : Repeats 1 L (firstDigit atEnd) (firstDigit atEnd) := by
  intro b? u s v _ hu
  cases u with
  | nil => cases hu
  | cons b u =>
    change (if isDigit b then _ else _) = _ at hu
    split at hu
    · next hdigit =>
      cases hu
      exact ⟨[b], rfl, Nat.le_refl 1, fun _ _ _ => if_pos hdigit⟩
    · cases hu

/-- Looking at the first byte without taking it: what is done then depends on
nothing else. -/
theorem repeatsAt_get {f : Bytes → Reader α} {r : Reader α} (h : ∀ u, u.head? = b? → f u = r)
    (hr : RepeatsAt b? m L r r) : RepeatsAt b? m L (get >>= f) (get >>= f) := by
  have hget : ∀ u : Bytes, u.head? = b? → (get >>= f) u = r u := by
    intro u hu
    rw [get_bind, h u hu]
  exact .congr hget hget hr

theorem atDigit_eq_any (u : Bytes) : atDigit u = u.head?.any isDigit := by
  cases u <;> rfl

theorem atPower_eq_any (u : Bytes) : atPower u = u.head?.any isPowerMark := by
  cases u <;> rfl

theorem repeats_powerSign : Repeats 0 L powerSign powerSign := by
  have hsign : powerSign = get >>= fun u =>
      if u.head? == some Mark.plus then skip >>= fun _ => pure false
      else if u.head? == some Mark.minus then skip >>= fun _ => pure true
      else pure false := by
    funext u
    cases u with
    | nil => rfl
    | cons b u =>
      rw [powerSign, get_bind, List.head?_cons, Option.some_beq_some, Option.some_beq_some]
      repeat' split
      all_goals rfl
  rw [hsign]
  intro b?
  apply repeatsAt_get
  · intro u hu
    rw [hu]
  have hskip : ∀ down : Bool, RepeatsAt b? 0 L (skip >>= fun _ => pure down)
      (skip >>= fun _ => pure down) :=
    fun down => (repeats_skip b?).bind fun _ => .pure down
  exact .ite (hskip false) (.ite (hskip true) (.pure false))

theorem repeats_passDigits : Repeats 0 L passDigits passDigits := by
  apply repeats_loop (r := fun _ : Unit => passDigits) _ _ ()
  · intro _ v s h
    cases h
    rfl
  · intro _ b
    by_cases hdigit : isDigit b = true
    · refine .on () fun u => ?_
      rw [passDigits, passDigits, skipDigits, List.dropWhile_cons_of_pos hdigit, skipDigits]
    · refine .before () fun u => ?_
      rw [passDigits, skipDigits, List.dropWhile_cons_of_neg hdigit]

theorem repeats_signed {next : Bool → Reader α}
    (h : ∀ negative, Repeats m L (next negative) (next negative)) :
    Repeats m L (signed next) (signed next) := by
  intro b?
  apply repeatsAt_get
  · intro u hu
    rw [hu]
  apply RepeatsAt.ite
  · exact (repeats_skip b?).bind fun _ => h _
  · exact h _ b?

theorem repeats_skipPower : Repeats 0 L skipPower skipPower := by
  apply repeats_skip.bind
  intro _
  apply repeats_powerSign.bind
  intro _
  apply (repeats_firstDigit _).bind
  intro _
  exact repeats_passDigits

theorem repeats_skipAfterWhole : Repeats 0 L skipAfterWhole skipAfterWhole := by
  intro b?
  cases b? with
  | none =>
    apply repeatsAt_get
    · intro u hu
      rw [List.head?_eq_none_iff.1 hu]
    exact .pure ()
  | some b =>
    apply repeatsAt_get
    · intro u hu
      obtain ⟨t, rfl⟩ := List.head?_eq_some_iff.1 hu
      dsimp only
    apply RepeatsAt.ite
    · apply (repeats_skip _).bind
      intro _ b?
      apply repeatsAt_get
      · intro u hu
        rw [atDigit_eq_any, hu]
      apply RepeatsAt.ite
      · exact .of_fails fun u => (fails_failNext _ u).bind _
      · apply (repeats_passDigits b?).bind
        intro _ b?
        apply repeatsAt_get
        · intro u hu
          rw [atPower_eq_any, hu]
        exact .ite (repeats_skipPower b?) (.pure ())
    · exact .ite (repeats_skipPower _) (.pure ())

theorem repeats_skipNumber : Repeats 1 L skipNumber skipNumber := by
  rw [skipNumber_eq_signed]
  apply repeats_signed
  intro _
  apply (repeats_firstDigit _).bind_taken
  intro first b?
  apply RepeatsAt.ite
  · apply repeatsAt_get
    · intro u hu
      rw [atDigit_eq_any, hu]
    apply RepeatsAt.ite
    · exact .of_fails fun u => (fails_failNext _ u).bind _
    · exact repeats_skipAfterWhole b?
  · exact (repeats_passDigits b?).bind fun _ => repeats_skipAfterWhole

theorem repeats_float (negative : Bool) (k : Nat) (e : Int) :
    Repeats 0 L (float negative k e) (float negative k e) := by
  unfold float
  split
  · exact fun _ => .failHere
  · exact .pure _

/-- The loop over the digits of a whole part, as a reader. -/
def wholeLoop (x : Nat × Nat) : Reader (Nat × Nat) := fun u =>
  let (k, dropped, rest) := wholeDigits x.1 x.2 u
  .ok ((k, dropped), rest)

/-- The loop over the digits of a fraction, as a reader. -/
def fractionLoop (x : Nat × Nat × Bool) : Reader (Nat × Nat) := fun u =>
  let (k, kept, rest) := fractionDigits x.1 x.2.1 x.2.2 u
  .ok ((k, kept), rest)

/-- The loop over the digits of a power, as a reader. -/
def powerLoop (e : Nat) : Reader (Option Nat) := fun u =>
  .ok (powerDigits e u)

theorem repeats_wholeLoop (x : Nat × Nat) : Repeats 0 L (wholeLoop x) (wholeLoop x) := by
  apply repeats_loop
  · intro x v s h
    cases h
    rfl
  · intro x b
    by_cases hdigit : isDigit b = true
    · by_cases hfits : x.2 = 0 ∧ x.1 * 10 + digitValue b < significandBound
      · refine .on (x.1 * 10 + digitValue b, 0) fun u => ?_
        simp only [wholeLoop, wholeDigits, if_pos hdigit, if_pos hfits]
      · refine .on (x.1, x.2 + 1) fun u => ?_
        simp only [wholeLoop, wholeDigits, if_pos hdigit, if_neg hfits]
    · refine .before x fun u => ?_
      simp only [wholeLoop, wholeDigits, if_neg hdigit]

theorem repeats_fractionLoop (x : Nat × Nat × Bool) :
    Repeats 0 L (fractionLoop x) (fractionLoop x) := by
  apply repeats_loop
  · intro x v s h
    cases h
    rfl
  · intro x b
    by_cases hdigit : isDigit b = true
    · by_cases hfits : (!x.2.2 && x.1 * 10 + digitValue b < significandBound) = true
      · refine .on (x.1 * 10 + digitValue b, x.2.1 + 1, false) fun u => ?_
        simp only [fractionLoop, fractionDigits, if_pos hdigit, if_pos hfits]
      · refine .on (x.1, x.2.1, true) fun u => ?_
        simp only [fractionLoop, fractionDigits, if_pos hdigit, if_neg hfits]
    · refine .before (x.1, x.2.1) fun u => ?_
      simp only [fractionLoop, fractionDigits, if_neg hdigit]

theorem repeats_powerLoop (e : Nat) : Repeats 0 L (powerLoop e) (powerLoop e) := by
  apply repeats_loop
  · intro e v s h
    cases h
    rfl
  · intro e b
    by_cases hdigit : isDigit b = true
    · by_cases hfits : e * 10 + digitValue b < powerBound
      · refine .on (e * 10 + digitValue b) fun u => ?_
        simp only [powerLoop, powerDigits, if_pos hdigit, if_pos hfits]
      · refine .after none fun u => ?_
        simp only [powerLoop, powerDigits, if_pos hdigit, if_neg hfits]
    · refine .before (some e) fun u => ?_
      simp only [powerLoop, powerDigits, if_neg hdigit]

theorem power_eq_powerLoop (negative : Bool) (k : Nat) (e : Int) :
    power negative k e = (do
      skip
      let down ← powerSign
      let first ← firstDigit .endOfValue
      match ← powerLoop first with
      | some p => float negative k (if down then e - p else e + p)
      | none =>
        if k ≠ 0 ∧ !down then failHere .numberRange
        else do
          passDigits
          return .float (if negative then -0.0 else 0.0)) := by
  unfold power
  refine bind_congr fun _ => bind_congr fun down => bind_congr fun first => ?_
  funext u
  cases hdigits : powerDigits first u with
  | mk p? rest =>
    have hloop : powerLoop first u = .ok (p?, rest) := by rw [powerLoop, hdigits]
    rw [bind_ok hloop, get_bind, hdigits]
    cases p? with
    | some p => rfl
    | none =>
      change (if k ≠ 0 ∧ !down then _ else _ : Reader Number) rest = _
      split <;> rfl

theorem repeats_power (negative : Bool) (k : Nat) (e : Int) :
    Repeats 0 L (power negative k e) (power negative k e) := by
  rw [power_eq_powerLoop]
  apply repeats_skip.bind
  intro _
  apply repeats_powerSign.bind
  intro down
  apply (repeats_firstDigit _).bind
  intro first
  apply (repeats_powerLoop first).bind
  intro p? b?
  cases p? with
  | some p => exact repeats_float _ _ _ b?
  | none =>
    apply RepeatsAt.ite .failHere
    exact (repeats_passDigits b?).bind fun _ => .pure _

theorem fraction_eq_fractionLoop (negative : Bool) (k : Nat) (e : Int) :
    fraction negative k e = (do
      skip
      if atDigit (← get) then
        let digits ← fractionLoop (k, 0, false)
        if atPower (← get) then power negative digits.1 (e - digits.2)
        else float negative digits.1 (e - digits.2)
      else if (← get).isEmpty then failNext .endOfValue
      else failNext .badNumber) := by
  unfold fraction
  refine bind_congr fun _ => ?_
  funext u
  rw [get_bind, get_bind]
  split
  · have hloop : fractionLoop (k, 0, false) u = .ok (((fractionDigits k 0 false u).1,
        (fractionDigits k 0 false u).2.1), (fractionDigits k 0 false u).2.2) := rfl
    rw [bind_ok hloop]
    rfl
  · rfl

theorem repeats_fraction (negative : Bool) (k : Nat) (e : Int) :
    Repeats 0 L (fraction negative k e) (fraction negative k e) := by
  rw [fraction_eq_fractionLoop]
  apply repeats_skip.bind
  intro _ b?
  apply repeatsAt_get
  · intro u hu
    rw [atDigit_eq_any, hu]
  apply RepeatsAt.ite
  · apply (repeats_fractionLoop _ b?).bind
    intro digits b?
    apply repeatsAt_get
    · intro u hu
      rw [atPower_eq_any, hu]
    exact .ite (repeats_power _ _ _ b?) (repeats_float _ _ _ b?)
  · refine .of_fails (fails_bind fun rest => ?_)
    split <;> exact fails_failNext _

theorem repeats_ending (negative : Bool) (k dropped : Nat) :
    Repeats 0 L (afterWhole.ending negative k dropped) (afterWhole.ending negative k dropped) := by
  intro b?
  apply RepeatsAt.ite (repeats_float _ _ _ b?)
  exact .ite (.pure _) (.ite (.pure _) (.pure _))

theorem repeats_afterWhole (negative : Bool) (k dropped : Nat) :
    Repeats 0 L (afterWhole negative k dropped) (afterWhole negative k dropped) := by
  intro b?
  cases b? with
  | none =>
    apply repeatsAt_get
    · intro u hu
      rw [List.head?_eq_none_iff.1 hu]
    exact repeats_ending negative k dropped none
  | some b =>
    apply repeatsAt_get
    · intro u hu
      obtain ⟨t, rfl⟩ := List.head?_eq_some_iff.1 hu
      dsimp only
    apply RepeatsAt.ite (repeats_fraction _ _ _ _)
    exact .ite (repeats_power _ _ _ _) (repeats_ending _ _ _ _)

theorem unsigned_eq_wholeLoop (negative : Bool) :
    unsigned negative = (do
      let first ← firstDigit .endOfValue
      if first = 0 then
        if atDigit (← get) then failNext .badNumber else afterWhole negative 0 0
      else
        let digits ← wholeLoop (first, 0)
        afterWhole negative digits.1 digits.2) := by
  unfold unsigned
  refine bind_congr fun first => ?_
  funext u
  rw [get_bind]
  split
  · rfl
  · have hloop : wholeLoop (first, 0) u = .ok (((wholeDigits first 0 u).1,
        (wholeDigits first 0 u).2.1), (wholeDigits first 0 u).2.2) := rfl
    rw [bind_ok hloop]
    rfl

theorem repeats_number : Repeats 1 L number number := by
  rw [number_eq_signed]
  apply repeats_signed
  intro negative
  rw [unsigned_eq_wholeLoop]
  apply (repeats_firstDigit _).bind_taken
  intro first b?
  apply RepeatsAt.ite
  · apply repeatsAt_get
    · intro u hu
      rw [atDigit_eq_any, hu]
    exact .ite .failNext (repeats_afterWhole _ _ _ b?)
  · exact (repeats_wholeLoop _ b?).bind fun digits => repeats_afterWhole _ _ _

end Reader

end HeaderSchema
