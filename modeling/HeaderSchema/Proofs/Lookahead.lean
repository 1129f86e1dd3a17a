import HeaderSchema.Proofs.Passing

/-!
# How far readers look ahead

A reader cannot take back what it took, and it looks at one byte more at most:
the one that may end a number. So what it answers, it answers on every input that
begins with the bytes that it took, if the byte after them is the same
(`Reader.Repeats`). Readers with a bound answer the same with any other bound that
is large enough, so the notion is about two readers.

A reader that ends with a closing bracket does not even look at the byte after it
(`Reader.Closes`).
-/

namespace HeaderSchema

namespace Reader

variable {α β : Type} {b? : Option UInt8} {m m' L : Nat} {r r' t t' : Reader α}
  {f f' : α → Reader β}

/-! ## Rules -/

/-- What the first reader answers on inputs with that first byte, it answers from
the bytes that it takes, which are `m` at least, and from the byte after them.
Where it takes fewer than `L`, the second reader answers the same. -/
def RepeatsAt (b? : Option UInt8) (m L : Nat) (r r' : Reader α) : Prop :=
  ∀ (u s : Bytes) (v : α), u.head? = b? → r u = .ok (v, s) →
    ∃ c, u = c ++ s ∧ m ≤ c.length ∧
      (c.length < L → ∀ s', s'.head? = s.head? → r' (c ++ s') = .ok (v, s'))

/-- The same, whatever the first byte. -/
def Repeats (m L : Nat) (r r' : Reader α) : Prop :=
  ∀ b?, RepeatsAt b? m L r r'

/-- What the first reader answers, it answers from bytes that end with `b`, and
from nothing else. Where these are `L` at most, the second reader answers the same. -/
def Closes (b : UInt8) (L : Nat) (r r' : Reader α) : Prop :=
  ∀ (u s : Bytes) (v : α), r u = .ok (v, s) →
    ∃ c, u = c ++ b :: s ∧ (c.length < L → ∀ s', r' (c ++ b :: s') = .ok (v, s'))

theorem head?_append_congr {s s' : Bytes} (h : s'.head? = s.head?) (c : Bytes) :
    (c ++ s').head? = (c ++ s).head? := by
  rw [List.head?_append, List.head?_append, h]

theorem Fails.ne_ok {u s : Bytes} {v : α} (h : r.Fails u) : r u ≠ .ok (v, s) := by
  obtain ⟨fault, hfault⟩ := h
  rw [hfault]
  exact nofun

/-- An answer of two readers in a row is an answer of each. -/
theorem of_bind_eq_ok {u t : Bytes} {w : β} (h : (r >>= f) u = .ok (w, t)) :
    ∃ v s, r u = .ok (v, s) ∧ f v s = .ok (w, t) := by
  cases hr : r u with
  | error fault =>
    rw [bind_error hr] at h
    cases h
  | ok answer =>
    rw [bind_ok hr] at h
    exact ⟨answer.1, answer.2, rfl, h⟩

namespace RepeatsAt

theorem weaken {n K : Nat} (h : RepeatsAt b? m L r r') (hn : n ≤ m)
    (hK : K ≤ L) : RepeatsAt b? n K r r' := by
  intro u s v hb hu
  obtain ⟨c, hc, hm, hsame⟩ := h u s v hb hu
  exact ⟨c, hc, Nat.le_trans hn hm, fun hlt => hsame (Nat.lt_of_lt_of_le hlt hK)⟩

/-- How much was taken may be forgotten. -/
theorem forget (h : RepeatsAt b? m L r r') : RepeatsAt b? 0 L r r' :=
  h.weaken (Nat.zero_le m) (Nat.le_refl L)

theorem of_fails (h : ∀ u, r.Fails u) : RepeatsAt b? m L r r' := by
  intro u s v _ hu
  exact absurd hu (h u).ne_ok

theorem failNext {cause : Cause} : RepeatsAt b? m L (failNext cause) r' :=
  of_fails (fails_failNext cause)

theorem failHere {cause : Cause} {back : Nat} :
    RepeatsAt b? m L (failHere cause back) r' :=
  of_fails (fails_failHere cause back)

/-- Nothing is answered on the empty input. -/
theorem of_nil (h : r.Fails []) : RepeatsAt none m L r r' := by
  intro u s v hb hu
  rw [List.head?_eq_none_iff.1 hb] at hu
  exact absurd hu h.ne_ok

/-- Once the first byte is known, readers may be told by what they do with it. -/
theorem congr (h : ∀ u, u.head? = b? → r u = t u)
    (h' : ∀ u, u.head? = b? → r' u = t' u) (ht : RepeatsAt b? m L t t') :
    RepeatsAt b? m L r r' := by
  intro u s v hb hu
  rw [h u hb] at hu
  obtain ⟨c, rfl, hm, hsame⟩ := ht u s v hb hu
  refine ⟨c, rfl, hm, fun hlt s' hs' => ?_⟩
  rw [h' _ ((head?_append_congr hs' c).trans hb)]
  exact hsame hlt s' hs'

theorem pure (v : α) : RepeatsAt b? 0 L (pure v) (pure v) := by
  intro u s w _ hu
  cases hu
  exact ⟨[], rfl, Nat.le_refl 0, fun _ _ _ => rfl⟩

theorem ite {c : Prop} [Decidable c] (hr : RepeatsAt b? m L r r')
    (ht : RepeatsAt b? m L t t') :
    RepeatsAt b? m L (if c then r else t) (if c then r' else t') := by
  split
  · exact hr
  · exact ht

/-- Two readers in a row. The bytes that the first one takes are not there for the
second. -/
theorem bind_add (hr : RepeatsAt b? m L r r')
    (hf : ∀ v, Repeats m' (L - m) (f v) (f' v)) :
    RepeatsAt b? (m + m') L (r >>= f) (r' >>= f') := by
  intro u t w hb hu
  obtain ⟨v, s, hv, hw⟩ := of_bind_eq_ok hu
  obtain ⟨c, rfl, hm, hsame⟩ := hr u s v hb hv
  obtain ⟨d, rfl, hm', hsame'⟩ := hf v _ s t w rfl hw
  rw [← List.append_assoc]
  refine ⟨c ++ d, rfl, by rw [List.length_append]; omega, fun hlt s' hs' => ?_⟩
  rw [List.length_append] at hlt
  rw [List.append_assoc, bind_ok (hsame (by omega) _ (head?_append_congr hs' d))]
  exact hsame' (by omega) s' hs'

/-- Two readers in a row, of which the second takes enough. -/
theorem bind (hr : RepeatsAt b? m' L r r')
    (hf : ∀ v, Repeats m L (f v) (f' v)) : RepeatsAt b? m L (r >>= f) (r' >>= f') := by
  have h := hr.forget.bind_add hf
  rwa [Nat.zero_add] at h

/-- Two readers in a row, of which the first takes a byte. -/
theorem bind_taken (hr : RepeatsAt b? 1 L r r')
    (hf : ∀ v, Repeats 0 (L - 1) (f v) (f' v)) : RepeatsAt b? 1 L (r >>= f) (r' >>= f') :=
  hr.bind_add hf

end RepeatsAt

namespace Repeats

theorem weaken {n K : Nat} (h : Repeats m L r r') (hn : n ≤ m) (hK : K ≤ L) :
    Repeats n K r r' :=
  fun b? => (h b?).weaken hn hK

theorem pure (v : α) : Repeats 0 L (pure v) (pure v) :=
  fun _ => .pure v

theorem of_fails (h : ∀ u, r.Fails u) : Repeats m L r r' :=
  fun _ => .of_fails h

theorem bind (hr : Repeats m' L r r')
    (hf : ∀ v, Repeats m L (f v) (f' v)) : Repeats m L (r >>= f) (r' >>= f') :=
  fun b? => (hr b?).bind hf

theorem bind_taken (hr : Repeats 1 L r r')
    (hf : ∀ v, Repeats 0 (L - 1) (f v) (f' v)) : Repeats 1 L (r >>= f) (r' >>= f') :=
  fun b? => (hr b?).bind_taken hf

/-- A bound that is large enough is not zero, unless there is nothing to repeat. -/
theorem of_succ {f : Nat → Reader α} {n : Nat}
    (h : ∀ n K, K ≤ L → K ≤ n + 1 → Repeats m K r (f (n + 1))) (hn : L ≤ n) :
    Repeats m L r (f n) := by
  cases n with
  | succ n => exact h n L (Nat.le_refl L) hn
  | zero =>
    intro b? u s v hb hu
    obtain ⟨c, hc, hm, -⟩ := h 0 0 (Nat.zero_le L) (Nat.zero_le 1) b? u s v hb hu
    exact ⟨c, hc, hm, fun hlt => absurd hlt (by omega)⟩

end Repeats

namespace Closes

variable {b : UInt8}

theorem of_bind (hr : Repeats m L r r')
    (hf : ∀ v, Closes b L (f v) (f' v)) : Closes b L (r >>= f) (r' >>= f') := by
  intro u t w hu
  obtain ⟨v, s, hv, hw⟩ := of_bind_eq_ok hu
  obtain ⟨c, rfl, -, hsame⟩ := hr _ u s v rfl hv
  obtain ⟨d, rfl, hsame'⟩ := hf v s t w hw
  rw [← List.append_assoc]
  refine ⟨c ++ d, rfl, fun hlt s' => ?_⟩
  rw [List.length_append] at hlt
  rw [List.append_assoc, bind_ok (hsame (by omega) _ (by cases d <;> rfl))]
  exact hsame' (by omega) s'

theorem map (hr : Closes b L r r') (f : α → β) :
    Closes b L (r >>= fun v => Pure.pure (f v)) (r' >>= fun v => Pure.pure (f v)) := by
  intro u t w hu
  obtain ⟨v, s, hv, hw⟩ := of_bind_eq_ok hu
  cases hw
  obtain ⟨c, hc, hsame⟩ := hr u _ v hv
  exact ⟨c, hc, fun hlt s' => bind_ok (hsame hlt s') _⟩

theorem of_fails (h : ∀ u, r.Fails u) : Closes b L r r' := by
  intro u s v hu
  exact absurd hu (h u).ne_ok

theorem repeats (h : Closes b L r r') : Repeats 1 L r r' := by
  intro b? u s v _ hu
  obtain ⟨c, rfl, hsame⟩ := h u s v hu
  refine ⟨c ++ [b], by simp, by simp, fun hlt s' _ => ?_⟩
  rw [List.length_append] at hlt
  rw [List.append_assoc]
  exact hsame (by omega) s'

end Closes

/-! ## Blanks and punctuation -/

/-- What ends a run of bytes is the first byte after it. -/
theorem dropWhile_takeWhile_append {p : UInt8 → Bool} {u s : Bytes}
    (h : s.head? = (u.dropWhile p).head?) : (u.takeWhile p ++ s).dropWhile p = s := by
  induction u with
  | nil => rw [List.head?_eq_none_iff.1 h]; rfl
  | cons b u ih =>
    by_cases hb : p b = true
    · rw [List.dropWhile_cons_of_pos hb] at h
      rw [List.takeWhile_cons_of_pos hb, List.cons_append, List.dropWhile_cons_of_pos hb]
      exact ih h
    · rw [List.dropWhile_cons_of_neg hb] at h
      rw [List.takeWhile_cons_of_neg hb, List.nil_append]
      obtain ⟨t, rfl⟩ := List.head?_eq_some_iff.1 h
      exact List.dropWhile_cons_of_neg hb

theorem Repeats.peek_bind {f f' : Option UInt8 → Reader α}
    (h : ∀ b?, RepeatsAt b? m L (f b?) (f' b?)) : Repeats m L (peek >>= f) (peek >>= f') := by
  intro b? u s v _ hu
  have hafter : f (skipBlanks u).head? (skipBlanks u) = .ok (v, s) := hu
  obtain ⟨c, hc, hm, hsame⟩ := h _ _ s v rfl hafter
  have htaken : u = u.takeWhile isBlankByte ++ c ++ s := by
    rw [List.append_assoc, ← hc]
    exact List.takeWhile_append_dropWhile.symm
  refine ⟨u.takeWhile isBlankByte ++ c, htaken, ?_, fun hlt s' hs' => ?_⟩
  · rw [List.length_append]
    omega
  · rw [List.length_append] at hlt
    have hhead : (c ++ s').head? = (skipBlanks u).head? := by
      rw [hc]
      exact head?_append_congr hs' c
    have hskip : skipBlanks (u.takeWhile isBlankByte ++ c ++ s') = c ++ s' := by
      rw [List.append_assoc]
      exact dropWhile_takeWhile_append hhead
    change f' (skipBlanks _).head? (skipBlanks _) = _
    rw [hskip, hhead]
    exact hsame (by omega) s' hs'

theorem Repeats.peek_cases {f f' : Option UInt8 → Reader α}
    (hnone : RepeatsAt none m L (f none) (f' none))
    (hsome : ∀ b, RepeatsAt (some b) m L (f (some b)) (f' (some b))) :
    Repeats m L (peek >>= f) (peek >>= f') := by
  apply peek_bind
  intro b?
  cases b? with
  | none => exact hnone
  | some b => exact hsome b

/-- A value that has to begin with a certain byte. -/
theorem Repeats.peek_ite {b : UInt8} (hr : RepeatsAt (some b) m L r r')
    (ht : Repeats m L t t') :
    Repeats m L (peek >>= fun b? => if b? == some b then r else t)
      (peek >>= fun b? => if b? == some b then r' else t') := by
  apply peek_bind
  intro b?
  by_cases hb : b? = some b
  · rw [hb]
    exact .ite hr (ht _)
  · have hne : (b? == some b) = false := by simpa using hb
    rw [hne]
    exact ht b?

/-- Where there is a byte, it is taken. -/
theorem repeatsAt_skip (b : UInt8) : RepeatsAt (some b) 1 L skip skip := by
  intro u s v hb hu
  obtain ⟨t, rfl⟩ := List.head?_eq_some_iff.1 hb
  cases hu
  exact ⟨[b], rfl, Nat.le_refl 1, fun _ _ _ => rfl⟩

theorem repeats_skip : Repeats 0 L skip skip := by
  intro b?
  cases b? with
  | none =>
    have hnone : ∀ u : Bytes, u.head? = none → skip u = (pure () : Reader Unit) u := by
      intro u hu
      rw [List.head?_eq_none_iff.1 hu]
      rfl
    exact .congr hnone hnone (.pure ())
  | some b => exact (repeatsAt_skip b).forget

theorem letters_append (ws rest : Bytes) : letters ws (ws ++ rest) = .ok ((), rest) := by
  induction ws with
  | nil => rfl
  | cons w ws ih => exact (if_pos (beq_self_eq_true w)).trans ih

theorem eq_append_of_letters {ws u s : Bytes} {v : Unit} (h : letters ws u = .ok (v, s)) :
    u = ws ++ s := by
  induction ws generalizing u with
  | nil =>
    cases h
    rfl
  | cons w ws ih =>
    cases u with
    | nil => cases h
    | cons b u =>
      rw [letters] at h
      split at h
      · next hwb => rw [← eq_of_beq hwb, List.cons_append, ← ih h]
      · cases h

theorem repeats_word {tail : Bytes} (htail : tail ≠ []) : Repeats 1 L (word tail) (word tail) := by
  intro b? u s v _ hu
  have hletters := eq_append_of_letters hu
  cases u with
  | nil => exact absurd (List.append_eq_nil_iff.1 hletters.symm).1 htail
  | cons b u =>
    refine ⟨b :: tail, congrArg (b :: ·) hletters, by simp, fun _ s' _ => ?_⟩
    exact letters_append tail s'

theorem repeats_nextItem (first : Bool) : Repeats 0 L (nextItem first) (nextItem first) := by
  apply Repeats.peek_cases .failNext
  intro b
  apply RepeatsAt.ite (.pure false)
  apply RepeatsAt.ite (.pure true)
  apply RepeatsAt.ite _ .failNext
  apply (repeats_skip _).bind
  intro _
  apply Repeats.peek_cases .failNext
  intro b
  exact .ite .failNext (.pure true)

theorem repeats_nextMember (first : Bool) : Repeats 0 L (nextMember first) (nextMember first) := by
  apply Repeats.peek_cases .failNext
  intro b
  apply RepeatsAt.ite (.pure false)
  apply RepeatsAt.ite (.ite (.pure true) .failNext)
  apply RepeatsAt.ite _ .failNext
  apply (repeats_skip _).bind
  intro _
  apply Repeats.peek_cases .failNext
  intro b
  exact .ite (.pure true) (.ite .failNext .failNext)

theorem repeats_colon : Repeats 1 L colon colon := by
  apply Repeats.peek_cases .failNext
  intro b
  exact .ite (repeatsAt_skip b) .failNext

/-- A reader that takes the closing byte and nothing else. -/
theorem closes_peek {b : UInt8} {f : Option UInt8 → Reader Unit}
    (hclose : f (some b) = skip) (hother : ∀ b?, b? ≠ some b → ∀ u, (f b?).Fails u) :
    Closes b L (peek >>= f) (peek >>= f) := by
  intro u s v hu
  have hafter : f (skipBlanks u).head? (skipBlanks u) = .ok (v, s) := hu
  by_cases hhead : (skipBlanks u).head? = some b
  · obtain ⟨t, ht⟩ := List.head?_eq_some_iff.1 hhead
    rw [ht, List.head?_cons, hclose] at hafter
    cases hafter
    have htaken : u = u.takeWhile isBlankByte ++ b :: t := by
      rw [← ht]
      exact List.takeWhile_append_dropWhile.symm
    refine ⟨u.takeWhile isBlankByte, htaken, fun _ s' => ?_⟩
    have hskip : skipBlanks (u.takeWhile isBlankByte ++ b :: s') = b :: s' := by
      apply dropWhile_takeWhile_append
      rw [show u.dropWhile isBlankByte = b :: t from ht]
      rfl
    change f (skipBlanks _).head? (skipBlanks _) = _
    rw [hskip, List.head?_cons, hclose]
    rfl
  · exact absurd hafter (hother _ hhead (skipBlanks u)).ne_ok

theorem closes_endObject : Closes Mark.closeObject L endObject endObject := by
  apply closes_peek rfl
  intro b? hb u
  cases b? with
  | none => exact fails_failNext _ u
  | some b =>
    have hne : (b == Mark.closeObject) = false := by simpa using hb
    dsimp only
    rw [hne, if_neg Bool.false_ne_true]
    split <;> exact fails_failNext _ u

theorem closes_endList : Closes Mark.closeList L endList endList := by
  apply closes_peek rfl
  intro b? hb u
  cases b? with
  | none => exact fails_failNext _ u
  | some b =>
    have hne : (b == Mark.closeList) = false := by simpa using hb
    dsimp only
    rw [hne, if_neg Bool.false_ne_true]
    split
    · apply fails_bind
      intro _
      apply fails_bind
      intro b? rest
      cases b? with
      | none => exact fails_failNext _ rest
      | some b =>
        dsimp only
        split <;> exact fails_failNext _ rest
    · exact fails_failNext _ u

/-! ## Loops over bytes -/

/-- What a loop does with the next byte: it goes on, or ends before it or after it,
or fails. -/
inductive Step {σ : Type} (r : σ → Reader α) (x : σ) (b : UInt8) : Prop
  | on (y : σ) (h : ∀ u, r x (b :: u) = r y u)
  | before (v : α) (h : ∀ u, r x (b :: u) = .ok (v, b :: u))
  | after (v : α) (h : ∀ u, r x (b :: u) = .ok (v, u))
  | fails (h : ∀ u, (r x).Fails (b :: u))

theorem repeats_loop {σ : Type} {r : σ → Reader α} (hnil : ∀ x v s, r x [] = .ok (v, s) → s = [])
    (hstep : ∀ x b, Step r x b) (x : σ) : Repeats 0 L (r x) (r x) := by
  intro b? u s v hb hu
  clear hb
  induction u generalizing x with
  | nil =>
    have hs := hnil x v s hu
    subst hs
    exact ⟨[], rfl, Nat.zero_le _, fun _ s' hs' => by rw [List.head?_eq_none_iff.1 hs']; exact hu⟩
  | cons b u ih =>
    cases hstep x b with
    | on y h =>
      rw [h] at hu
      obtain ⟨c, rfl, -, hsame⟩ := ih y hu
      refine ⟨b :: c, rfl, Nat.zero_le _, fun hlt s' hs' => (h _).trans (hsame ?_ s' hs')⟩
      rw [List.length_cons] at hlt
      omega
    | before w h =>
      rw [h] at hu
      cases hu
      refine ⟨[], rfl, Nat.zero_le _, fun _ s' hs' => ?_⟩
      obtain ⟨t, rfl⟩ := List.head?_eq_some_iff.1 hs'
      exact h t
    | after w h =>
      rw [h] at hu
      cases hu
      exact ⟨[b], rfl, Nat.zero_le _, fun _ s' _ => h s'⟩
    | fails h => exact absurd hu (h u).ne_ok

/-! ## Texts -/

theorem skip_then (r : Reader α) (u : Bytes) : (skip >>= fun _ => r) u = r (u.drop 1) :=
  rfl

/-- The loop over the bytes of a text, as a reader. -/
def textLoop (x : TextState × Bytes) : Reader Bytes :=
  textBytes x.1 x.2

theorem step_textLoop (x : TextState × Bytes) (b : UInt8) : Step textLoop x b := by
  obtain ⟨state, acc⟩ := x
  by_cases hend : state = .plain ∧ (b == Mark.quote) = true
  · obtain ⟨rfl, hquote⟩ := hend
    refine .after acc.reverse fun u => ?_
    simp only [textLoop, textBytes, hquote]
  · have hopen : state = .plain → (b == Mark.quote) = false := by
      intro hplain
      simpa using fun hquote => hend ⟨hplain, hquote⟩
    cases hstep : textStep state acc b with
    | ok next => exact .on next fun u => textBytes_step hstep hopen u
    | error cause =>
      refine .fails fun u => ⟨⟨cause, u, 0⟩, ?_⟩
      rw [textLoop, textBytes, hstep]
      simpa using hopen

theorem text_eq_textLoop :
    text = skip >>= fun _ => textLoop (.plain, []) >>= fun bytes =>
      match Utf8.decode bytes with
      | (cs, []) => pure (String.ofList cs)
      | (_, b :: bad) => failHere .badCodePoint (b :: bad).length := by
  funext u
  rw [skip_then, text]
  cases hbytes : textBytes .plain [] (u.drop 1) with
  | error fault =>
    have hloop : textLoop (.plain, []) (u.drop 1) = .error fault := hbytes
    rw [bind_error hloop]
  | ok answer =>
    have hloop : textLoop (.plain, []) (u.drop 1) = .ok answer := hbytes
    rw [bind_ok hloop]
    obtain ⟨bytes, rest⟩ := answer
    dsimp only
    cases hdecode : Utf8.decode bytes with
    | mk cs bad => cases bad <;> rfl

theorem repeats_text : Repeats 1 L text text := by
  intro b?
  cases b? with
  | none => exact .of_nil ⟨_, rfl⟩
  | some b =>
    rw [text_eq_textLoop]
    apply (repeatsAt_skip b).bind_taken
    intro _
    apply (repeats_loop (by nofun) step_textLoop (.plain, [])).bind
    intro bytes
    split
    · exact .pure _
    · exact .of_fails (fails_failHere _ _)

/-- The loop that passes over the bytes of a text, as a reader. -/
def passLoop (state : SkipState) : Reader Unit := fun u =>
  match skipTextBytes state u with
  | .ok rest => .ok ((), rest)
  | .error fault => .error fault

theorem step_passLoop (state : SkipState) (b : UInt8) : Step passLoop state b := by
  cases state with
  | plain =>
    by_cases hquote : (b == Mark.quote) = true
    · refine .after () fun u => ?_
      simp only [passLoop, skipTextBytes, if_pos hquote]
    by_cases hbackslash : (b == Mark.backslash) = true
    · refine .on .escape fun u => ?_
      simp only [passLoop, skipTextBytes, if_neg hquote, if_pos hbackslash]
    by_cases hcontrol : b < 0x20
    · refine .fails fun u => ⟨⟨.controlCharacter, b :: u, 0⟩, ?_⟩
      simp only [passLoop, skipTextBytes, if_neg hquote, if_neg hbackslash, if_pos hcontrol]
    · refine .on .plain fun u => ?_
      simp only [passLoop, skipTextBytes, if_neg hquote, if_neg hbackslash, if_neg hcontrol]
  | escape =>
    by_cases hunit : (b == unitMark) = true
    · refine .on (.digits []) fun u => ?_
      simp only [passLoop, skipTextBytes, if_pos hunit]
    by_cases hescaped : (escaped? b).isSome = true
    · refine .on .plain fun u => ?_
      simp only [passLoop, skipTextBytes, if_neg hunit, if_pos hescaped]
    · refine .fails fun u => ⟨⟨.badEscape, u, 0⟩, ?_⟩
      simp only [passLoop, skipTextBytes, if_neg hunit, if_neg hescaped]
  | digits read =>
    by_cases hlength : read.length < 3
    · refine .on (.digits (b :: read)) fun u => ?_
      simp only [passLoop, skipTextBytes, if_pos hlength]
    by_cases hnumber : (hexNumber? (b :: read)).isSome = true
    · refine .on .plain fun u => ?_
      simp only [passLoop, skipTextBytes, if_neg hlength, if_pos hnumber]
    · refine .fails fun u => ⟨⟨.badEscape, u, 0⟩, ?_⟩
      simp only [passLoop, skipTextBytes, if_neg hlength, if_neg hnumber]

theorem repeats_skipText : Repeats 1 L skipText skipText := by
  intro b?
  cases b? with
  | none => exact .of_nil ⟨_, rfl⟩
  | some b =>
    have hskip : skipText = skip >>= fun _ => passLoop .plain := rfl
    rw [hskip]
    apply (repeatsAt_skip b).bind_taken
    intro _
    exact repeats_loop (by intro state v s h; cases state <;> cases h) step_passLoop .plain

end Reader

end HeaderSchema
