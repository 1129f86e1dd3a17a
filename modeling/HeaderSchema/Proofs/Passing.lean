import HeaderSchema.Proofs.NumberReading
import HeaderSchema.Proofs.TextReading

/-!
# Passing over spelled documents

A document under a key that nobody asked for is passed over as a whole,
however deep it is nested (`skipValue_spelled`). The reader keeps the open
brackets in a list instead of calling itself, so the induction over the
spelling says what is left to do after a part of a document: to close the
brackets around it and to go on from there. Every value takes a byte, so the
number of unread bytes bounds the number of values (`Passes`).
-/

namespace HeaderSchema

open Utf8 (encode encode_append encode_cons)

namespace Reader

/-- A number needs an end; any other document shows its own. -/
def Follows (x : Json) (rest : Bytes) : Prop :=
  match x with
  | .number _ => EndsNumber rest
  | _ => True

/-! ## After items and members -/

theorem endsNumber_cons {b : UInt8} (hdigit : isDigit b = false) (hpower : isPowerMark b = false)
    (hpoint : b ≠ Mark.point) (rest : Bytes) : EndsNumber (b :: rest) :=
  ⟨hdigit, hpower, fun _ heq => hpoint (List.cons.inj heq).1⟩

theorem endsNumber_gap {w : List Char} (hw : IsGap w) {b : UInt8} (hdigit : isDigit b = false)
    (hpower : isPowerMark b = false) (hpoint : b ≠ Mark.point) (rest : Bytes) :
    EndsNumber (encode w ++ b :: rest) := by
  cases w with
  | nil => exact endsNumber_cons hdigit hpower hpoint rest
  | cons c w =>
    rcases hw c List.mem_cons_self with rfl | rfl | rfl | rfl <;>
      exact endsNumber_cons rfl rfl (by decide) _

theorem endsNumber_separator {w : List Char} (hw : Separator false w) (rest : Bytes) :
    EndsNumber (encode w ++ rest) := by
  cases hw with
  | comma hw _ =>
    rw [encode_append, List.append_assoc]
    exact endsNumber_gap hw rfl rfl (by decide) _

/-- The rest of a list or of an object ends a number before it. -/
theorem endsNumber_items {xs : List Json} {t : List Char}
    (h : (Json.Part.items false xs).Spelled t) (rest : Bytes) : EndsNumber (encode t ++ rest) := by
  cases h with
  | endItems hw =>
    rw [encode_append, List.append_assoc]
    exact endsNumber_gap hw rfl rfl (by decide) _
  | item hw _ _ =>
    rw [encode_append, List.append_assoc]
    exact endsNumber_separator hw _

theorem endsNumber_members {ms : List (String × Json)} {t : List Char}
    (h : (Json.Part.members false ms).Spelled t) (rest : Bytes) :
    EndsNumber (encode t ++ rest) := by
  cases h with
  | endMembers hw =>
    rw [encode_append, List.append_assoc]
    exact endsNumber_gap hw rfl rfl (by decide) _
  | member hw _ _ _ _ _ =>
    rw [encode_append, List.append_assoc]
    exact endsNumber_separator hw _

theorem follows_of_endsNumber {x : Json} {rest : Bytes} (h : EndsNumber rest) :
    Follows x rest := by
  cases x <;> first | exact h | trivial

/-! ## One value -/

/-- What is left to do when brackets are still open. -/
def continueNested (n : Nat) : List Bracket → Reader Unit
  | [] => return ()
  | .list :: outer => skipNested n (.list :: outer)
  | .object :: outer => do
    skipKey
    skipNested n (.object :: outer)

/-- What is left to do after a value: the brackets that close here, and then the
brackets that do not. -/
def afterValue (n : Nat) (fresh : Bool) (outer : List Bracket) : Reader Unit :=
  closeBrackets fresh outer >>= continueNested n

theorem skipNested_succ (n : Nat) (outer : List Bracket) :
    skipNested (n + 1) outer =
      skipStart >>= fun bracket? =>
        match bracket? with
        | none => afterValue n false outer
        | some b => afterValue n true (b :: outer) := by
  unfold afterValue
  rw [skipNested, bind_assoc]
  refine bind_congr fun bracket? => ?_
  cases bracket? with
  | none =>
    refine bind_congr fun still => ?_
    rcases still with _ | ⟨_ | _, _⟩ <;> rfl
  | some b =>
    refine bind_congr fun still => ?_
    rcases still with _ | ⟨_ | _, _⟩ <;> rfl

/-! ### Leaves -/

theorem skipStart_number (n : Numeral) {w : List Char} (hw : IsGap w) {rest : Bytes}
    (hrest : EndsNumber rest) : skipStart (encode (w ++ n.text) ++ rest) = .ok (none, rest) := by
  obtain ⟨b, u, hopen, hb⟩ := Json.Spelled.opens (Json.Part.Spelled.number n)
  have hnumber := skipNumber_spelled n hrest
  have hstart : (b == Mark.minus || isDigit b) = true := by
    rcases hb with rfl | hb
    · rfl
    · rw [hb, Bool.or_true]
  have hne : ∀ c : UInt8, (c == Mark.minus || isDigit c) = false → (b == c) = false := by
    intro c hc
    refine beq_eq_false_iff_ne.2 fun heq => ?_
    rw [heq, hc] at hstart
    cases hstart
  rw [hopen] at hnumber
  rw [encode_append, hopen, List.append_assoc]
  refine (peek_bind hw hb.isBlankByte _ _).trans ?_
  dsimp only
  rw [hne Mark.quote rfl, hne Mark.openObject rfl, hne Mark.openList rfl, if_neg Bool.false_ne_true,
    if_neg Bool.false_ne_true, if_neg Bool.false_ne_true, if_pos hstart]
  exact bind_ok hnumber _

theorem skipStart_string {s : String} {t : List Char} (h : TextSpelled s.toList t) {w : List Char}
    (hw : IsGap w) (rest : Bytes) :
    skipStart (encode (w ++ '"' :: (t ++ ['"'])) ++ rest) = .ok (none, rest) := by
  rw [encode_string]
  refine (peek_bind hw rfl _ _).trans ?_
  exact bind_ok (skipText_spelled h rest) _

/-! ### Brackets -/

theorem afterValue_close (n : Nat) (first : Bool) (b : Bracket) (outer : List Bracket)
    {w : List Char} (hw : IsGap w) (rest : Bytes) :
    afterValue n first (b :: outer) (encode w ++ b.closing :: rest) =
      afterValue n false outer rest := by
  have hblank : isBlankByte b.closing = false := by cases b <;> rfl
  unfold afterValue
  rw [closeBrackets, bind_assoc, peek_bind hw hblank]
  dsimp only
  rw [if_pos (beq_self_eq_true _), bind_assoc, skip_bind]

/-- The byte after a separator is one of the next item or member. -/
theorem afterValue_separator (n : Nat) {first : Bool} (b : Bracket) (outer : List Bracket)
    {w : List Char} (hw : Separator first w) {c : UInt8} (hblank : isBlankByte c = false)
    (hclose : c ≠ b.closing) (rest : Bytes) :
    ∃ w', IsGap w' ∧ afterValue n first (b :: outer) (encode w ++ c :: rest) =
      continueNested n (b :: outer) (encode w' ++ c :: rest) := by
  unfold afterValue
  rw [closeBrackets, bind_assoc]
  cases hw with
  | first hw =>
    refine ⟨[], isGap_nil, ?_⟩
    rw [peek_bind hw hblank]
    dsimp only
    rw [if_neg (by simpa using hclose), if_pos rfl]
    rfl
  | @comma w w' hw hw' =>
    refine ⟨w', hw', ?_⟩
    have hcomma : (Mark.comma == b.closing) = false := by cases b <;> rfl
    rw [encode_append, List.append_assoc]
    change (peek >>= _) (encode w ++ Mark.comma :: (encode w' ++ c :: rest)) = _
    rw [peek_bind hw rfl]
    dsimp only
    rw [hcomma, if_neg Bool.false_ne_true, if_neg Bool.false_ne_true, if_pos (by decide),
      bind_assoc, skip_bind]
    rfl

theorem skipKey_spelled {key : String} {k u : List Char} (hk : TextSpelled key.toList k)
    (hu : IsGap u) {w : List Char} (hw : IsGap w) (rest : Bytes) :
    skipKey (encode w ++ Mark.quote :: (encode k ++ Mark.quote ::
      (encode u ++ Mark.colon :: rest))) = .ok ((), rest) := by
  refine (peek_bind hw rfl _ _).trans ?_
  change (skipText >>= fun _ => colon) _ = _
  rw [bind_ok (skipText_spelled hk _)]
  exact colon_gap hu rest

/-! ## Documents -/

/-- What passing over a part of a document comes to: the brackets around it are
what is left, and no more values were counted than bytes were read. -/
def Passes : Json.Part → List Char → Prop
  | .value x, t => ∀ (n : Nat) (outer : List Bracket) (w : List Char) (rest : Bytes),
    IsGap w → t.length ≤ n → Follows x rest →
      ∃ m, n ≤ m + t.length ∧
        skipNested n outer (encode (w ++ t) ++ rest) = afterValue m false outer rest
  | .items first _, t => ∀ (n : Nat) (outer : List Bracket) (rest : Bytes), t.length ≤ n →
    ∃ m, n ≤ m + t.length ∧
      afterValue n first (.list :: outer) (encode t ++ rest) = afterValue m false outer rest
  | .members first _, t => ∀ (n : Nat) (outer : List Bracket) (rest : Bytes), t.length ≤ n →
    ∃ m, n ≤ m + t.length ∧
      afterValue n first (.object :: outer) (encode t ++ rest) = afterValue m false outer rest

theorem passes_leaf {x : Json} {t : List Char} (hpos : 0 < t.length)
    (h : ∀ (w : List Char) (rest : Bytes), IsGap w → Follows x rest →
      skipStart (encode (w ++ t) ++ rest) = .ok (none, rest)) : Passes (.value x) t := by
  intro n outer w rest hw hn hrest
  obtain ⟨n, rfl⟩ : ∃ k, n = k + 1 := ⟨n - 1, by omega⟩
  refine ⟨n, by omega, ?_⟩
  rw [skipNested_succ, bind_ok (h w rest hw hrest)]

theorem passes_bracket {x : Json} {t : List Char} {c : Char} (b : Bracket)
    (hstart : ∀ (w : List Char) (rest : Bytes), IsGap w →
      skipStart (encode (w ++ c :: t) ++ rest) = .ok (some b, encode t ++ rest))
    (h : ∀ (n : Nat) (outer : List Bracket) (rest : Bytes), t.length ≤ n →
      ∃ m, n ≤ m + t.length ∧
        afterValue n true (b :: outer) (encode t ++ rest) = afterValue m false outer rest) :
    Passes (.value x) (c :: t) := by
  intro n outer w rest hw hn _
  obtain ⟨n, rfl⟩ : ∃ k, n = k + 1 := ⟨n - 1, by rw [List.length_cons] at hn; omega⟩
  rw [List.length_cons] at hn ⊢
  obtain ⟨m, hm, heq⟩ := h n outer rest (by omega)
  refine ⟨m, by omega, ?_⟩
  rw [skipNested_succ, bind_ok (hstart w rest hw)]
  exact heq

theorem passes_item {first : Bool} {x : Json} {xs : List Json} {w t t' : List Char}
    (hw : Separator first w) (hx : x.Spelled t) (hxs : (Json.Part.items false xs).Spelled t')
    (ihx : Passes (.value x) t) (ihxs : Passes (.items false xs) t') :
    Passes (.items first (x :: xs)) (w ++ (t ++ t')) := by
  intro n outer rest hn
  simp only [List.length_append] at hn ⊢
  obtain ⟨b, u, hopen, hb⟩ := hx.opens
  obtain ⟨w', hw', hsep⟩ := afterValue_separator n .list outer hw hb.isBlankByte hb.ne_close
    (u ++ (encode t' ++ rest))
  obtain ⟨m, hm, hvalue⟩ := ihx n (.list :: outer) w' (encode t' ++ rest) hw' (by omega)
    (follows_of_endsNumber (endsNumber_items hxs rest))
  obtain ⟨m', hm', hitems⟩ := ihxs m outer rest (by omega)
  refine ⟨m', by omega, ?_⟩
  calc afterValue n first (.list :: outer) (encode (w ++ (t ++ t')) ++ rest)
      = afterValue n first (.list :: outer) (encode w ++ b :: (u ++ (encode t' ++ rest))) := by
        rw [encode_append, encode_append, hopen]
        simp only [List.append_assoc, List.cons_append]
    _ = skipNested n (.list :: outer) (encode (w' ++ t) ++ (encode t' ++ rest)) := by
        rw [hsep, encode_append, hopen]
        simp only [List.append_assoc, List.cons_append]
        rfl
    _ = afterValue m false (.list :: outer) (encode t' ++ rest) := hvalue
    _ = afterValue m' false outer rest := hitems

theorem passes_member {first : Bool} {key : String} {x : Json} {ms : List (String × Json)}
    {w k u v t t' : List Char} (hw : Separator first w) (hk : TextSpelled key.toList k)
    (hu : IsGap u) (hv : IsGap v) (hms : (Json.Part.members false ms).Spelled t')
    (ihx : Passes (.value x) t) (ihms : Passes (.members false ms) t') :
    Passes (.members first ((key, x) :: ms))
      (w ++ '"' :: (k ++ '"' :: (u ++ ':' :: (v ++ (t ++ t'))))) := by
  intro n outer rest hn
  simp only [List.length_append, List.length_cons] at hn ⊢
  obtain ⟨w', hw', hsep⟩ := afterValue_separator n .object outer hw
    (show isBlankByte Mark.quote = false from rfl) (by decide)
    (encode k ++ Mark.quote :: (encode u ++ Mark.colon ::
      (encode (v ++ t) ++ (encode t' ++ rest))))
  obtain ⟨m, hm, hvalue⟩ := ihx n (.object :: outer) v (encode t' ++ rest) hv (by omega)
    (follows_of_endsNumber (endsNumber_members hms rest))
  obtain ⟨m', hm', hmembers⟩ := ihms m outer rest (by omega)
  refine ⟨m', by omega, ?_⟩
  calc afterValue n first (.object :: outer)
        (encode (w ++ '"' :: (k ++ '"' :: (u ++ ':' :: (v ++ (t ++ t'))))) ++ rest)
      = afterValue n first (.object :: outer) (encode w ++ Mark.quote :: (encode k ++
          Mark.quote :: (encode u ++ Mark.colon ::
            (encode (v ++ t) ++ (encode t' ++ rest))))) := by rw [encode_member]
    _ = skipNested n (.object :: outer) (encode (v ++ t) ++ (encode t' ++ rest)) := by
        rw [hsep]
        exact bind_ok (skipKey_spelled hk hu hw' _) _
    _ = afterValue m false (.object :: outer) (encode t' ++ rest) := hvalue
    _ = afterValue m' false outer rest := hmembers

theorem passes_spelled {part : Json.Part} {t : List Char} (h : part.Spelled t) :
    Passes part t := by
  -- the induction is on the spelling; every part hands on to what is left after it
  induction h with
  | null | isTrue | isFalse =>
    refine passes_leaf (by decide) fun w rest hw _ => ?_
    rw [encode_append, List.append_assoc]
    exact peek_bind hw rfl _ _
  | number n =>
    exact passes_leaf (Json.Spelled.length_pos (.number n)) fun _ _ hw => skipStart_number n hw
  | string h =>
    exact passes_leaf (Nat.succ_pos _) fun _ rest hw _ => skipStart_string h hw rest
  | array _ ih =>
    refine passes_bracket .list (fun w rest hw => ?_) (ih · · ·)
    rw [encode_append, List.append_assoc]
    exact peek_bind hw rfl _ _
  | object _ ih =>
    refine passes_bracket .object (fun w rest hw => ?_) (ih · · ·)
    rw [encode_append, List.append_assoc]
    exact peek_bind hw rfl _ _
  | @endItems first w hw =>
    intro n outer rest _
    refine ⟨n, by omega, ?_⟩
    rw [encode_append, List.append_assoc]
    exact afterValue_close n first .list outer hw rest
  | item hw hx hxs ihx ihxs => exact passes_item hw hx hxs ihx ihxs
  | @endMembers first w hw =>
    intro n outer rest _
    refine ⟨n, by omega, ?_⟩
    rw [encode_append, List.append_assoc]
    exact afterValue_close n first .object outer hw rest
  | member hw hk hu hv _ hms ihx ihms => exact passes_member hw hk hu hv hms ihx ihms

theorem skipValue_spelled {x : Json} {t : List Char} (h : x.Spelled t) {w : List Char}
    (hw : IsGap w) {n : Nat} (hn : t.length ≤ n) {rest : Bytes} (hrest : Follows x rest) :
    skipValue n (encode (w ++ t) ++ rest) = .ok ((), rest) := by
  obtain ⟨m, -, hskip⟩ := passes_spelled h n [] w rest hw hn hrest
  exact hskip

end Reader

end HeaderSchema
