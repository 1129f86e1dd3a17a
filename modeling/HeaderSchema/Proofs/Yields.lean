import HeaderSchema.Json.Number
import HeaderSchema.Proofs.Spelling
import HeaderSchema.Text.Utf8.Lemmas

/-!
# What readers yield

`Reader.Yields` says how a reader comes out on an input: with a value and what
is then unread, or with a fault if there is no value. Readers are taken apart by
`Yields.bind`, and the punctuation between the values of a document by one lemma
for each of its readers. A value is told by its first byte (`Json.Opens`), which
is never blank and never closes a bracket.
-/

namespace HeaderSchema

namespace Utf8

theorem encode_cons (c : Char) (cs : List Char) :
    encode (c :: cs) = encodeChar c ++ encode cs :=
  List.flatMap_cons

theorem encode_append (cs ds : List Char) : encode (cs ++ ds) = encode cs ++ encode ds :=
  List.flatMap_append

theorem encodeChar_of_lt {c : Char} (h : c.toNat < 0x80) :
    encodeChar c = [UInt8.ofNat c.toNat] :=
  if_pos h

theorem encodeChar_ne_nil (c : Char) : encodeChar c ≠ [] := by
  simp only [encodeChar]
  repeat' split
  all_goals exact List.cons_ne_nil _ _

/-- Every character takes at least one byte. -/
theorem length_le_length_encode (cs : List Char) : cs.length ≤ (encode cs).length := by
  induction cs with
  | nil => exact Nat.le_refl 0
  | cons c cs ih =>
    have hc := List.length_pos_iff.2 (encodeChar_ne_nil c)
    rw [encode_cons, List.length_cons, List.length_append]
    omega

end Utf8

open Utf8 (encode encode_append)

namespace Reader

variable {α β γ : Type}

/-! ## Outcomes -/

/-- The reader has a fault on the input. -/
def Fails (r : Reader α) (input : Bytes) : Prop :=
  ∃ fault, r input = .error fault

/-- The reader answers with the value and leaves the rest unread; where there is
no value, it fails. -/
def Yields (r : Reader α) (input : Bytes) (value? : Option α) (rest : Bytes) : Prop :=
  match value? with
  | some x => r input = .ok (x, rest)
  | none => r.Fails input

theorem bind_ok {r : Reader α} {input rest : Bytes} {x : α} (h : r input = .ok (x, rest))
    (f : α → Reader β) : (r >>= f) input = f x rest := by
  change StateT.bind r f input = _
  unfold StateT.bind
  rw [h]
  rfl

theorem bind_error {r : Reader α} {input : Bytes} {fault : Fault} (h : r input = .error fault)
    (f : α → Reader β) : (r >>= f) input = .error fault := by
  change StateT.bind r f input = _
  unfold StateT.bind
  rw [h]
  rfl

theorem Fails.bind {r : Reader α} {input : Bytes} (h : r.Fails input) (f : α → Reader β) :
    (r >>= f).Fails input := by
  obtain ⟨fault, hfault⟩ := h
  exact ⟨fault, bind_error hfault f⟩

theorem Fails.of_bind_ok {r : Reader α} {f : α → Reader β} {input mid : Bytes} {x : α}
    (hr : r input = .ok (x, mid)) (hf : (f x).Fails mid) : (r >>= f).Fails input := by
  obtain ⟨fault, hfault⟩ := hf
  exact ⟨fault, (bind_ok hr f).trans hfault⟩

/-- What fails after any answer fails. -/
theorem fails_bind {r : Reader α} {f : α → Reader β} (h : ∀ x rest, (f x).Fails rest)
    (input : Bytes) : (r >>= f).Fails input := by
  cases hr : r input with
  | error fault => exact ⟨fault, bind_error hr f⟩
  | ok answer => exact Fails.of_bind_ok hr (h answer.1 answer.2)

theorem fails_failHere (cause : Cause) (back : Nat) (input : Bytes) :
    (failHere cause back : Reader α).Fails input :=
  ⟨_, rfl⟩

theorem fails_failNext (cause : Cause) (input : Bytes) :
    (failNext cause : Reader α).Fails input :=
  ⟨_, rfl⟩

/-- A reader after one that gives a value. -/
theorem Yields.of_bind_ok {r : Reader α} {f : α → Reader β} {input mid rest : Bytes} {x : α}
    {y? : Option β} (hr : r input = .ok (x, mid)) (hf : (f x).Yields mid y? rest) :
    (r >>= f).Yields input y? rest := by
  unfold Yields Fails at hf ⊢
  rw [bind_ok hr]
  exact hf

/-- A reader after a reader yields what both yield, one after the other. -/
theorem Yields.bind {r : Reader α} {f : α → Reader β} {g : α → Option β}
    {input mid rest : Bytes} {x? : Option α} (hr : r.Yields input x? mid)
    (hf : ∀ x, x? = some x → (f x).Yields mid (g x) rest) :
    (r >>= f).Yields input (x?.bind g) rest := by
  cases x? with
  | none => exact Fails.bind hr f
  | some x => exact of_bind_ok hr (hf x rfl)

theorem Yields.map {r : Reader α} {input rest : Bytes} {x? : Option α}
    (hr : r.Yields input x? rest) (f : α → β) :
    (r >>= fun x => pure (f x)).Yields input (x?.map f) rest := by
  rw [Option.map_eq_bind]
  exact hr.bind fun _ _ => rfl

/-! ## First bytes -/

theorem ne_of_isDigit {b c : UInt8} (hb : isDigit b = true) (hc : isDigit c = false) : b ≠ c := by
  rintro rfl
  rw [hb] at hc
  cases hc

theorem isBlankByte_of_isDigit {b : UInt8} (hb : isDigit b = true) : isBlankByte b = false := by
  unfold isBlankByte
  simp [ne_of_isDigit hb (show isDigit 0x20 = false from rfl),
    ne_of_isDigit hb (show isDigit 0x09 = false from rfl),
    ne_of_isDigit hb (show isDigit 0x0A = false from rfl),
    ne_of_isDigit hb (show isDigit 0x0D = false from rfl)]

theorem digit_range {c : Char} (h : c.isDigit = true) : 48 ≤ c.toNat ∧ c.toNat ≤ 57 := by
  simpa [Char.isDigit, UInt32.le_iff_toNat_le] using h

/-- The byte of a decimal digit. -/
theorem isDigit_ofNat {c : Char} (h : c.isDigit = true) :
    Utf8.encodeChar c = [UInt8.ofNat c.toNat] ∧ isDigit (UInt8.ofNat c.toNat) = true ∧
      digitValue (UInt8.ofNat c.toNat) = c.toNat - '0'.toNat := by
  have hrange := digit_range h
  have hnat : (UInt8.ofNat c.toNat).toNat = c.toNat := Utf8.toNat_ofNat_of_lt (by omega)
  refine ⟨Utf8.encodeChar_of_lt (by omega), ?_, ?_⟩
  · unfold isDigit
    rw [Bool.and_eq_true, decide_eq_true_eq, decide_eq_true_eq, UInt8.le_iff_toNat_le,
      UInt8.le_iff_toNat_le, hnat]
    exact hrange
  · unfold digitValue
    rw [hnat]
    rfl

end Reader

open Reader (isDigit isBlankByte)

/-- The bytes that a value of its kind may begin with. -/
def Json.Opens (x : Json) (b : UInt8) : Prop :=
  match x with
  | .null => b = Mark.n
  | .boolean true => b = Mark.t
  | .boolean false => b = Mark.f
  | .number _ => b = Mark.minus ∨ isDigit b = true
  | .string _ => b = Mark.quote
  | .array _ => b = Mark.openList
  | .object _ => b = Mark.openObject

theorem Json.Opens.isBlankByte {x : Json} {b : UInt8} (h : x.Opens b) :
    isBlankByte b = false := by
  rcases x with _ | (_ | _) | _ | _ | _ | _
  case number =>
    rcases h with rfl | h
    · rfl
    · exact Reader.isBlankByte_of_isDigit h
  all_goals
    cases h
    rfl

theorem Json.Opens.ne_close {x : Json} {b : UInt8} (h : x.Opens b) : b ≠ Mark.closeList := by
  rcases x with _ | (_ | _) | _ | _ | _ | _
  case number =>
    rcases h with rfl | h
    · decide
    · exact Reader.ne_of_isDigit h rfl
  all_goals
    cases h
    decide

/-! A byte opens documents of one kind only. -/

theorem Json.Opens.eq_null {x : Json} (h : x.Opens Mark.n) : x = .null := by
  rcases x with _ | (_ | _) | _ | _ | _ | _
  case null => rfl
  all_goals
    simp only [Json.Opens] at h
    exact absurd h (by decide)

theorem Json.Opens.eq_true {x : Json} (h : x.Opens Mark.t) : x = .boolean true := by
  rcases x with _ | (_ | _) | _ | _ | _ | _
  case boolean.true => rfl
  all_goals
    simp only [Json.Opens] at h
    exact absurd h (by decide)

theorem Json.Opens.eq_false {x : Json} (h : x.Opens Mark.f) : x = .boolean false := by
  rcases x with _ | (_ | _) | _ | _ | _ | _
  case boolean.false => rfl
  all_goals
    simp only [Json.Opens] at h
    exact absurd h (by decide)

theorem Json.Opens.eq_number {x : Json} {b : UInt8} (h : x.Opens b)
    (hb : (b == Mark.minus || isDigit b) = true) : ∃ n, x = .number n := by
  rcases x with _ | (_ | _) | n | _ | _ | _
  case number => exact ⟨n, rfl⟩
  all_goals
    cases h
    cases hb

theorem Json.Opens.eq_string {x : Json} (h : x.Opens Mark.quote) : ∃ s, x = .string s := by
  rcases x with _ | (_ | _) | _ | s | _ | _
  case string => exact ⟨s, rfl⟩
  all_goals
    simp only [Json.Opens] at h
    exact absurd h (by decide)

theorem Json.Opens.eq_array {x : Json} (h : x.Opens Mark.openList) : ∃ xs, x = .array xs := by
  rcases x with _ | (_ | _) | _ | _ | xs | _
  case array => exact ⟨xs, rfl⟩
  all_goals
    simp only [Json.Opens] at h
    exact absurd h (by decide)

theorem Json.Opens.eq_object {x : Json} (h : x.Opens Mark.openObject) :
    ∃ ms, x = .object ms := by
  rcases x with _ | (_ | _) | _ | _ | _ | ms
  case object => exact ⟨ms, rfl⟩
  all_goals
    simp only [Json.Opens] at h
    exact absurd h (by decide)

/-- The digits of a number, the first of which is zero only if it is alone. -/
theorem Numeral.digits_whole (n : Nat) :
    ∃ d ds, Nat.toDigits 10 n = d :: ds ∧ (∀ c ∈ d :: ds, c.isDigit = true) ∧
      (d = '0' → ds = []) := by
  induction n using Nat.strongRecOn with
  | ind n ih =>
    by_cases hlt : n < 10
    · refine ⟨Nat.digitChar n, [], Nat.toDigits_of_lt_base hlt, ?_, fun _ => rfl⟩
      rw [← Nat.toDigits_of_lt_base hlt]
      exact fun c hc => Nat.isDigit_of_mem_toDigits (by decide) (by decide) hc
    · obtain ⟨d, ds, hdigits, hall, hzero⟩ := ih (n / 10) (by omega)
      have heq : Nat.toDigits 10 n = d :: (ds ++ [Nat.digitChar (n % 10)]) := by
        rw [Nat.toDigits_of_base_le (by decide) (Nat.not_lt.1 hlt), hdigits, List.cons_append]
      refine ⟨d, _, heq, ?_, fun hd => ?_⟩
      · rw [← heq]
        exact fun c hc => Nat.isDigit_of_mem_toDigits (by decide) (by decide) hc
      · -- a number of several digits has no leading zero
        rw [hd, hzero hd] at hdigits
        have hvalue := Nat.ofDigitChars_ten_toDigits (n := n / 10)
        rw [hdigits] at hvalue
        have hpos : 0 < n / 10 := Nat.div_pos (Nat.not_lt.1 hlt) (by decide)
        exact absurd hvalue.symm (Nat.ne_of_gt hpos)

theorem Json.Spelled.opens {x : Json} {t : List Char} (h : x.Spelled t) :
    ∃ b u, encode t = b :: u ∧ x.Opens b := by
  cases h with
  | null | isTrue | isFalse | string | array | object => exact ⟨_, _, rfl, rfl⟩
  | number n =>
    obtain ⟨d, ds, hdigits, hall, -⟩ := Numeral.digits_whole n.whole
    obtain ⟨hchar, hdigit, -⟩ := Reader.isDigit_ofNat (hall d List.mem_cons_self)
    unfold Numeral.text
    rw [hdigits]
    cases n.negative with
    | true => exact ⟨_, _, rfl, .inl rfl⟩
    | false =>
      simp only [Bool.false_eq_true, if_false, List.nil_append, List.cons_append]
      rw [Utf8.encode_cons, hchar]
      exact ⟨_, _, rfl, .inr hdigit⟩

theorem Json.Spelled.length_pos {x : Json} {t : List Char} (h : x.Spelled t) : 0 < t.length := by
  obtain ⟨b, u, heq, -⟩ := h.opens
  refine List.length_pos_iff.2 fun hnil => ?_
  rw [hnil] at heq
  cases heq

/-! ## The bytes of parts -/

theorem encode_string (w t : List Char) (rest : Bytes) :
    encode (w ++ '"' :: (t ++ ['"'])) ++ rest =
      encode w ++ Mark.quote :: (encode t ++ Mark.quote :: rest) := by
  simp only [encode_append, Utf8.encode_cons, List.append_assoc]
  rfl

theorem encode_member (w k u v t t' : List Char) (rest : Bytes) :
    encode (w ++ '"' :: (k ++ '"' :: (u ++ ':' :: (v ++ (t ++ t'))))) ++ rest =
      encode w ++ Mark.quote :: (encode k ++ Mark.quote :: (encode u ++ Mark.colon ::
        (encode (v ++ t) ++ (encode t' ++ rest)))) := by
  simp only [encode_append, Utf8.encode_cons, List.append_assoc]
  rfl

namespace Reader

/-! ## Blanks and punctuation -/

theorem skipBlanks_gap {w : List Char} (hw : IsGap w) (rest : Bytes) :
    skipBlanks (encode w ++ rest) = skipBlanks rest := by
  refine List.dropWhile_append_of_pos fun b hb => ?_
  obtain ⟨c, hc, hb⟩ := List.mem_flatMap.1 hb
  rcases hw c hc with rfl | rfl | rfl | rfl <;>
    · rw [List.mem_singleton.1 hb]
      rfl

theorem skipBlanks_cons {b : UInt8} (h : isBlankByte b = false) (rest : Bytes) :
    skipBlanks (b :: rest) = b :: rest :=
  List.dropWhile_cons_of_neg (by simp [h])

theorem peek_gap {w : List Char} (hw : IsGap w) {b : UInt8} (hb : isBlankByte b = false)
    (rest : Bytes) : peek (encode w ++ b :: rest) = .ok (some b, b :: rest) := by
  unfold peek
  rw [skipBlanks_gap hw, skipBlanks_cons hb]
  rfl

/-- A reader that first looks for a byte that is not blank. -/
theorem peek_bind {w : List Char} (hw : IsGap w) {b : UInt8} (hb : isBlankByte b = false)
    (rest : Bytes) (f : Option UInt8 → Reader α) :
    (peek >>= f) (encode w ++ b :: rest) = f (some b) (b :: rest) :=
  bind_ok (peek_gap hw hb rest) f

/-- What `nextItem` and `nextMember` look for after a comma. -/
theorem skip_bind (b : UInt8) (rest : Bytes) (f : Unit → Reader α) :
    (skip >>= f) (b :: rest) = f () rest :=
  rfl

theorem nextItem_end {w : List Char} (hw : IsGap w) (first : Bool) (rest : Bytes) :
    nextItem first (encode (w ++ [']']) ++ rest) = .ok (false, Mark.closeList :: rest) := by
  rw [encode_append, List.append_assoc]
  exact peek_bind hw rfl rest _

theorem nextItem_item {first : Bool} {w : List Char} (hw : Separator first w) {b : UInt8}
    (hblank : isBlankByte b = false) (hclose : b ≠ Mark.closeList) (rest : Bytes) :
    nextItem first (encode w ++ b :: rest) = .ok (true, b :: rest) := by
  have hne : (b == Mark.closeList) = false := beq_eq_false_iff_ne.2 hclose
  unfold nextItem
  cases hw with
  | first hw =>
    rw [peek_bind hw hblank]
    simp only [hne, Bool.false_eq_true, if_false, if_true]
    rfl
  | @comma w w' hw hw' =>
    rw [encode_append, List.append_assoc]
    change (peek >>= _) (encode w ++ Mark.comma :: (encode w' ++ b :: rest)) = _
    rw [peek_bind hw rfl]
    dsimp only
    rw [if_neg (by decide), if_neg (by decide), if_pos (by decide), skip_bind,
      peek_bind hw' hblank]
    simp only [hne, Bool.false_eq_true, if_false]
    rfl

theorem nextMember_end {w : List Char} (hw : IsGap w) (first : Bool) (rest : Bytes) :
    nextMember first (encode (w ++ ['\x7d']) ++ rest) = .ok (false, Mark.closeObject :: rest) := by
  rw [encode_append, List.append_assoc]
  exact peek_bind hw rfl rest _

theorem nextMember_member {first : Bool} {w : List Char} (hw : Separator first w)
    (rest : Bytes) :
    nextMember first (encode w ++ Mark.quote :: rest) = .ok (true, Mark.quote :: rest) := by
  unfold nextMember
  cases hw with
  | first hw => exact peek_bind hw rfl rest _
  | @comma w w' hw hw' =>
    rw [encode_append, List.append_assoc]
    change (peek >>= _) (encode w ++ Mark.comma :: (encode w' ++ Mark.quote :: rest)) = _
    rw [peek_bind hw rfl]
    dsimp only
    rw [if_neg (by decide), if_neg (by decide), if_pos (by decide), skip_bind]
    exact peek_bind hw' rfl rest _

theorem colon_gap {u : List Char} (hu : IsGap u) (rest : Bytes) :
    colon (encode u ++ Mark.colon :: rest) = .ok ((), rest) :=
  peek_bind hu rfl rest _

theorem endList_close (rest : Bytes) : endList (Mark.closeList :: rest) = .ok ((), rest) :=
  rfl

theorem endObject_close (rest : Bytes) : endObject (Mark.closeObject :: rest) = .ok ((), rest) :=
  rfl

end Reader

end HeaderSchema
