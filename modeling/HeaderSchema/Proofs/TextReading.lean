import HeaderSchema.Json.Skip
import HeaderSchema.Proofs.Yields

/-!
# Reading spelled texts

A text is read as what it spells, whichever way its characters are spelled
(`text_spelled`), and is passed over as a whole when nobody asks for it
(`skipText_spelled`). Both come down to one character at a time: its bytes take
the reader from plain text to plain text.
-/

namespace HeaderSchema

namespace Utf8

/-- The bytes of a longer character are continuation bytes or above them. -/
theorem encodeChar_of_le {c : Char} (h : 0x80 ≤ c.toNat) :
    ∃ ns : List Nat, encodeChar c = ns.map UInt8.ofNat ∧ ∀ n ∈ ns, 0x80 ≤ n ∧ n < 256 := by
  have hmax := (toNat_range c).1
  simp only [encodeChar, if_neg (Nat.not_lt.2 h)]
  split
  · refine ⟨[_, _], rfl, ?_⟩
    simp only [List.mem_cons, List.not_mem_nil, or_false, forall_eq_or_imp, forall_eq]
    omega
  · split
    · refine ⟨[_, _, _], rfl, ?_⟩
      simp only [List.mem_cons, List.not_mem_nil, or_false, forall_eq_or_imp, forall_eq]
      omega
    · refine ⟨[_, _, _, _], rfl, ?_⟩
      simp only [List.mem_cons, List.not_mem_nil, or_false, forall_eq_or_imp, forall_eq]
      omega

theorem decode_encode (cs : List Char) : decode (encode cs) = (cs, []) := by
  have h := decodeFrom_encode [] cs []
  rw [List.append_nil, List.append_nil] at h
  rw [decode, h, decodeFrom, List.reverse_reverse]

end Utf8

namespace Reader

open Utf8 (encode encodeChar encode_append encode_cons)

/-! ## The bytes of a spelled character -/

/-- A byte that stands for itself inside a text. -/
structure IsPlainByte (b : UInt8) : Prop where
  quote : b ≠ Mark.quote
  backslash : b ≠ Mark.backslash
  control : ¬ b < 0x20

theorem isPlainByte_ofNat {n : Nat} (hn : n < 256) (hcontrol : 0x20 ≤ n) (hquote : n ≠ 0x22)
    (hbackslash : n ≠ 0x5C) : IsPlainByte (UInt8.ofNat n) := by
  have hnat := Utf8.toNat_ofNat_of_lt hn
  refine ⟨fun h => hquote ?_, fun h => hbackslash ?_, Utf8.not_ofNat_lt hn hcontrol⟩
  · rw [← hnat, h]
    rfl
  · rw [← hnat, h]
    rfl

theorem isPlainByte_encodeChar {c : Char} (hcontrol : 0x20 ≤ c.toNat) (hquote : c ≠ '"')
    (hbackslash : c ≠ '\\') : ∀ b ∈ encodeChar c, IsPlainByte b := by
  intro b hb
  by_cases hlt : c.toNat < 0x80
  · rw [Utf8.encodeChar_of_lt hlt, List.mem_singleton] at hb
    rw [hb]
    exact isPlainByte_ofNat (by omega) hcontrol (fun h => hquote (Char.toNat_inj.1 h))
      (fun h => hbackslash (Char.toNat_inj.1 h))
  · obtain ⟨ns, heq, hns⟩ := Utf8.encodeChar_of_le (Nat.not_lt.1 hlt)
    rw [heq] at hb
    obtain ⟨n, hn, rfl⟩ := List.mem_map.1 hb
    obtain ⟨hlow, hhigh⟩ := hns n hn
    exact isPlainByte_ofNat hhigh (by omega) (by omega) (by omega)

theorem encode_pair (t t' : List Char) (rest : Bytes) :
    encode ('\\' :: 'u' :: (t ++ '\\' :: 'u' :: t')) ++ rest =
      Mark.backslash :: unitMark :: (encode t ++
        (Mark.backslash :: unitMark :: (encode t' ++ rest))) := by
  simp only [encode_cons, encode_append, List.append_assoc]
  rfl

theorem escaped_letter {l c : Char} (h : (l, c) ∈ escapeLetters) :
    ∃ b x, encodeChar l = [b] ∧ (b == unitMark) = false ∧ escaped? b = some x ∧
      encodeChar c = [x] := by
  simp only [escapeLetters, List.mem_cons, Prod.mk.injEq, List.not_mem_nil, or_false] at h
  rcases h with ⟨rfl, rfl⟩ | ⟨rfl, rfl⟩ | ⟨rfl, rfl⟩ | ⟨rfl, rfl⟩ | ⟨rfl, rfl⟩ | ⟨rfl, rfl⟩ |
    ⟨rfl, rfl⟩ | ⟨rfl, rfl⟩ <;> exact ⟨_, _, rfl, rfl, rfl, rfl⟩

theorem hexValue_digit {d : Nat} {c : Char} (h : IsHexDigit d c) :
    ∃ b, encodeChar c = [b] ∧ hexValue? b = some d := by
  have hlower : ∀ d < 16, encodeChar (Nat.digitChar d) = [UInt8.ofNat (Nat.digitChar d).toNat] ∧
      hexValue? (UInt8.ofNat (Nat.digitChar d).toNat) = some d := by
    decide
  have hupper : ∀ d < 16,
      encodeChar (Nat.digitChar d).toUpper = [UInt8.ofNat (Nat.digitChar d).toUpper.toNat] ∧
        hexValue? (UInt8.ofNat (Nat.digitChar d).toUpper.toNat) = some d := by
    decide
  obtain ⟨hd, rfl | rfl⟩ := h
  · exact ⟨_, hlower d hd⟩
  · exact ⟨_, hupper d hd⟩

theorem hexNumber_unit {unit : Nat} {t : List Char} (h : HexUnit unit t) :
    ∃ a b c d, encode t = [a, b, c, d] ∧ hexNumber? [d, c, b, a] = some unit := by
  obtain ⟨ha, hb, hc, hd⟩ := h
  obtain ⟨a, ha, hav⟩ := hexValue_digit ha
  obtain ⟨b, hb, hbv⟩ := hexValue_digit hb
  obtain ⟨c, hc, hcv⟩ := hexValue_digit hc
  obtain ⟨d, hd, hdv⟩ := hexValue_digit hd
  refine ⟨a, b, c, d, ?_, ?_⟩
  · simp only [encode, List.flatMap_cons, List.flatMap_nil, ha, hb, hc, hd]
    rfl
  · simp only [hexNumber?, hav, hbv, hcv, hdv, Nat.zero_mul, Nat.zero_add]

/-! ## Reading -/

/-- A byte that does not end the text. -/
theorem textBytes_step {state state' : TextState} {acc acc' : Bytes} {b : UInt8}
    (hstep : textStep state acc b = .ok (state', acc'))
    (hopen : state = .plain → (b == Mark.quote) = false) (rest : Bytes) :
    textBytes state acc (b :: rest) = textBytes state' acc' rest := by
  rw [textBytes.eq_def]
  dsimp only
  split
  · next hquote =>
    rw [hopen rfl] at hquote
    cases hquote
  · rw [hstep]

theorem textBytes_plain {bs : Bytes} (h : ∀ b ∈ bs, IsPlainByte b) (acc rest : Bytes) :
    textBytes .plain acc (bs ++ rest) = textBytes .plain (bs.reverseAux acc) rest := by
  induction bs generalizing acc with
  | nil => rfl
  | cons b bs ih =>
    obtain ⟨hb, hbs⟩ := List.forall_mem_cons.1 h
    have hquote : (b == Mark.quote) = false := beq_eq_false_iff_ne.2 hb.quote
    have hbackslash : (b == Mark.backslash) = false := beq_eq_false_iff_ne.2 hb.backslash
    have hstep : textStep .plain acc b = .ok (.plain, b :: acc) := by
      simp only [textStep, hbackslash, hb.control, Bool.false_eq_true, if_false]
    rw [List.cons_append, textBytes_step hstep (fun _ => hquote), ih hbs]
    rfl

/-- The four digits of a code unit. -/
theorem textBytes_unit {high? : Option Nat} {acc acc' : Bytes} {unit : Nat} {t : List Char}
    {state : TextState} (h : HexUnit unit t) (hend : endUnit high? unit acc = .ok (state, acc'))
    (rest : Bytes) :
    textBytes (.digits high? []) acc (encode t ++ rest) = textBytes state acc' rest := by
  obtain ⟨a, b, c, d, ht, hnumber⟩ := hexNumber_unit h
  have hstep : textStep (.digits high? [c, b, a]) acc d = .ok (state, acc') := by
    simp only [textStep, hnumber, hend, List.length_cons, List.length_nil, if_neg (Nat.lt_irrefl 3)]
  rw [ht]
  change textBytes (.digits high? [c, b, a]) acc (d :: rest) = _
  exact textBytes_step hstep nofun rest

theorem endUnit_char (c : Char) (acc : Bytes) :
    endUnit none c.toNat acc = .ok (.plain, (encodeChar c).reverseAux acc) := by
  have hsurrogate := (Utf8.toNat_range c).2
  have hlow : isLowSurrogate c.toNat = false := by
    simp only [isLowSurrogate, Bool.and_eq_false_iff, decide_eq_false_iff_not]
    omega
  have hhigh : isHighSurrogate c.toNat = false := by
    simp only [isHighSurrogate, Bool.and_eq_false_iff, decide_eq_false_iff_not]
    omega
  simp only [endUnit, hlow, hhigh, Bool.false_eq_true, if_false, Char.ofNat_toNat]

/-- The two halves of a character beyond the first plane. -/
theorem endUnit_pair {c : Char} (hplane : 0x10000 ≤ c.toNat) (acc : Bytes) :
    endUnit none (0xD800 + (c.toNat - 0x10000) / 0x400) acc =
        .ok (.pairBackslash (0xD800 + (c.toNat - 0x10000) / 0x400), acc) ∧
      endUnit (some (0xD800 + (c.toNat - 0x10000) / 0x400))
        (0xDC00 + (c.toNat - 0x10000) % 0x400) acc =
          .ok (.plain, (encodeChar c).reverseAux acc) := by
  have hmax := (Utf8.toNat_range c).1
  generalize hn : c.toNat - 0x10000 = n
  have hnotLow : isLowSurrogate (0xD800 + n / 0x400) = false := by
    simp only [isLowSurrogate, Bool.and_eq_false_iff, decide_eq_false_iff_not]
    omega
  have hhigh : isHighSurrogate (0xD800 + n / 0x400) = true := by
    simp only [isHighSurrogate, Bool.and_eq_true, decide_eq_true_eq]
    omega
  have hlow : isLowSurrogate (0xDC00 + n % 0x400) = true := by
    simp only [isLowSurrogate, Bool.and_eq_true, decide_eq_true_eq]
    omega
  have hpair : pairChar (0xD800 + n / 0x400) (0xDC00 + n % 0x400) = c := by
    have hnat : 0x10000 + (0xD800 + n / 0x400 - 0xD800) * 0x400 + (0xDC00 + n % 0x400 - 0xDC00) =
        c.toNat := by omega
    rw [pairChar, hnat, Char.ofNat_toNat]
  refine ⟨?_, ?_⟩
  · simp only [endUnit, hnotLow, hhigh, Bool.false_eq_true, if_false, if_true]
  · simp only [endUnit, hlow, hpair, if_true]

theorem textBytes_char {c : Char} {s : List Char} (h : CharSpelled c s) (acc rest : Bytes) :
    textBytes .plain acc (encode s ++ rest) =
      textBytes .plain ((encodeChar c).reverseAux acc) rest := by
  cases h with
  | plain hcontrol hquote hbackslash =>
    rw [encode_cons, List.append_assoc]
    exact textBytes_plain (isPlainByte_encodeChar hcontrol hquote hbackslash) acc rest
  | letter hmem =>
    obtain ⟨b, x, hl, hunit, hescaped, hc⟩ := escaped_letter hmem
    have hstep : textStep .escape acc b = .ok (.plain, x :: acc) := by
      simp only [textStep, hunit, hescaped, Bool.false_eq_true, if_false]
    rw [encode_cons, encode_cons, hl, hc]
    change textBytes .escape acc (b :: rest) = _
    exact textBytes_step hstep nofun rest
  | unit hunit => exact textBytes_unit hunit (endUnit_char c acc) rest
  | @pair t t' hplane hhigh hlow =>
    rw [encode_pair]
    exact (textBytes_unit hhigh (endUnit_pair hplane acc).1 _).trans
      (textBytes_unit hlow (endUnit_pair hplane acc).2 rest)

theorem textBytes_text {cs t : List Char} (h : TextSpelled cs t) (acc rest : Bytes) :
    textBytes .plain acc (encode t ++ Mark.quote :: rest) =
      .ok (acc.reverse ++ encode cs, rest) := by
  induction h generalizing acc with
  | nil =>
    rw [show encode [] = [] from rfl, List.append_nil]
    rfl
  | @cons c cs s t hc _ ih =>
    rw [encode_append, List.append_assoc, textBytes_char hc, ih, encode_cons,
      List.reverseAux_eq, List.reverse_append, List.reverse_reverse, List.append_assoc]

theorem text_spelled {s : String} {t : List Char} (h : TextSpelled s.toList t) (rest : Bytes) :
    text (Mark.quote :: (encode t ++ Mark.quote :: rest)) = .ok (s, rest) := by
  unfold text
  rw [List.drop_succ_cons, List.drop_zero, textBytes_text h]
  simp only [List.reverse_nil, List.nil_append, Utf8.decode_encode, String.ofList_toList]

/-! ## Passing over -/

theorem skipTextBytes_plain {bs : Bytes} (h : ∀ b ∈ bs, IsPlainByte b) (rest : Bytes) :
    skipTextBytes .plain (bs ++ rest) = skipTextBytes .plain rest := by
  induction bs with
  | nil => rfl
  | cons b bs ih =>
    obtain ⟨hb, hbs⟩ := List.forall_mem_cons.1 h
    have hquote : (b == Mark.quote) = false := beq_eq_false_iff_ne.2 hb.quote
    have hbackslash : (b == Mark.backslash) = false := beq_eq_false_iff_ne.2 hb.backslash
    rw [List.cons_append, skipTextBytes]
    simp only [hquote, hbackslash, hb.control, Bool.false_eq_true, if_false]
    exact ih hbs

theorem skipTextBytes_unit {unit : Nat} {t : List Char} (h : HexUnit unit t) (rest : Bytes) :
    skipTextBytes (.digits []) (encode t ++ rest) = skipTextBytes .plain rest := by
  obtain ⟨a, b, c, d, ht, hnumber⟩ := hexNumber_unit h
  rw [ht]
  change skipTextBytes (.digits [c, b, a]) (d :: rest) = _
  rw [skipTextBytes]
  simp [hnumber]

theorem skipTextBytes_char {c : Char} {s : List Char} (h : CharSpelled c s) (rest : Bytes) :
    skipTextBytes .plain (encode s ++ rest) = skipTextBytes .plain rest := by
  cases h with
  | plain hcontrol hquote hbackslash =>
    rw [encode_cons, List.append_assoc]
    exact skipTextBytes_plain (isPlainByte_encodeChar hcontrol hquote hbackslash) rest
  | letter hmem =>
    obtain ⟨b, x, hl, hunit, hescaped, -⟩ := escaped_letter hmem
    rw [encode_cons, encode_cons, hl]
    change skipTextBytes .escape (b :: rest) = _
    rw [skipTextBytes]
    simp only [hunit, hescaped, Option.isSome_some, Bool.false_eq_true, if_false, if_true]
  | unit hunit => exact skipTextBytes_unit hunit rest
  | @pair t t' _ hhigh hlow =>
    rw [encode_pair]
    exact (skipTextBytes_unit hhigh _).trans (skipTextBytes_unit hlow rest)

theorem skipTextBytes_text {cs t : List Char} (h : TextSpelled cs t) (rest : Bytes) :
    skipTextBytes .plain (encode t ++ Mark.quote :: rest) = .ok rest := by
  induction h with
  | nil => rfl
  | cons hc _ ih => rw [encode_append, List.append_assoc, skipTextBytes_char hc, ih]

theorem skipText_spelled {s : String} {t : List Char} (h : TextSpelled s.toList t)
    (rest : Bytes) :
    skipText (Mark.quote :: (encode t ++ Mark.quote :: rest)) = .ok ((), rest) := by
  unfold skipText
  rw [List.drop_succ_cons, List.drop_zero, skipTextBytes_text h]

end Reader

end HeaderSchema
