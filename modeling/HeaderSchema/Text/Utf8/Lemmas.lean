import HeaderSchema.Text.Utf8

/-!
# UTF-8: what is written reads back

Each of the four lengths is told from its first byte, so a reader that tries
one byte, then two, three and four finds the length that was written
(`decodeFrom_encodeChar`). Hence any written text is well formed and reads back
as itself, whatever follows it (`decodeFrom_encode`, `decode?_encode`).
-/

namespace HeaderSchema.Utf8

/-! ## Bytes made from numbers -/

theorem toNat_ofNat_of_lt {n : Nat} (h : n < 256) : (UInt8.ofNat n).toNat = n := by
  rw [UInt8.toNat_ofNat']
  exact Nat.mod_eq_of_lt h

theorem ofNat_lt {n : Nat} {b : UInt8} (h : n < 256) (hb : n < b.toNat) : UInt8.ofNat n < b := by
  rw [UInt8.lt_iff_toNat_lt, toNat_ofNat_of_lt h]
  exact hb

theorem le_ofNat {n : Nat} {b : UInt8} (h : n < 256) (hb : b.toNat ≤ n) : b ≤ UInt8.ofNat n := by
  rw [UInt8.le_iff_toNat_le, toNat_ofNat_of_lt h]
  exact hb

theorem not_ofNat_lt {n : Nat} {b : UInt8} (h : n < 256) (hb : b.toNat ≤ n) :
    ¬ UInt8.ofNat n < b := by
  rw [UInt8.lt_iff_toNat_lt, toNat_ofNat_of_lt h]
  exact Nat.not_lt.2 hb

/-- A continuation byte carries the six bits that it was made from. -/
theorem tail_ofNat (n : Nat) :
    isTail (UInt8.ofNat (0x80 + n % 0x40)) = true ∧
      tailBits (UInt8.ofNat (0x80 + n % 0x40)) = n % 0x40 := by
  have h : n % 0x40 < 0x40 := Nat.mod_lt n (by decide)
  generalize n % 0x40 = k at h
  have hk : 0x80 + k < 256 := by omega
  refine ⟨?_, ?_⟩
  · rw [isTail, Bool.and_eq_true]
    exact ⟨decide_eq_true (le_ofNat hk (Nat.le_add_right 0x80 k)),
      decide_eq_true (ofNat_lt hk (show 0x80 + k < 0xC0 by omega))⟩
  · have e : tailBits (UInt8.ofNat (0x80 + k)) = 0x80 + k - 0x80 :=
      congrArg (· - 0x80) (toNat_ofNat_of_lt hk)
    rw [e]
    omega

/-! ## First bytes of longer characters -/

theorem one?_eq_none {n : Nat} (h : 0x80 ≤ n) (hn : n < 256) : one? (UInt8.ofNat n) = none := by
  have hlt : ¬ UInt8.ofNat n < 0x80 := not_ofNat_lt hn h
  exact if_neg hlt

theorem two?_eq_none {n : Nat} (h : 0xE0 ≤ n) (hn : n < 256) (b : UInt8) :
    two? (UInt8.ofNat n) b = none := by
  have hlt : ¬ UInt8.ofNat n < 0xE0 := not_ofNat_lt hn h
  simp [two?, hlt]

theorem three?_eq_none {n : Nat} (h : 0xF0 ≤ n) (hn : n < 256) (b c : UInt8) :
    three? (UInt8.ofNat n) b c = none := by
  have hlt : ¬ UInt8.ofNat n < 0xF0 := not_ofNat_lt hn h
  simp [three?, hlt]

/-! ## Characters of each length -/

/-- A character's code point is below U+110000 and none of a surrogate. -/
theorem toNat_range (c : Char) :
    c.toNat < 0x110000 ∧ ¬(0xD800 ≤ c.toNat ∧ c.toNat < 0xE000) := by
  have h : c.toNat < 0xD800 ∨ (0xDFFF < c.toNat ∧ c.toNat < 0x110000) := c.valid
  omega

theorem one?_ofNat {c : Char} (h : c.toNat < 0x80) : one? (UInt8.ofNat c.toNat) = some c := by
  have hn : c.toNat < 256 := by omega
  have hlt : UInt8.ofNat c.toNat < 0x80 := ofNat_lt hn h
  rw [one?, if_pos hlt, toNat_ofNat_of_lt hn, Char.ofNat_toNat]

theorem two?_ofNat {c : Char} (h₁ : 0x80 ≤ c.toNat) (h₂ : c.toNat < 0x800) :
    two? (UInt8.ofNat (0xC0 + c.toNat / 0x40)) (UInt8.ofNat (0x80 + c.toNat % 0x40)) =
      some c := by
  have ha : 0xC0 + c.toNat / 0x40 < 256 := by omega
  have hlo : 0xC2 ≤ UInt8.ofNat (0xC0 + c.toNat / 0x40) :=
    le_ofNat ha (show 0xC2 ≤ 0xC0 + c.toNat / 0x40 by omega)
  have hhi : UInt8.ofNat (0xC0 + c.toNat / 0x40) < 0xE0 :=
    ofNat_lt ha (show 0xC0 + c.toNat / 0x40 < 0xE0 by omega)
  have hv : (0xC0 + c.toNat / 0x40 - 0xC0) * 0x40 + c.toNat % 0x40 = c.toNat := by omega
  simp only [two?, hlo, hhi, (tail_ofNat c.toNat).1, (tail_ofNat c.toNat).2,
    toNat_ofNat_of_lt ha, hv, decide_true, Bool.and_self, if_true, Char.ofNat_toNat]

theorem three?_ofNat {c : Char} (h₁ : 0x800 ≤ c.toNat) (h₂ : c.toNat < 0x10000) :
    three? (UInt8.ofNat (0xE0 + c.toNat / 0x1000)) (UInt8.ofNat (0x80 + c.toNat / 0x40 % 0x40))
      (UInt8.ofNat (0x80 + c.toNat % 0x40)) = some c := by
  have hs := (toNat_range c).2
  have ha : 0xE0 + c.toNat / 0x1000 < 256 := by omega
  have hlo : 0xE0 ≤ UInt8.ofNat (0xE0 + c.toNat / 0x1000) :=
    le_ofNat ha (Nat.le_add_right 0xE0 _)
  have hhi : UInt8.ofNat (0xE0 + c.toNat / 0x1000) < 0xF0 :=
    ofNat_lt ha (show 0xE0 + c.toNat / 0x1000 < 0xF0 by omega)
  have hv : ((0xE0 + c.toNat / 0x1000 - 0xE0) * 0x40 + c.toNat / 0x40 % 0x40) * 0x40 +
      c.toNat % 0x40 = c.toNat := by omega
  have hok : (decide (0x800 ≤ c.toNat) &&
      !(decide (0xD800 ≤ c.toNat) && decide (c.toNat < 0xE000))) = true := by
    simp only [Bool.and_eq_true, decide_eq_true_eq, Bool.not_eq_true', Bool.and_eq_false_iff,
      decide_eq_false_iff_not]
    omega
  simp only [three?, hlo, hhi, (tail_ofNat (c.toNat / 0x40)).1, (tail_ofNat c.toNat).1,
    (tail_ofNat (c.toNat / 0x40)).2, (tail_ofNat c.toNat).2, toNat_ofNat_of_lt ha, hv, hok,
    decide_true, Bool.and_self, if_true, Char.ofNat_toNat]

theorem four?_ofNat {c : Char} (h : 0x10000 ≤ c.toNat) :
    four? (UInt8.ofNat (0xF0 + c.toNat / 0x40000))
      (UInt8.ofNat (0x80 + c.toNat / 0x1000 % 0x40)) (UInt8.ofNat (0x80 + c.toNat / 0x40 % 0x40))
      (UInt8.ofNat (0x80 + c.toNat % 0x40)) = some c := by
  have hmax := (toNat_range c).1
  have ha : 0xF0 + c.toNat / 0x40000 < 256 := by omega
  have hlo : 0xF0 ≤ UInt8.ofNat (0xF0 + c.toNat / 0x40000) :=
    le_ofNat ha (Nat.le_add_right 0xF0 _)
  have hhi : UInt8.ofNat (0xF0 + c.toNat / 0x40000) < 0xF8 :=
    ofNat_lt ha (show 0xF0 + c.toNat / 0x40000 < 0xF8 by omega)
  have hv : (((0xF0 + c.toNat / 0x40000 - 0xF0) * 0x40 + c.toNat / 0x1000 % 0x40) * 0x40 +
      c.toNat / 0x40 % 0x40) * 0x40 + c.toNat % 0x40 = c.toNat := by omega
  simp only [four?, hlo, hhi, (tail_ofNat (c.toNat / 0x1000)).1, (tail_ofNat (c.toNat / 0x40)).1,
    (tail_ofNat c.toNat).1, (tail_ofNat (c.toNat / 0x1000)).2, (tail_ofNat (c.toNat / 0x40)).2,
    (tail_ofNat c.toNat).2, toNat_ofNat_of_lt ha, hv, h, hmax, decide_true, Bool.and_self, if_true,
    Char.ofNat_toNat]

/-! ## Reading what was written -/

/-- A written character is read back, whatever follows it. -/
theorem decodeFrom_encodeChar (read : List Char) (c : Char) (rest : Bytes) :
    decodeFrom read (encodeChar c ++ rest) = decodeFrom (c :: read) rest := by
  have hmax := (toNat_range c).1
  simp only [encodeChar]
  split
  · rename_i h
    rw [List.cons_append, List.nil_append, decodeFrom.eq_def]
    simp only [one?_ofNat h]
  · split
    · rename_i h₁ h₂
      have hone := one?_eq_none (n := 0xC0 + c.toNat / 0x40) (by omega) (by omega)
      simp only [List.cons_append, List.nil_append]
      rw [decodeFrom.eq_def]
      simp only [hone, two?_ofNat (Nat.not_lt.1 h₁) h₂]
    · split
      · rename_i h₁ h₂ h₃
        have hone := one?_eq_none (n := 0xE0 + c.toNat / 0x1000) (by omega) (by omega)
        have htwo := two?_eq_none (n := 0xE0 + c.toNat / 0x1000) (by omega) (by omega)
        simp only [List.cons_append, List.nil_append]
        rw [decodeFrom.eq_def]
        simp only [hone, htwo, three?_ofNat (Nat.not_lt.1 h₂) h₃]
      · rename_i h₁ h₂ h₃
        have hone := one?_eq_none (n := 0xF0 + c.toNat / 0x40000) (by omega) (by omega)
        have htwo := two?_eq_none (n := 0xF0 + c.toNat / 0x40000) (by omega) (by omega)
        have hthree := three?_eq_none (n := 0xF0 + c.toNat / 0x40000) (by omega) (by omega)
        simp only [List.cons_append, List.nil_append]
        rw [decodeFrom.eq_def]
        simp only [hone, htwo, hthree, four?_ofNat (Nat.not_lt.1 h₃)]

/-- A written text is read back, whatever follows it. -/
theorem decodeFrom_encode (read cs : List Char) (rest : Bytes) :
    decodeFrom read (encode cs ++ rest) = decodeFrom (cs.reverse ++ read) rest := by
  induction cs generalizing read with
  | nil => rfl
  | cons c cs ih =>
    rw [encode, List.flatMap_cons, List.append_assoc, decodeFrom_encodeChar]
    simpa [encode] using ih (c :: read)

/-- A written text is well formed and reads back as itself. -/
theorem decode?_encode (cs : List Char) : decode? (encode cs) = some cs := by
  have h := decodeFrom_encode [] cs []
  simp only [List.append_nil] at h
  simp [decode?, decode, h, decodeFrom]

end HeaderSchema.Utf8

namespace HeaderSchema

theorem Utf8.isSome_decode?_ofText (text : String) :
    (Utf8.decode? (.ofText text)).isSome = true := by
  rw [Bytes.ofText, Utf8.decode?_encode]
  rfl

end HeaderSchema
