import HeaderSchema.Proofs.Judging
import HeaderSchema.Proofs.RoundTrip

/-!
# Tampering shows

The digest of a package stands for its containers. The compact text of a list of
containers can be read back, so different lists have different texts
(`Container.bytes_injective`), and a digest is the same only if all of its words
are (`Sha256.hexDigest_eq_iff`). Two lists therefore share a digest only if
their texts are two messages that SHA-256 does not tell apart
(`bundleHash_eq_iff`). The judge looks at the digest before any container, so
this is all that it says about containers that were changed
(`tampering_shows`).
-/

namespace HeaderSchema

namespace Sha256

/-! ## Digests in digits -/

/-- The value of a hexadecimal digit in lower case. -/
def hexDigitValue (c : Char) : Nat :=
  if c.isDigit then c.toNat - 0x30 else c.toNat - 0x57

/-- The number that hexadecimal digits spell after some others. -/
def hexValueFrom (n : Nat) (cs : List Char) : Nat :=
  cs.foldl (fun n c => n * 16 + hexDigitValue c) n

theorem hexDigitValue_digitChar : ∀ d < 16, hexDigitValue (Nat.digitChar d) = d := by
  decide

theorem hexValueFrom_toDigits (n : Nat) : hexValueFrom 0 (Nat.toDigits 16 n) = n := by
  induction n using Nat.strongRecOn with
  | ind n ih =>
    by_cases h : n < 16
    · rw [Nat.toDigits_of_lt_base h]
      simp [hexValueFrom, hexDigitValue_digitChar n h]
    · have hdigit := hexDigitValue_digitChar (n % 16) (Nat.mod_lt n (by decide))
      have hhigh : hexValueFrom 0 (Nat.toDigits 16 (n / 16)) = n / 16 := ih (n / 16) (by omega)
      rw [Nat.toDigits_of_base_le (by decide) (Nat.not_lt.1 h)]
      unfold hexValueFrom at hhigh ⊢
      rw [List.foldl_append, hhigh]
      simp only [List.foldl_cons, List.foldl_nil, hdigit]
      omega

theorem hexValueFrom_zeros (k : Nat) (cs : List Char) :
    hexValueFrom 0 (List.replicate k '0' ++ cs) = hexValueFrom 0 cs := by
  induction k with
  | zero => rfl
  | succ k ih => exact ih

theorem hexWord_injective {v w : UInt32} (h : hexWord v = hexWord w) : v = w := by
  have hvalue (u : UInt32) : hexValueFrom 0 (hexWord u) = u.toNat := by
    unfold hexWord
    rw [hexValueFrom_zeros, hexValueFrom_toDigits]
  apply UInt32.toNat_inj.1
  rw [← hvalue v, ← hvalue w, h]

theorem length_hexWord (w : UInt32) : (hexWord w).length = 8 := by
  have hlength : (Nat.toDigits 16 w.toNat).length ≤ 8 :=
    (Nat.length_toDigits_le_iff (by decide) (by decide)).2 w.toNat_lt
  simp only [hexWord, List.length_append, List.length_replicate]
  omega

/-- All words have as many digits, so the digits tell the words apart. -/
theorem hexWords_injective {vs ws : List UInt32}
    (h : vs.flatMap hexWord = ws.flatMap hexWord) : vs = ws := by
  induction vs generalizing ws with
  | nil =>
    cases ws with
    | nil => rfl
    | cons w ws =>
      have hlength := congrArg List.length h
      rw [List.flatMap_cons, List.length_append, length_hexWord] at hlength
      simp at hlength
      omega
  | cons v vs ih =>
    cases ws with
    | nil =>
      have hlength := congrArg List.length h
      rw [List.flatMap_cons, List.length_append, length_hexWord] at hlength
      simp at hlength
    | cons w ws =>
      rw [List.flatMap_cons, List.flatMap_cons] at h
      obtain ⟨hword, hwords⟩ := List.append_inj h (by rw [length_hexWord, length_hexWord])
      rw [hexWord_injective hword, ih hwords]

/-- Two messages have the same digits exactly if they have the same digest. -/
theorem hexDigest_eq_iff (a b : Bytes) : hexDigest a = hexDigest b ↔ digest a = digest b := by
  constructor
  · intro h
    have hwords := hexWords_injective (String.ofList_inj.1 h)
    cases hs : digest a
    cases ht : digest b
    rw [hs, ht] at hwords
    simp only [List.cons.injEq] at hwords
    obtain ⟨rfl, rfl, rfl, rfl, rfl, rfl, rfl, rfl, -⟩ := hwords
    rfl
  · intro h
    unfold hexDigest
    rw [h]

/-- Two messages that the digest does not tell apart. -/
def Collision (a b : Bytes) : Prop :=
  a ≠ b ∧ digest a = digest b

end Sha256

/-! ## What the digest is taken over -/

/-- The compact text of containers in bytes. -/
def Container.bytes (cs : List Container) : Bytes :=
  .ofText (Container.listToJson cs).compact

/-- **Different containers have different texts**: the text is read back. -/
theorem Container.bytes_injective {cs cs' : List Container}
    (h : Container.bytes cs = Container.bytes cs') : cs = cs' := by
  have hback (cs : List Container) :
      (Shape.list (.record .container)).parseOnly (Container.bytes cs) = .ok cs :=
    Shape.parseOnly_spelled (Json.spelled_compact _)
      (Json.decode_list (s := .record .container) Container.decode_toJson cs)
  have hsame : Except.ok (ε := Fault) cs = .ok cs' := by
    rw [← hback cs, ← hback cs', h]
  exact Except.ok.inj hsame

theorem bundleHash_eq_iff (cs cs' : List Container) :
    bundleHash cs = bundleHash cs' ↔
      cs = cs' ∨ Sha256.Collision (Container.bytes cs) (Container.bytes cs') := by
  have hdigest : bundleHash cs = bundleHash cs' ↔
      Sha256.digest (Container.bytes cs) = Sha256.digest (Container.bytes cs') :=
    Sha256.hexDigest_eq_iff _ _
  rw [hdigest]
  constructor
  · intro h
    by_cases hbytes : Container.bytes cs = Container.bytes cs'
    · exact .inl (Container.bytes_injective hbytes)
    · exact .inr ⟨hbytes, h⟩
  · rintro (rfl | h)
    · rfl
    · exact h.2

/-! ## Packages -/

/-- What is wrong with containers is never the digest. -/
theorem firstProblem?_ne_hashMismatch (seen : List String) (cs : List Container)
    (stored computed : String) : firstProblem? seen cs ≠ some (.hashMismatch stored computed) := by
  induction cs generalizing seen with
  | nil => simp [firstProblem?]
  | cons c cs ih =>
    rw [firstProblem?]
    split
    · simp
    · split
      · next problem hproblem =>
        intro h
        rw [Option.some.inj h] at hproblem
        cases Container.isEmptyName_of_problem? hproblem
      · apply ih

/-- A package whose version says something has a wrong digest exactly if its
containers have another one. -/
theorem Package.problem?_eq_hashMismatch_iff {q : Package} {stored : String}
    (hversion : isBlank q.version = false) (hstored : q.bundleHash = some stored)
    (s t : String) :
    q.problem? = some (.hashMismatch s t) ↔
      stored ≠ q.computedHash ∧ s = stored ∧ t = q.computedHash := by
  unfold Package.problem? Package.hashProblem?
  rw [hversion, hstored]
  simp only [Bool.false_eq_true, if_false]
  by_cases h : stored = q.computedHash
  · rw [if_pos h]
    exact iff_of_false (firstProblem?_ne_hashMismatch _ _ _ _) fun hne => hne.1 h
  · rw [if_neg h]
    simp only [Option.some.injEq, Problem.hashMismatch.injEq, ne_eq, h, not_false_eq_true,
      true_and]
    exact and_congr eq_comm eq_comm

/-- **Tampering shows.** A package that carries the digest of other containers has
one problem, which names both digests, unless the two texts are a collision;
with the same containers it does not have this problem. Nothing else that the
package says makes a difference. -/
theorem tampering_shows {p q : Package} (hdigest : p.bundleHash = some p.computedHash)
    (hstored : q.bundleHash = p.bundleHash) (hversion : isBlank q.version = false) :
    (q.containers = p.containers →
      ∀ stored computed, q.problem? ≠ some (.hashMismatch stored computed)) ∧
    (q.containers ≠ p.containers →
      (q.problem? = some (.hashMismatch p.computedHash q.computedHash) ↔
        ¬Sha256.Collision (Container.bytes p.containers) (Container.bytes q.containers))) := by
  rw [hdigest] at hstored
  have hhash : p.computedHash = q.computedHash ↔ p.containers = q.containers ∨
      Sha256.Collision (Container.bytes p.containers) (Container.bytes q.containers) :=
    bundleHash_eq_iff p.containers q.containers
  constructor
  · intro hsame stored computed hproblem
    obtain ⟨hne, -, -⟩ := (Package.problem?_eq_hashMismatch_iff hversion hstored ..).1 hproblem
    exact hne (hhash.2 (.inl hsame.symm))
  · intro hother
    rw [Package.problem?_eq_hashMismatch_iff hversion hstored, ne_eq, hhash]
    simp [Ne.symm hother]

/-- A container that was added afterwards. -/
theorem tampering_shows_added :
    let p : Package := ⟨none, "0.1.0", none, none, "now", some (bundleHash []), []⟩
    let q : Package := { p with version := "2", containers := [.ofName "F"] }
    q.problem? = some (.hashMismatch (bundleHash []) q.computedHash) := by
  intro p q
  have hdifferent : ¬Sha256.Collision (Container.bytes []) (Container.bytes [.ofName "F"]) := by
    rintro ⟨-, hsame⟩
    revert hsame
    decide +kernel
  exact ((tampering_shows (p := p) (q := q) rfl rfl (by decide)).2 (by decide)).2 hdifferent

end HeaderSchema
