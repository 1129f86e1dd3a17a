import HeaderSchema.Extraction.Basic
import HeaderSchema.Proofs.Registry
import Mathlib.Data.List.Nodup

/-!
# Laws of the counters

A tally is determined by its look-ups, since its entries are sorted. So counting
is a matter of how often each name was counted, and not of when: counts, and
with them all counters, come out the same in any order (`Counters.add_right_comm`).
-/

namespace HeaderSchema

namespace Tally

theorem nodup_of_sorted {entries : List (String × Nat)} (h : Sorted entries) :
    (entries.map (·.1)).Nodup := by
  refine List.pairwise_map.2 (h.imp fun {a b} hlt heq => ?_)
  rw [heq] at hlt
  exact String.lt_irrefl b.1 hlt

theorem lookup_alterEntries (name other : String) (f : Nat → Nat)
    {entries : List (String × Nat)} (h : Sorted entries) :
    (alterEntries name f entries).lookup other =
      if other = name then some (f ((entries.lookup name).getD 0))
      else entries.lookup other := by
  induction entries with
  | nil => by_cases ho : other = name <;> simp [alterEntries, ho]
  | cons d rest ih =>
    obtain ⟨key, n⟩ := d
    obtain ⟨hkey, hrest⟩ := List.pairwise_cons.1 h
    simp only [alterEntries]
    split
    · next hlt =>
      -- a name before all keys is new
      have hnew : ((key, n) :: rest).lookup name = none := by
        refine List.lookup_eq_none_iff.2 fun e he => bne_iff_ne.2 fun heq => ?_
        rcases List.mem_cons.1 he with rfl | he
        · exact String.lt_irrefl _ (heq ▸ hlt)
        · exact String.lt_irrefl _ (heq ▸ String.lt_trans hlt (hkey e he))
      rw [hnew]
      by_cases ho : other = name
      · simp [ho]
      · rw [if_neg ho, List.lookup_cons, beq_eq_false_iff_ne.2 ho]
    · next hge =>
      split
      · next hlt =>
        have hne : name ≠ key := fun heq => String.lt_irrefl _ (heq ▸ hlt)
        rw [List.lookup_cons, ih hrest, List.lookup_cons, List.lookup_cons,
          beq_eq_false_iff_ne.2 hne]
        by_cases hk : other = key
        · have ho : other ≠ name := fun heq => hne (heq.symm.trans hk)
          rw [beq_iff_eq.2 hk, if_neg ho, if_neg ho]
        · rw [beq_eq_false_iff_ne.2 hk]
      · next hle =>
        have heq : name = key :=
          String.le_antisymm (String.not_lt.1 hle) (String.not_lt.1 hge)
        subst heq
        by_cases ho : other = name
        · simp [ho]
        · rw [if_neg ho, List.lookup_cons, List.lookup_cons, beq_eq_false_iff_ne.2 ho]

/-- Tallies with the same look-ups are equal. -/
theorem ext_lookup {a b : Tally}
    (h : ∀ name, a.entries.lookup name = b.entries.lookup name) : a = b := by
  apply ext
  have ha := nodup_of_sorted a.sorted
  have hb := nodup_of_sorted b.sorted
  have hperm : a.entries.Perm b.entries := by
    refine (List.perm_ext_iff_of_nodup (ha.of_map _) (hb.of_map _)).2 ?_
    rintro ⟨name, n⟩
    rw [← lookup_eq_some_iff_mem ha, ← lookup_eq_some_iff_mem hb, h]
  refine List.Perm.eq_of_pairwise (fun d e _ _ hde hed => ?_) a.sorted b.sorted hperm
  exact absurd (String.lt_trans hde hed) (String.lt_irrefl _)

theorem lookup_count (t : Tally) (name other : String) :
    (t.count name).entries.lookup other =
      if other = name then some (t.get name + 1) else t.entries.lookup other :=
  lookup_alterEntries name other (· + 1) t.sorted

theorem get_count (t : Tally) (name other : String) :
    (t.count name).get other = t.get other + if other = name then 1 else 0 := by
  unfold get
  rw [lookup_count]
  by_cases h : other = name
  · subst h
    rw [if_pos rfl, if_pos rfl]
    rfl
  · rw [if_neg h, if_neg h, Nat.add_zero]

theorem count_right_comm (t : Tally) (a b : String) :
    (t.count a).count b = (t.count b).count a := by
  refine ext_lookup fun name => ?_
  simp only [lookup_count, get_count]
  by_cases ha : name = a <;> by_cases hb : name = b
  · subst ha
    subst hb
    rfl
  · subst ha
    simp [hb]
  · subst hb
    simp [ha]
  · simp [ha, hb]

theorem lookup_set (t : Tally) (name other : String) (n : Nat) :
    (t.set name n).entries.lookup other =
      if other = name then some n else t.entries.lookup other :=
  lookup_alterEntries name other (fun _ => n) t.sorted

/-- Counts that are set under different names do not depend on their order. -/
theorem set_comm (t : Tally) {a b : String} (h : a ≠ b) (m n : Nat) :
    (t.set a m).set b n = (t.set b n).set a m := by
  refine ext_lookup fun name => ?_
  simp only [lookup_set]
  by_cases ha : name = a
  · subst ha
    simp [h]
  · simp [ha]

end Tally

namespace Counters

/-- The counters after one more contribution. -/
def add (c : Counters) : Contribution → Counters
  | .container origin _ members => (c.countMembers members).countOrigin origin
  | .unmodeled tag => { c with unmodeled := c.unmodeled.count tag }
  | .ignored tag => { c with ignored := c.ignored.count tag }

theorem add_right_comm (c : Counters) (x y : Contribution) :
    (c.add x).add y = (c.add y).add x := by
  rcases x with ⟨_ | _ | _, _, _⟩ | _ | _ <;> rcases y with ⟨_ | _ | _, _, _⟩ | _ | _ <;>
    simp [add, countMembers, countOrigin, Nat.add_right_comm, Tally.count_right_comm]

end Counters

theorem Extraction.counters_absorb (e : Extraction) (contribution : Contribution) :
    (e.absorb contribution).counters = e.counters.add contribution := by
  cases contribution <;> rfl

end HeaderSchema
