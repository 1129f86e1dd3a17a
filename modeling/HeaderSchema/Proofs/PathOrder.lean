import HeaderSchema.CommandLine.Path
import Mathlib.Order.RelClasses

/-!
# The order of paths

Paths are ordered by their parts, and two spellings with the same parts are one path
(`Path.compare_eq_iff`). A list that only `insert` builds is strictly sorted
(`Path.sorted_insertAll`), holds nothing but what was inserted, and has exactly one
spelling of each path that was inserted (`Path.parts_mem_insertAll_iff`), whatever was
inserted first or more than once.
-/

namespace HeaderSchema.Path

/-! ## Parts -/

instance : Std.OrientedCmp Part.compare where
  eq_swap {p q} := by
    cases p <;> cases q <;> simp only [Part.compare, Ordering.swap]
    exact Std.OrientedOrd.eq_swap

instance : Std.TransCmp Part.compare where
  isLE_trans {p q r} hpq hqr := by
    cases p <;> cases q <;> cases r <;> simp only [Part.compare] at *
    all_goals first | rfl | exact Std.TransOrd.isLE_trans hpq hqr | contradiction

instance : Std.LawfulEqCmp Part.compare where
  compare_self {p} := by
    cases p <;> simp [Part.compare]
  eq_of_compare {p q} h := by
    cases p <;> cases q <;> simp_all [Part.compare]

theorem compareParts_eq : compareParts = List.compareLex Part.compare := by
  funext ps qs
  induction ps generalizing qs with
  | nil => cases qs <;> rfl
  | cons p ps ih =>
    cases qs with
    | nil => rfl
    | cons q qs =>
      rw [compareParts, List.compareLex, ih]
      cases p.compare q <;> rfl

instance : Std.TransCmp compareParts :=
  compareParts_eq ▸ inferInstance

instance : Std.LawfulEqCmp compareParts :=
  compareParts_eq ▸ inferInstance

/-- One list of parts comes before another. -/
def Precedes (ps qs : List Part) : Prop :=
  compareParts ps qs = .lt

instance : Std.Irrefl Precedes where
  irrefl ps h := by simp [Precedes, Std.ReflCmp.compare_self] at h

instance : IsTrans (List Part) Precedes where
  trans _ _ _ := Std.TransCmp.lt_trans

theorem precedes_or_eq (ps qs : List Part) : Precedes ps qs ∨ ps = qs ∨ Precedes qs ps := by
  cases h : compareParts ps qs with
  | lt => exact .inl h
  | eq => exact .inr (.inl (Std.LawfulEqCmp.eq_of_compare h))
  | gt => exact .inr (.inr (Std.OrientedCmp.gt_iff_lt.1 h))

theorem compare_eq_iff {path other : String} :
    compare path other = .eq ↔ parts path = parts other := by
  unfold compare
  exact Std.LawfulEqCmp.compare_eq_iff_eq

/-! ## Lists of paths -/

/-- The paths stand in their order, and none occurs twice. -/
def Sorted (paths : List String) : Prop :=
  (paths.map parts).Pairwise Precedes

theorem sorted_nil : Sorted [] :=
  List.Pairwise.nil

theorem Sorted.nodup {paths : List String} (h : Sorted paths) : (paths.map parts).Nodup :=
  List.Pairwise.imp (fun hlt => ne_of_irrefl hlt) h

theorem mem_of_mem_insert {path p : String} {paths : List String} (h : p ∈ insert path paths) :
    p = path ∨ p ∈ paths := by
  induction paths with
  | nil => exact .inl (List.mem_singleton.1 h)
  | cons other rest ih =>
    rw [insert] at h
    split at h
    · exact List.mem_cons.1 h
    · exact .inr h
    · rcases List.mem_cons.1 h with rfl | h
      · exact .inr List.mem_cons_self
      · exact (ih h).imp_right (List.mem_cons_of_mem other)

/-- All that was there stays, and the parts of the new path are among the others. -/
theorem parts_mem_insert_iff {path : String} {paths : List String} {ps : List Part} :
    ps ∈ (insert path paths).map parts ↔ ps = parts path ∨ ps ∈ paths.map parts := by
  induction paths with
  | nil => simp [insert]
  | cons other rest ih =>
    rw [insert]
    split
    · simp
    · next heq =>
      rw [compare_eq_iff] at heq
      simp [heq]
    · simp only [List.map_cons, List.mem_cons, ih, or_left_comm]

theorem sorted_insert {path : String} {paths : List String} (h : Sorted paths) :
    Sorted (insert path paths) := by
  unfold Sorted at h ⊢
  induction paths with
  | nil => simp [insert]
  | cons other rest ih =>
    obtain ⟨hother, hrest⟩ := List.pairwise_cons.1 h
    rw [insert]
    split
    · next hlt =>
      refine List.pairwise_cons.2 ⟨fun ps hps => ?_, h⟩
      rcases List.mem_cons.1 hps with rfl | hps
      · exact hlt
      · exact trans_of Precedes hlt (hother ps hps)
    · exact h
    · next hgt =>
      refine List.pairwise_cons.2 ⟨fun ps hps => ?_, ih hrest⟩
      rcases parts_mem_insert_iff.1 hps with rfl | hps
      · exact Std.OrientedCmp.gt_iff_lt.1 hgt
      · exact hother ps hps

/-- Adds paths one after the other. -/
def insertAll (new paths : List String) : List String :=
  new.foldl (fun paths path => insert path paths) paths

theorem mem_of_mem_insertAll {new paths : List String} {p : String}
    (h : p ∈ insertAll new paths) : p ∈ new ∨ p ∈ paths := by
  induction new generalizing paths with
  | nil => exact .inr h
  | cons path new ih =>
    rcases ih h with h | h
    · exact .inl (List.mem_cons_of_mem path h)
    · rcases mem_of_mem_insert h with rfl | h
      · exact .inl List.mem_cons_self
      · exact .inr h

theorem parts_mem_insertAll_iff {new paths : List String} {ps : List Part} :
    ps ∈ (insertAll new paths).map parts ↔ ps ∈ new.map parts ∨ ps ∈ paths.map parts := by
  induction new generalizing paths with
  | nil => simp [insertAll]
  | cons path new ih =>
    change ps ∈ (insertAll new (insert path paths)).map parts ↔ _
    rw [ih, parts_mem_insert_iff, List.map_cons, List.mem_cons, or_left_comm, or_assoc]

theorem sorted_insertAll {new paths : List String} (h : Sorted paths) :
    Sorted (insertAll new paths) := by
  induction new generalizing paths with
  | nil => exact h
  | cons path new ih => exact ih (sorted_insert h)

theorem insertAll_append (new more paths : List String) :
    insertAll (new ++ more) paths = insertAll more (insertAll new paths) :=
  List.foldl_append

end HeaderSchema.Path
