import HeaderSchema.Proofs.Decoding
import HeaderSchema.Proofs.Spelling

/-!
# The order of members

What a document holds does not depend on the order of members, at any depth
(`decode_reordered`): a field is looked up among all members, and a repeated one
is refused in whichever order it comes. Tallies are the exception. There the last
of two counts under one name stands, so the statement is about shapes without a
tally.
-/

namespace HeaderSchema

def Slot.shape : Slot → Shape
  | .plain s => s
  | .nullable s => s

/-- Some part of a value of the shape is a tally. -/
def Shape.hasTally : Shape → Bool
  | .tally => true
  | .list item => item.hasTally
  | .record .counters | .record .report => true
  | _ => false

theorem hasTally_field {r : Record} (h : (Shape.record r).hasTally = false) :
    ∀ field ∈ r.fields, field.slot.shape.hasTally = false := by
  cases r <;> first | decide | cases h

/-- The documents hold the same as values of shapes without a tally. -/
structure Reading.Alike (x y : Reading) : Prop where
  isNull : x.isNull = y.isNull
  value : ∀ s : Shape, s.hasTally = false → x.value s = y.value s

theorem Reading.Alike.slot {x y : Reading} (h : x.Alike y) {slot : Slot}
    (hslot : slot.shape.hasTally = false) : x.slot slot = y.slot slot := by
  cases slot with
  | plain s => exact h.value s hslot
  | nullable s => rw [Reading.slot, Reading.slot, h.isNull, h.value s hslot]

/-! ## Fields -/

/-- The value of the field depends on the members under its key. -/
theorem Field.member?_congr {field : Field} {ms ms' : List (String × Reading)}
    (h : ms.filter (·.1 = field.key) = ms'.filter (·.1 = field.key)) :
    field.member? ms = field.member? ms' := by
  rw [member?, member?, h]

theorem Field.sole?_of_length {field : Field} {ms : List (String × Reading)}
    (h : 2 ≤ ms.length) : field.sole? ms = none := by
  match ms with
  | [] | [_] => simp at h
  | _ :: _ :: _ => rfl

theorem Field.member?_perm (field : Field) {ms ms' : List (String × Reading)} (h : ms.Perm ms') :
    field.member? ms = field.member? ms' := by
  have hfilter := h.filter (·.1 = field.key)
  rw [member?, member?]
  generalize ms.filter (·.1 = field.key) = found at hfilter ⊢
  rcases found with _ | ⟨m, _ | ⟨m', found⟩⟩
  · rw [hfilter.nil_eq]
  · rw [List.perm_singleton.1 hfilter.symm]
  · -- the field is repeated in both orders
    have hlength := hfilter.length_eq
    rw [sole?_of_length (by simp), sole?_of_length (by rw [← hlength]; simp)]

/-- A member may be added if its key is another one, or if the field is not there
and holds the same without it. -/
theorem Field.member?_insert {field : Field} (ms : List (String × Reading)) (key : String)
    {x : Reading} {ms' : List (String × Reading)}
    (h : key = field.key →
      x.slot field.slot = field.absentMember ∧ ∀ m ∈ ms ++ ms', m.1 ≠ field.key) :
    field.member? (ms ++ (key, x) :: ms') = field.member? (ms ++ ms') := by
  by_cases hkey : key = field.key
  · obtain ⟨hslot, hnone⟩ := h hkey
    have hbefore : ms.filter (·.1 = field.key) = [] := by
      apply List.filter_eq_nil_iff.2
      intro m hm
      simpa using hnone m (List.mem_append_left _ hm)
    have hafter : ms'.filter (·.1 = field.key) = [] := by
      apply List.filter_eq_nil_iff.2
      intro m hm
      simpa using hnone m (List.mem_append_right _ hm)
    rw [member?, member?, List.filter_append, List.filter_append,
      List.filter_cons_of_pos (by simpa using hkey), hbefore, hafter]
    exact hslot
  · exact member?_congr (by simp [hkey])

/-- A member may be replaced by one under its key if the field takes both for the
same. -/
theorem Field.member?_replace {field : Field} (ms : List (String × Reading)) (key : String)
    {x y : Reading} (h : key = field.key → x.slot field.slot = y.slot field.slot)
    (ms' : List (String × Reading)) :
    field.member? (ms ++ (key, x) :: ms') = field.member? (ms ++ (key, y) :: ms') := by
  by_cases hkey : key = field.key
  · rw [member?, member?, List.filter_append, List.filter_append,
      List.filter_cons_of_pos (by simpa using hkey), List.filter_cons_of_pos (by simpa using hkey)]
    generalize ms.filter (·.1 = field.key) = before
    generalize ms'.filter (·.1 = field.key) = after
    cases before with
    | cons a before =>
      rw [sole?_of_length (by simp; omega), sole?_of_length (by simp; omega)]
    | nil =>
      cases after with
      | nil => exact h hkey
      | cons b after => rfl
  · exact member?_congr (by simp [hkey])

theorem Field.member?_alike {field : Field} (hfield : field.slot.shape.hasTally = false)
    (ms : List (String × Reading)) (key : String) {x y : Reading} (h : x.Alike y)
    (ms' : List (String × Reading)) :
    field.member? (ms ++ (key, x) :: ms') = field.member? (ms ++ (key, y) :: ms') :=
  field.member?_replace ms key (fun _ => h.slot hfield) ms'

theorem Values.ofMembers_congr {fields : List Field} {ms ms' : List (String × Reading)}
    (h : ∀ field ∈ fields, field.member? ms = field.member? ms') :
    Values.ofMembers ms fields = Values.ofMembers ms' fields := by
  induction fields with
  | nil => rfl
  | cons field fields ih =>
    obtain ⟨hfield, hfields⟩ := List.forall_mem_cons.1 h
    rw [ofMembers, ofMembers, hfield, ih hfields]

theorem Values.ofItems_alike {fields : List Field}
    (hfields : ∀ field ∈ fields, field.slot.shape.hasTally = false) (xs : List Reading)
    {x y : Reading} (h : x.Alike y) (xs' : List Reading) :
    Values.ofItems fields (xs ++ x :: xs') = Values.ofItems fields (xs ++ y :: xs') := by
  induction fields generalizing xs with
  | nil => cases xs <;> rfl
  | cons field fields ih =>
    obtain ⟨hfield, hfields⟩ := List.forall_mem_cons.1 hfields
    cases xs with
    | nil =>
      rw [List.nil_append, List.nil_append, ofItems, ofItems, h.slot hfield]
    | cons z xs =>
      rw [List.cons_append, List.cons_append, ofItems, ofItems, ih hfields]

/-! ## Documents -/

namespace Shape

theorem ofMembers_swap {s : Shape} (hs : s.hasTally = false) (ms : List (String × Reading))
    (a b : String × Reading) (ms' : List (String × Reading)) :
    s.ofMembers (ms ++ a :: b :: ms') = s.ofMembers (ms ++ b :: a :: ms') := by
  cases s with
  | tally => cases hs
  | record r =>
    have hswap := (List.Perm.swap b a ms').append_left ms
    rw [ofMembers, ofMembers, Values.ofMembers_congr fun field _ => field.member?_perm hswap]
  | choice c => rcases ms with _ | ⟨_, _ | _⟩ <;> rfl
  | text | boolean | count | list => rfl

theorem ofMembers_alike {s : Shape} (hs : s.hasTally = false) (ms : List (String × Reading))
    (key : String) {x y : Reading} (h : x.Alike y) (ms' : List (String × Reading)) :
    s.ofMembers (ms ++ (key, x) :: ms') = s.ofMembers (ms ++ (key, y) :: ms') := by
  cases s with
  | tally => cases hs
  | record r =>
    rw [ofMembers, ofMembers, Values.ofMembers_congr fun field hfield =>
      Field.member?_alike (hasTally_field hs field hfield) ms key h ms']
  | choice c =>
    rcases ms with _ | ⟨_, _ | _⟩
    · cases ms' with
      | nil =>
        change (if x.isNull then _ else none) = if y.isNull then _ else none
        rw [h.isNull]
      | cons _ _ => rfl
    · rfl
    · rfl
  | text | boolean | count | list => rfl

theorem ofItems_alike {s : Shape} (hs : s.hasTally = false) (xs : List Reading)
    {x y : Reading} (h : x.Alike y) (xs' : List Reading) :
    s.ofItems (xs ++ x :: xs') = s.ofItems (xs ++ y :: xs') := by
  cases s with
  | list item =>
    rw [ofItems, ofItems, List.mapM_append, List.mapM_append, List.mapM_cons, List.mapM_cons,
      h.value item hs]
  | record r =>
    rw [ofItems, ofItems, Values.ofItems_alike (hasTally_field hs) xs h xs']
  | text | boolean | count | tally | choice => rfl

end Shape

namespace Json

theorem alike_swapped {x y : Json} (h : Swapped x y) : x.reading.Alike y.reading := by
  induction h with
  | members ms a b ms' =>
    refine ⟨rfl, fun s hs => ?_⟩
    change s.ofMembers (memberReadings _) = s.ofMembers (memberReadings _)
    simp only [memberReadings_eq_map, List.map_append, List.map_cons]
    exact Shape.ofMembers_swap hs _ _ _ _
  | item xs xs' _ ih =>
    refine ⟨rfl, fun s hs => ?_⟩
    change s.ofItems (readings _) = s.ofItems (readings _)
    simp only [readings_eq_map, List.map_append, List.map_cons]
    exact Shape.ofItems_alike hs _ ih _
  | member ms key ms' _ ih =>
    refine ⟨rfl, fun s hs => ?_⟩
    change s.ofMembers (memberReadings _) = s.ofMembers (memberReadings _)
    simp only [memberReadings_eq_map, List.map_append, List.map_cons]
    exact Shape.ofMembers_alike hs _ key ih _

theorem decode_reordered {x y : Json} (h : x.Reordered y) {s : Shape} (hs : s.hasTally = false) :
    y.decode s = x.decode s := by
  induction h with
  | refl => rfl
  | step _ hswap ih => exact ((alike_swapped hswap).value s hs).symm.trans ih

end Json

end HeaderSchema
