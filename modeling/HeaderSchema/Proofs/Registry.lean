import HeaderSchema.Schema.Registry

/-!
# Laws of the registry

A registry is changed by addressed edits only. Through `getOrNew`, a list of
edits acts on every name by itself: the container of a name comes out as if only
the edits addressed to it had run (`getOrNew_editAll`). The names are those that
were there before, and after them the new ones in the order of their first edit
(`names_editAll`).

Both hold of every registry. A registry that was built from nothing moreover has
each name once (`WellFormed`); such a registry compares equal to another one as
soon as both have the same names with the same containers (`same_of_get?_eq`).
-/

namespace HeaderSchema

/-- Where keys do not repeat, the look-up finds every entry. -/
theorem lookup_eq_some_iff_mem {α : Type} {entries : List (String × α)}
    (h : (entries.map (·.1)).Nodup) (key : String) (value : α) :
    entries.lookup key = some value ↔ (key, value) ∈ entries := by
  constructor
  · intro hlookup
    obtain ⟨before, after, rfl, -⟩ := List.lookup_eq_some_iff.1 hlookup
    exact List.mem_append_right _ List.mem_cons_self
  · intro hmem
    obtain ⟨before, after, rfl⟩ := List.append_of_mem hmem
    refine List.lookup_eq_some_iff.2 ⟨before, after, rfl, fun e he => ?_⟩
    rw [List.map_append, List.map_cons] at h
    have hne : e.1 ≠ key := fun heq => by
      have hdisjoint := (List.nodup_append.1 h).2.2
      exact hdisjoint e.1 (List.mem_map_of_mem he) key List.mem_cons_self heq
    simpa using Ne.symm hne

/-! ## Edits of one container -/

def Edit.properties : Edit → List Property
  | .append members => members.properties
  | _ => []

def Edit.methods : Edit → List Method
  | .append members => members.methods
  | _ => []

def Edit.categories : Edit → List String
  | .addCategory name => [name]
  | _ => []

theorem Edit.apply_name (e : Edit) (c : Container) : (e.apply c).name = c.name := by
  cases e <;> rfl

namespace Container

def applyAll (c : Container) (edits : List Edit) : Container :=
  edits.foldl (fun c e => e.apply c) c

theorem applyAll_cons (c : Container) (e : Edit) (edits : List Edit) :
    c.applyAll (e :: edits) = (e.apply c).applyAll edits :=
  rfl

@[simp] theorem applyAll_name (c : Container) (edits : List Edit) :
    (c.applyAll edits).name = c.name := by
  induction edits generalizing c with
  | nil => rfl
  | cons e edits ih => rw [applyAll_cons, ih, Edit.apply_name]

/-- If each change appends to a part of the container, then a list of changes
appends to it in its order. -/
theorem applyAll_appends {α : Type} {part : Container → List α} {added : Edit → List α}
    (h : ∀ (e : Edit) (c : Container), part (e.apply c) = part c ++ added e)
    (c : Container) (edits : List Edit) :
    part (c.applyAll edits) = part c ++ edits.flatMap added := by
  induction edits generalizing c with
  | nil => exact (List.append_nil _).symm
  | cons e edits ih =>
    rw [applyAll_cons, ih, h, List.flatMap_cons, List.append_assoc]

theorem applyAll_properties (c : Container) (edits : List Edit) :
    (c.applyAll edits).properties = c.properties ++ edits.flatMap Edit.properties := by
  refine applyAll_appends (fun e c => ?_) c edits
  cases e <;> simp [Edit.apply, Edit.properties, markInterface, addCategory, append]

theorem applyAll_methods (c : Container) (edits : List Edit) :
    (c.applyAll edits).methods = c.methods ++ edits.flatMap Edit.methods := by
  refine applyAll_appends (fun e c => ?_) c edits
  cases e <;> simp [Edit.apply, Edit.methods, markInterface, addCategory, append]

theorem applyAll_categories (c : Container) (edits : List Edit) :
    (c.applyAll edits).categories = c.categories ++ edits.flatMap Edit.categories := by
  refine applyAll_appends (fun e c => ?_) c edits
  cases e <;> simp [Edit.apply, Edit.categories, markInterface, addCategory, append]

/-- The interface flag is set by one kind of change and cleared by none. -/
theorem applyAll_isInterface (c : Container) (edits : List Edit) :
    (c.applyAll edits).isInterface = true ↔
      c.isInterface = true ∨ Edit.markInterface ∈ edits := by
  induction edits generalizing c with
  | nil => simp [applyAll]
  | cons e edits ih =>
    have he : (e.apply c).isInterface = true ↔
        c.isInterface = true ∨ Edit.markInterface = e := by
      cases e <;> simp [Edit.apply, markInterface, addCategory, append]
    rw [applyAll_cons, ih, he, List.mem_cons, or_assoc]

/-- Two containers that differ at most in the order of what was appended. -/
structure Rearranged (a b : Container) : Prop where
  name : a.name = b.name
  isInterface : a.isInterface = b.isInterface
  properties : a.properties.Perm b.properties
  methods : a.methods.Perm b.methods
  categories : a.categories.Perm b.categories

theorem applyAll_rearranged (c : Container) {edits edits' : List Edit} (h : edits.Perm edits') :
    (c.applyAll edits).Rearranged (c.applyAll edits') where
  name := by simp
  isInterface := by
    rw [Bool.eq_iff_iff, applyAll_isInterface, applyAll_isInterface, h.mem_iff]
  properties := by
    rw [applyAll_properties, applyAll_properties]
    exact (h.flatMap_right _).append_left _
  methods := by
    rw [applyAll_methods, applyAll_methods]
    exact (h.flatMap_right _).append_left _
  categories := by
    rw [applyAll_categories, applyAll_categories]
    exact (h.flatMap_right _).append_left _

end Container

namespace Registry

/-! ## One edit, seen through the views -/

theorem contains_iff (r : Registry) (name : String) :
    r.contains name = true ↔ name ∈ r.names := by
  unfold contains get? names
  rw [List.lookup_isSome_iff, List.mem_map]
  constructor
  · rintro ⟨e, he, heq⟩
    exact ⟨e, he, (eq_of_beq heq).symm⟩
  · rintro ⟨e, he, heq⟩
    exact ⟨e, he, beq_iff_eq.2 heq.symm⟩

/-- The look-up in terms of the names and of what an edit would start from. -/
theorem get?_eq_ite (r : Registry) (name : String) :
    r.get? name = if name ∈ r.names then some (r.getOrNew name) else none := by
  have hc := r.contains_iff name
  unfold contains at hc
  unfold getOrNew
  cases hg : r.get? name with
  | none => rw [if_neg (by rw [← hc, hg]; simp)]
  | some c => rw [if_pos (by rw [← hc, hg]; rfl), Option.getD_some]

theorem getOrNew_edit (r : Registry) (name other : String) (e : Edit) :
    (r.edit name e).getOrNew other =
      if other = name then e.apply (r.getOrNew name) else r.getOrNew other := by
  unfold edit
  rw [getOrNew, get?_update]
  split <;> rfl

theorem names_edit (r : Registry) (name : String) (e : Edit) :
    (r.edit name e).names = if name ∈ r.names then r.names else r.names ++ [name] :=
  r.names_update name e.apply

/-! ## Lists of edits -/

/-- Applies addressed changes in their order. -/
def editAll (r : Registry) (edits : List (String × Edit)) : Registry :=
  edits.foldl (fun r e => r.edit e.1 e.2) r

/-- The changes that are addressed to a name. -/
def editsOf (name : String) (edits : List (String × Edit)) : List Edit :=
  edits.filterMap fun e => if e.1 = name then some e.2 else none

theorem editsOf_cons (name : String) (e : String × Edit) (edits : List (String × Edit)) :
    editsOf name (e :: edits) =
      if e.1 = name then e.2 :: editsOf name edits else editsOf name edits := by
  unfold editsOf
  rw [List.filterMap_cons]
  split <;> simp_all

theorem editAll_cons (r : Registry) (e : String × Edit) (edits : List (String × Edit)) :
    r.editAll (e :: edits) = (r.edit e.1 e.2).editAll edits :=
  rfl

theorem editAll_append (r : Registry) (edits edits' : List (String × Edit)) :
    r.editAll (edits ++ edits') = (r.editAll edits).editAll edits' :=
  List.foldl_append ..

/-- **Locality**: a name sees only the changes that are addressed to it. -/
theorem getOrNew_editAll (r : Registry) (edits : List (String × Edit)) (name : String) :
    (r.editAll edits).getOrNew name = (r.getOrNew name).applyAll (editsOf name edits) := by
  induction edits generalizing r with
  | nil => rfl
  | cons e edits ih =>
    rw [editAll_cons, ih, getOrNew_edit, editsOf_cons]
    by_cases h : e.1 = name
    · rw [if_pos h, if_pos h.symm, h, Container.applyAll_cons]
    · rw [if_neg h, if_neg (Ne.symm h)]

/-- **First reference order**: new names follow the known ones, each where it
was first addressed. -/
theorem names_editAll (r : Registry) (edits : List (String × Edit)) :
    (r.editAll edits).names =
      r.names ++ ((edits.map (·.1)).filter (· ∉ r.names)).eraseDups := by
  induction edits generalizing r with
  | nil => simp [editAll]
  | cons e edits ih =>
    rw [editAll_cons, ih, names_edit, List.map_cons]
    by_cases h : e.1 ∈ r.names
    · simp [h]
    · have hfilter : (edits.map (·.1)).filter (· ∉ r.names ++ [e.1]) =
          ((edits.map (·.1)).filter (· ∉ r.names)).filter (fun name => !name == e.1) := by
        rw [List.filter_filter]
        refine List.filter_congr fun name _ => ?_
        by_cases hn : name ∈ r.names <;> by_cases he : name = e.1 <;> simp [hn, he]
      rw [if_neg h, hfilter, List.filter_cons_of_pos (by simpa using h), List.eraseDups_cons,
        List.append_assoc, List.singleton_append]

/-! ## Registries built from nothing -/

/-- Every name is there once, and its container bears it. -/
structure WellFormed (r : Registry) : Prop where
  nodup : r.names.Nodup
  named : ∀ name, (r.getOrNew name).name = name

namespace WellFormed

theorem empty : WellFormed .empty :=
  ⟨List.nodup_nil, fun _ => rfl⟩

theorem edit {r : Registry} (h : r.WellFormed) (name : String) (e : Edit) :
    (r.edit name e).WellFormed := by
  refine ⟨?_, fun other => ?_⟩
  · rw [names_edit]
    split
    · exact h.nodup
    · next hnew =>
      refine List.nodup_append.2 ⟨h.nodup, by simp, fun known hknown new heq => ?_⟩
      rw [List.mem_singleton.1 heq]
      exact fun h => hnew (h ▸ hknown)
  · rw [getOrNew_edit]
    split
    · next heq => rw [Edit.apply_name, h.named, heq]
    · exact h.named other

theorem editAll {r : Registry} (h : r.WellFormed) (edits : List (String × Edit)) :
    (r.editAll edits).WellFormed := by
  induction edits generalizing r with
  | nil => exact h
  | cons e edits ih => exact ih (h.edit e.1 e.2)

section Containers
variable {r : Registry} (h : r.WellFormed)
include h

/-- Every container is stored under its own name. -/
theorem name_eq_of_mem {e : String × Container} (he : e ∈ r.entries) : e.2.name = e.1 := by
  have hlookup : r.get? e.1 = some e.2 := (lookup_eq_some_iff_mem h.nodup e.1 e.2).2 he
  have hnamed := h.named e.1
  rwa [getOrNew, hlookup, Option.getD_some] at hnamed

theorem containers_eq : r.containers = r.names.map r.getOrNew := by
  unfold containers names
  rw [List.map_map]
  refine List.map_congr_left fun e he => ?_
  have hlookup : r.get? e.1 = some e.2 := (lookup_eq_some_iff_mem h.nodup e.1 e.2).2 he
  rw [Function.comp_apply, getOrNew, hlookup, Option.getD_some]

theorem names_containers : r.containers.map (·.name) = r.names := by
  rw [h.containers_eq, List.map_map]
  exact List.map_id'' h.named r.names

end Containers

end WellFormed

/-! ## Comparing registries -/

/-- Registries with the same names and the same containers compare equal, in
whatever order they have them. -/
theorem same_of_get?_eq {a b : Registry} (ha : a.names.Nodup) (hnames : a.names.Perm b.names)
    (hget : ∀ name, a.get? name = b.get? name) : a.same b = true := by
  have hsize : a.size = b.size := by simpa [names, size] using hnames.length_eq
  unfold same
  rw [hsize, beq_self_eq_true, Bool.true_and, List.all_eq_true]
  rintro ⟨name, c⟩ hmem
  have hentry : a.get? name = some c := (lookup_eq_some_iff_mem ha name c).2 hmem
  exact beq_iff_eq.2 ((hget name).symm.trans hentry)

end Registry

end HeaderSchema
