import HeaderSchema.Schema.Container

/-!
# The registry of containers

Containers by name, in the order in which the names were first addressed. Every
change goes through `edit`, which creates the container if the name is new; so
an interface, its categories and a protocol of the same name meet in one
container, whichever of them comes first.
-/

namespace HeaderSchema

/-- A change to one container. -/
inductive Edit where
  /-- Only makes sure that the container is there. -/
  | touch
  | markInterface
  | addCategory (name : String)
  | append (members : Members)
deriving Repr, DecidableEq

def Edit.apply : Edit → Container → Container
  | .touch, c => c
  | .markInterface, c => c.markInterface
  | .addCategory name, c => c.addCategory name
  | .append members, c => c.append members

/-- A change that appends one property. -/
def Edit.addProperty (property : Property) : Edit :=
  .append ⟨[property], []⟩

/-- A change that appends one method. -/
def Edit.addMethod (method : Method) : Edit :=
  .append ⟨[], [method]⟩

/-- Containers by name, in the order of first reference. -/
structure Registry where
  entries : List (String × Container)
deriving Repr, DecidableEq

namespace Registry

def empty : Registry := ⟨[]⟩

/-- Changes the container of that name in a list of entries, or adds it at the
end. -/
def updateEntries (name : String) (f : Container → Container) :
    List (String × Container) → List (String × Container)
  | [] => [(name, f (.ofName name))]
  | (key, c) :: rest =>
    if key = name then (key, f c) :: rest
    else (key, c) :: updateEntries name f rest

/-- Changes the container of that name, which is created first if need be. -/
def update (r : Registry) (name : String) (f : Container → Container) : Registry :=
  ⟨updateEntries name f r.entries⟩

/-- Applies a change to the container of that name. -/
def edit (r : Registry) (name : String) (e : Edit) : Registry :=
  r.update name e.apply

/-- The container of that name. -/
def get? (r : Registry) (name : String) : Option Container :=
  r.entries.lookup name

/-- The container of that name, or the one that `edit` would start from. -/
def getOrNew (r : Registry) (name : String) : Container :=
  (r.get? name).getD (.ofName name)

def contains (r : Registry) (name : String) : Bool :=
  (r.get? name).isSome

def size (r : Registry) : Nat :=
  r.entries.length

def isEmpty (r : Registry) : Bool :=
  r.entries.isEmpty

/-- The names, in the order of first reference. -/
def names (r : Registry) : List String :=
  r.entries.map (·.1)

/-- The containers, in the order of first reference. -/
def containers (r : Registry) : List Container :=
  r.entries.map (·.2)

/-! ## What a change does to the views -/

theorem lookup_updateEntries (name other : String) (f : Container → Container)
    (entries : List (String × Container)) :
    (updateEntries name f entries).lookup other =
      if other = name then some (f ((entries.lookup name).getD (.ofName name)))
      else entries.lookup other := by
  induction entries with
  | nil =>
    by_cases h : other = name
    · simp [updateEntries, h]
    · have hne : (other == name) = false := beq_eq_false_iff_ne.2 h
      simp [updateEntries, List.lookup_cons, h, hne]
  | cons e rest ih =>
    obtain ⟨key, c⟩ := e
    simp only [updateEntries]
    by_cases hk : key = name
    · subst hk
      by_cases h : other = key
      · simp [h]
      · have hne : (other == key) = false := beq_eq_false_iff_ne.2 h
        simp [List.lookup_cons, h, hne]
    · have hnk : (name == key) = false := beq_eq_false_iff_ne.2 (Ne.symm hk)
      by_cases ho : other = key
      · subst ho
        simp [hk]
      · have hok : (other == key) = false := beq_eq_false_iff_ne.2 ho
        simp [List.lookup_cons, hk, hok, hnk, ih]

/-- A change shows at its own name and nowhere else. -/
theorem get?_update (r : Registry) (name other : String) (f : Container → Container) :
    (r.update name f).get? other =
      if other = name then some (f (r.getOrNew name)) else r.get? other :=
  lookup_updateEntries name other f r.entries

theorem map_fst_updateEntries (name : String) (f : Container → Container)
    (entries : List (String × Container)) :
    (updateEntries name f entries).map (·.1) =
      if name ∈ entries.map (·.1) then entries.map (·.1) else entries.map (·.1) ++ [name] := by
  induction entries with
  | nil => simp [updateEntries]
  | cons e rest ih =>
    obtain ⟨key, c⟩ := e
    simp only [updateEntries]
    by_cases hk : key = name
    · simp [hk]
    · simp only [hk, if_false, List.map_cons, ih, List.mem_cons, Ne.symm hk, false_or]
      split <;> simp

/-- A new name comes last; a known one stays where it is. -/
theorem names_update (r : Registry) (name : String) (f : Container → Container) :
    (r.update name f).names = if name ∈ r.names then r.names else r.names ++ [name] :=
  map_fst_updateEntries name f r.entries

/-! ## Comparing registries -/

/-- The same names with equal containers; the order is not compared. -/
def same (a b : Registry) : Bool :=
  a.size == b.size && a.entries.all fun (name, c) => b.get? name == some c

end Registry

end HeaderSchema
