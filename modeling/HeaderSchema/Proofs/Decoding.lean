import HeaderSchema.Proofs.NumberReading
import HeaderSchema.Shape.Basic

/-!
# What a document holds

`Json.decode` says, on the tree of a document and without any reader, what it
holds as a value of a shape. A record needs every field at most once among the
members of an object (`Field.member?`), or its fields in their order among the
items of a list (`Values.ofItems`).

A reader goes through the members once and sets the fields as they come.
`Partial.addMembers` and `Partial.addItems` do the same with members and items
that are already decoded, and come to the same values (`complete_addMembers`,
`complete_addItems`).
-/

namespace HeaderSchema

/-- What a document holds as a value of each shape, and whether it is `null`. -/
structure Reading where
  isNull : Bool
  value : (s : Shape) → Option s.Val

/-- What a document holds in the slot of a field. -/
def Reading.slot (x : Reading) : (slot : Slot) → Option slot.Val
  | .plain s => x.value s
  | .nullable s => if x.isNull then some none else (x.value s).map some

/-- The value of a field given the members under its key, of which there may be
one at most. -/
def Field.sole? (field : Field) : List (String × Reading) → Option field.slot.Val
  | [] => field.absentMember
  | [(_, x)] => x.slot field.slot
  | _ :: _ :: _ => none

/-- The value of a field among the members of an object. -/
def Field.member? (field : Field) (ms : List (String × Reading)) : Option field.slot.Val :=
  field.sole? (ms.filter (·.1 = field.key))

/-- The values of all fields among the members of an object. -/
def Values.ofMembers (ms : List (String × Reading)) : (fields : List Field) →
    Option (Values fields)
  | [] => some ()
  | field :: fields =>
    (field.member? ms).bind fun value => (ofMembers ms fields).map (value, ·)

/-- The values of all fields when the items of a list are theirs in order. -/
def Values.ofItems : (fields : List Field) → List Reading → Option (Values fields)
  | [], [] => some ()
  | [], _ :: _ => none
  | field :: fields, [] =>
    field.absentItem.bind fun value => (ofItems fields []).map (value, ·)
  | field :: fields, x :: xs =>
    (x.slot field.slot).bind fun value => (ofItems fields xs).map (value, ·)

/-- The counts under names; a name that comes again replaces its count. -/
def Tally.ofMembers (tally : Tally) : List (String × Reading) → Option Tally
  | [] => some tally
  | (name, x) :: ms => (x.value .count).bind fun n => ofMembers (tally.set name n) ms

namespace Shape

/-- A boolean as a value of a shape. -/
def ofBoolean (value : Bool) : (s : Shape) → Option s.Val
  | .boolean => some value
  | _ => none

/-- A number as a value of a shape. -/
def ofNumber (n : Numeral) : (s : Shape) → Option s.Val
  | .count => n.count?
  | _ => none

/-- A text as a value of a shape. -/
def ofText (text : String) : (s : Shape) → Option s.Val
  | .text => some text
  | .choice c => c.words.lookup text
  | _ => none

/-- A list as a value of a shape. -/
def ofItems (xs : List Reading) : (s : Shape) → Option s.Val
  | .list item => xs.mapM (·.value item)
  | .record r => (Values.ofItems r.fields xs).map r.build
  | _ => none

/-- An object as a value of a shape. A word of a choice may be the only key, with
`null` under it. -/
def ofMembers (ms : List (String × Reading)) : (s : Shape) → Option s.Val
  | .tally => Tally.ofMembers .empty ms
  | .record r => (Values.ofMembers ms r.fields).map r.build
  | .choice c =>
    match ms with
    | [(word, x)] => if x.isNull then c.words.lookup word else none
    | _ => none
  | _ => none

end Shape

namespace Json

def isNull : Json → Bool
  | .null => true
  | _ => false

mutual

/-- What a document holds as a value of a shape. -/
def decode : Json → (s : Shape) → Option s.Val
  | .null => fun _ => none
  | .boolean value => Shape.ofBoolean value
  | .number n => Shape.ofNumber n
  | .string text => Shape.ofText text
  | .array xs => Shape.ofItems (readings xs)
  | .object ms => Shape.ofMembers (memberReadings ms)

/-- What the items of a list hold. -/
def readings : List Json → List Reading
  | [] => []
  | x :: xs => ⟨x.isNull, decode x⟩ :: readings xs

/-- What the members of an object hold. -/
def memberReadings : List (String × Json) → List (String × Reading)
  | [] => []
  | (key, x) :: ms => (key, ⟨x.isNull, decode x⟩) :: memberReadings ms

end

/-- What a document holds. -/
def reading (x : Json) : Reading :=
  ⟨x.isNull, x.decode⟩

theorem readings_eq_map (xs : List Json) : readings xs = xs.map reading := by
  induction xs with
  | nil => rfl
  | cons x xs ih => rw [readings, ih, List.map_cons, reading]

theorem memberReadings_eq_map (ms : List (String × Json)) :
    memberReadings ms = ms.map fun (key, x) => (key, x.reading) := by
  induction ms with
  | nil => rfl
  | cons m ms ih =>
    rw [memberReadings, ih, List.map_cons]
    rfl

end Json

/-! ## Field by field, as members and items come -/

namespace Partial

/-- The fields set by members as they come: none if a field comes again or does
not hold what it should; other members are left out. -/
def addMembers {fields : List Field} : List (String × Reading) → Partial fields →
    Option (Partial fields)
  | [], values => some values
  | (key, x) :: ms, values =>
    match Placed.find? key fields with
    | none => addMembers ms values
    | some ⟨field, place⟩ =>
      if (values.get place).isSome then none
      else (x.slot field.slot).bind fun value => addMembers ms (values.set place value)

/-- The fields set by items as they come, and the items that are left. -/
def addItems {fields : List Field} : List (Placed fields) → List Reading → Partial fields →
    Option (Partial fields × List Reading)
  | [], xs, values => some (values, xs)
  | _ :: _, [], values => some (values, [])
  | ⟨field, place⟩ :: places, x :: xs, values =>
    (x.slot field.slot).bind fun value => addItems places xs (values.set place value)

/-- The values of all fields; none if a field has no value. -/
def complete? (absent : (field : Field) → Option field.slot.Val) :
    {fields : List Field} → Partial fields → Option (Values fields)
  | [], () => some ()
  | field :: _, (value, values) =>
    (value <|> absent field).bind fun value => (complete? absent values).map (value, ·)

/-- Counting the fields makes no difference to the values. -/
theorem complete_toOption (absent : (field : Field) → Option field.slot.Val)
    {fields : List Field} (index : Nat) (values : Partial fields) :
    (values.complete absent index).toOption = values.complete? absent := by
  induction fields generalizing index with
  | nil => rfl
  | cons field fields ih =>
    obtain ⟨value, values⟩ := values
    rw [complete, complete?, ← ih (index + 1)]
    cases value <|> absent field with
    | none => rfl
    | some value => cases complete absent (index + 1) values <;> rfl

end Partial

/-- The value of one field set by members as they come, after it may have been
set before. -/
def Field.gather (field : Field) : List (String × Reading) → Option field.slot.Val →
    Option (Option field.slot.Val)
  | [], value? => some value?
  | (key, x) :: ms, value? =>
    if key = field.key then
      if value?.isSome then none
      else (x.slot field.slot).bind fun value => gather field ms (some value)
    else
      gather field ms value?

namespace Field

variable (field : Field)

theorem gather_some (ms : List (String × Reading)) (value : field.slot.Val) :
    field.gather ms (some value) =
      if (ms.filter (·.1 = field.key)).isEmpty then some (some value) else none := by
  induction ms with
  | nil => rfl
  | cons m ms ih =>
    rw [gather]
    by_cases hkey : m.1 = field.key
    · rw [if_pos hkey, List.filter_cons_of_pos (by simpa using hkey)]
      rfl
    · rw [if_neg hkey, ih, List.filter_cons_of_neg (by simpa using hkey)]

/-- Each member at most once, in whichever place. -/
theorem gather_none (ms : List (String × Reading)) :
    (field.gather ms none).bind (fun value? => value? <|> field.absentMember) =
      field.member? ms := by
  induction ms with
  | nil => rfl
  | cons m ms ih =>
    obtain ⟨key, x⟩ := m
    rw [gather]
    by_cases hkey : key = field.key
    · rw [if_pos hkey, member?, List.filter_cons_of_pos (by simpa using hkey)]
      simp only [gather_some, Option.isSome_none, Bool.false_eq_true, if_false]
      cases ms.filter (·.1 = field.key) with
      | nil =>
        rw [sole?]
        cases x.slot field.slot <;> rfl
      | cons m' ms' => cases x.slot field.slot <;> rfl
    · rw [if_neg hkey, ih, member?, member?, List.filter_cons_of_neg (by simpa using hkey)]

end Field

namespace Partial

/-- The first field and the others are set independently of each other. -/
theorem addMembers_cons {field : Field} {fields : List Field}
    (hkey : Placed.find? field.key fields = none) (ms : List (String × Reading))
    (value? : Option field.slot.Val) (values : Partial fields) :
    @addMembers (field :: fields) ms (value?, values) =
      (field.gather ms value?).bind fun value? => (addMembers ms values).map (value?, ·) := by
  induction ms generalizing value? values with
  | nil => rfl
  | cons m ms ih =>
    obtain ⟨key, x⟩ := m
    rw [addMembers, addMembers, Field.gather, Placed.find?]
    -- a member is the first field's, another field's or nobody's
    by_cases h : field.key = key
    · subst h
      rw [if_pos rfl, if_pos rfl, hkey]
      cases value? with
      | some value => rfl
      | none =>
        simp only [get, set, ih, Option.isSome_none, Bool.false_eq_true, if_false]
        cases x.slot field.slot <;> rfl
    · rw [if_neg h, if_neg (Ne.symm h)]
      cases hfind : Placed.find? key fields with
      | none => exact ih value? values
      | some placed =>
        obtain ⟨other, place⟩ := placed
        simp only [Option.map_some, get, set, ih]
        cases (get place values).isSome <;> cases x.slot other.slot <;>
          cases field.gather ms value? <;> rfl

theorem find?_eq_none {key : String} {fields : List Field} (h : key ∉ fields.map Field.key) :
    Placed.find? key fields = none := by
  induction fields with
  | nil => rfl
  | cons field fields ih =>
    rw [List.map_cons, List.mem_cons, not_or] at h
    rw [Placed.find?, if_neg (Ne.symm h.1), ih h.2]
    rfl

/-- Setting the fields as members come gives each field its value among all
members. -/
theorem complete_addMembers {fields : List Field} (h : (fields.map Field.key).Nodup)
    (ms : List (String × Reading)) :
    (addMembers ms (empty fields)).bind (complete? Field.absentMember) =
      Values.ofMembers ms fields := by
  induction fields with
  | nil =>
    have hnil : ∀ values : Partial [], addMembers ms values = some () := by
      intro values
      induction ms with
      | nil => rfl
      | cons m ms ih => exact ih
    rw [hnil]
    rfl
  | cons field fields ih =>
    obtain ⟨hkey, hfields⟩ := List.nodup_cons.1 h
    rw [empty, addMembers_cons (find?_eq_none hkey), Values.ofMembers, ← ih hfields,
      ← Field.gather_none]
    cases field.gather ms none with
    | none => rfl
    | some value? =>
      simp only [Option.bind_some]
      cases addMembers ms (empty fields) with
      | none => cases value? <|> field.absentMember <;> rfl
      | some values => rfl

/-- Items of the later fields leave the first field alone. -/
theorem addItems_there {field : Field} {fields : List Field} (places : List (Placed fields))
    (xs : List Reading) (value? : Option field.slot.Val) (values : Partial fields) :
    @addItems (field :: fields) (places.map fun ⟨other, place⟩ => ⟨other, .there place⟩)
        xs (value?, values) =
      (addItems places xs values).map fun (values, left) => ((value?, values), left) := by
  induction places generalizing xs values with
  | nil => rfl
  | cons placed places ih =>
    cases xs with
    | nil => rfl
    | cons x xs =>
      obtain ⟨other, place⟩ := placed
      rw [List.map_cons, addItems, addItems]
      cases x.slot other.slot with
      | none => rfl
      | some value => exact ih xs (values.set place value)

/-- The values of all fields, if no item is left over. -/
def completeItems {fields : List Field} (read : Partial fields × List Reading) :
    Option (Values fields) :=
  (complete? Field.absentItem read.1).bind fun values =>
    if read.2.isEmpty then some values else none

theorem addItems_nil {fields : List Field} (places : List (Placed fields))
    (values : Partial fields) : addItems places [] values = some (values, []) := by
  cases places <;> rfl

theorem complete_addItems (fields : List Field) (xs : List Reading) :
    (addItems (Placed.all fields) xs (empty fields)).bind completeItems =
      Values.ofItems fields xs := by
  induction fields generalizing xs with
  | nil => cases xs <;> rfl
  | cons field fields ih =>
    -- whatever became of the first field, the others go on as if there were no first
    have hnext : ∀ (xs : List Reading) (value? : Option field.slot.Val),
        (@addItems (field :: fields)
          ((Placed.all fields).map fun ⟨other, place⟩ => ⟨other, .there place⟩) xs
            (value?, empty fields)).bind completeItems =
          (value? <|> field.absentItem).bind fun value =>
            (Values.ofItems fields xs).map (value, ·) := by
      intro xs value?
      rw [addItems_there, ← ih xs]
      cases addItems (Placed.all fields) xs (empty fields) with
      | none => cases value? <|> field.absentItem <;> rfl
      | some read =>
        simp only [Option.map_some, Option.bind_some, completeItems, complete?]
        cases value? <|> field.absentItem with
        | none => rfl
        | some value => cases complete? Field.absentItem read.1 <;> cases read.2 <;> rfl
    cases xs with
    | nil =>
      rw [addItems_nil, ← addItems_nil
        ((Placed.all fields).map fun ⟨other, place⟩ => ⟨other, .there place⟩) _]
      exact hnext [] none
    | cons x xs =>
      rw [Values.ofItems, Placed.all, addItems]
      cases x.slot field.slot with
      | none => rfl
      | some value => exact hnext xs (some value)

end Partial

end HeaderSchema
