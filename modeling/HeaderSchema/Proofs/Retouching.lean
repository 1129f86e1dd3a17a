import HeaderSchema.Proofs.CommandRuns
import HeaderSchema.Proofs.Counters
import HeaderSchema.Proofs.MemberOrder
import HeaderSchema.Proofs.RoundTrip
import Mathlib.Logic.Relation

/-!
# Documents that other tools have gone over

Another tool may rewrite a document and mean no change: it puts members in
another order, adds members of its own, leaves out members that say nothing or
spells them out, and uses other white space and other escapes. `Json.Retouched`
is one such change to the document of a value, in terms of its shape;
`Json.IsWritten` says which inputs are texts of a document.

A reader does not notice. A field takes its value from the member under its key,
wherever that stands and whatever stands beside it, and without one it holds what
a silent member would have said (`Record.slot_silent`). So one change leaves what
a document holds as it is (`Json.agree_retouched`), and so do any number of them
(`Json.decode_retouched`). A package or a report that was gone over is read as
what it was, and judged as it was (`retouched_reads_back`).
-/

namespace HeaderSchema

open Relation (ReflTransGen)
open Utf8 (encode)

/-! ## Changes -/

/-- The members that say nothing: without them, a record holds the same. -/
def Record.silentMembers : Record → List (String × Json)
  | .method => [("kind", MethodKind.instanceMethod.toJson)]
  | .container => [("categories", .array [])]
  | .package => [("schema_version", .null), ("name", .null), ("source", .null),
      ("bundle_hash", .null)]
  | .report => [("source", .null)]
  | .node | .qualType | .typeRef | .param | .property | .counters => []

/-- One change to a document of some shape: its members in another order, one more
under a key that the record does not have, which may hold anything, a silent
member more or less, or a change in a part of it. The names in a tally are its
own, so nothing is added there. -/
inductive Json.Retouched : Shape → Json → Json → Prop
  | members {r : Record} {ms ms' : List (String × Json)} (h : ms.Perm ms') :
      Retouched (.record r) (.object ms) (.object ms')
  | counts {ms ms' : List (String × Json)} (hkeys : (ms.map (·.1)).Nodup) (h : ms.Perm ms') :
      Retouched .tally (.object ms) (.object ms')
  | foreign {r : Record} (ms : List (String × Json)) (key : String) (x : Json)
      (ms' : List (String × Json)) (hkey : key ∉ r.fields.map Field.key) :
      Retouched (.record r) (.object (ms ++ ms')) (.object (ms ++ (key, x) :: ms'))
  | spellOut {r : Record} (ms : List (String × Json)) {m : String × Json}
      (ms' : List (String × Json)) (hm : m ∈ r.silentMembers)
      (hnone : ∀ other ∈ ms ++ ms', other.1 ≠ m.1) :
      Retouched (.record r) (.object (ms ++ ms')) (.object (ms ++ m :: ms'))
  | leaveOut {r : Record} (ms : List (String × Json)) {m : String × Json}
      (ms' : List (String × Json)) (hm : m ∈ r.silentMembers)
      (hnone : ∀ other ∈ ms ++ ms', other.1 ≠ m.1) :
      Retouched (.record r) (.object (ms ++ m :: ms')) (.object (ms ++ ms'))
  | item {s : Shape} (xs : List Json) {x y : Json} (xs' : List Json) (h : Retouched s x y) :
      Retouched (.list s) (.array (xs ++ x :: xs')) (.array (xs ++ y :: xs'))
  | member {r : Record} (ms : List (String × Json)) {field : Field} (hfield : field ∈ r.fields)
      {x y : Json} (ms' : List (String × Json)) (h : Retouched field.slot.shape x y) :
      Retouched (.record r) (.object (ms ++ (field.key, x) :: ms'))
        (.object (ms ++ (field.key, y) :: ms'))

/-- The input is a text of the document: any spelling of it, with any white space
around. -/
def Json.IsWritten (x : Json) (input : Bytes) : Prop :=
  ∃ w t w', IsGap w ∧ x.Spelled t ∧ IsGap w' ∧ input = encode (w ++ t ++ w')

/-! ## What changes leave as it is -/

/-- The documents hold the same as values of one shape. -/
structure Reading.Agree (s : Shape) (x y : Reading) : Prop where
  isNull : x.isNull = y.isNull
  value : x.value s = y.value s

theorem Reading.Agree.slot {slot : Slot} {x y : Reading} (h : Reading.Agree slot.shape x y) :
    x.slot slot = y.slot slot := by
  cases slot with
  | plain s => exact h.value
  | nullable s =>
    have hvalue : x.value s = y.value s := h.value
    rw [Reading.slot, Reading.slot, h.isNull, hvalue]

/-- A silent member says what its field holds without it. -/
theorem Record.slot_silent {r : Record} {m : String × Json} (hm : m ∈ r.silentMembers)
    {field : Field} (hfield : field ∈ r.fields) (hkey : m.1 = field.key) :
    m.2.reading.slot field.slot = field.absentMember := by
  revert hkey hfield field hm m
  -- each member against each field: the field of its key, or another one
  cases r <;> simp only [silentMembers, fields, List.forall_mem_cons, List.not_mem_nil,
    false_imp_iff, implies_true, and_true]
  all_goals
    repeat' apply And.intro
    all_goals
      intro hkey
      first | rfl | exact absurd hkey (by decide)

namespace Tally

/-- Counts under different names may come in any order. -/
theorem ofMembers_perm {ms ms' : List (String × Reading)} (h : ms.Perm ms')
    (hkeys : (ms.map (·.1)).Nodup) (t : Tally) : t.ofMembers ms = t.ofMembers ms' := by
  induction h generalizing t with
  | nil => rfl
  | @cons m ms ms' _ ih =>
    have htail := (List.nodup_cons.1 hkeys).2
    rw [ofMembers, ofMembers]
    cases m.2.value .count with
    | none => rfl
    | some n => exact ih htail _
  | swap a b ms =>
    have hne : b.1 ≠ a.1 := by
      intro heq
      simp [heq] at hkeys
    simp only [ofMembers]
    cases a.2.value .count with
    | none => cases b.2.value .count <;> rfl
    | some n =>
      cases b.2.value .count with
      | none => rfl
      | some k =>
        simp only [Option.bind_some]
        rw [set_comm t hne k n]
  | trans h _ ih ih' => exact (ih hkeys t).trans (ih' ((h.map _).nodup_iff.1 hkeys) t)

end Tally

namespace Json

section Fields
variable {r : Record} {ms ms' : List (String × Json)}

theorem agree_object
    (h : ∀ field ∈ r.fields,
      field.member? (memberReadings ms) = field.member? (memberReadings ms')) :
    Reading.Agree (.record r) (object ms).reading (object ms').reading := by
  have hvalue := congrArg (Option.map r.build) (Values.ofMembers_congr h)
  exact ⟨rfl, hvalue⟩

theorem agree_insert {key : String} {x : Json}
    (h : ∀ field ∈ r.fields, key = field.key →
      x.reading.slot field.slot = field.absentMember ∧ ∀ m ∈ ms ++ ms', m.1 ≠ field.key) :
    Reading.Agree (.record r) (object (ms ++ (key, x) :: ms')).reading
      (object (ms ++ ms')).reading := by
  apply agree_object
  intro field hfield
  simp only [memberReadings_eq_map, List.map_append, List.map_cons]
  apply Field.member?_insert
  intro hkey
  obtain ⟨hslot, hnone⟩ := h field hfield hkey
  refine ⟨hslot, ?_⟩
  rw [← List.map_append]
  intro m hm
  obtain ⟨other, hother, rfl⟩ := List.mem_map.1 hm
  exact hnone other hother

theorem agree_silent {m : String × Json} (hm : m ∈ r.silentMembers)
    (hnone : ∀ other ∈ ms ++ ms', other.1 ≠ m.1) :
    Reading.Agree (.record r) (object (ms ++ m :: ms')).reading (object (ms ++ ms')).reading := by
  apply agree_insert
  intro field hfield hkey
  rw [← hkey]
  exact ⟨Record.slot_silent hm hfield hkey, hnone⟩

end Fields

theorem agree_retouched {s : Shape} {x y : Json} (h : Retouched s x y) :
    Reading.Agree s x.reading y.reading := by
  induction h with
  | members h =>
    apply agree_object
    intro field _
    rw [memberReadings_eq_map, memberReadings_eq_map]
    exact field.member?_perm (h.map _)
  | counts hkeys h =>
    refine ⟨rfl, ?_⟩
    change Tally.ofMembers _ (memberReadings _) = Tally.ofMembers _ (memberReadings _)
    rw [memberReadings_eq_map, memberReadings_eq_map]
    apply Tally.ofMembers_perm (h.map _)
    rwa [List.map_map]
  | @foreign r ms key x ms' hkey =>
    have hinsert : Reading.Agree (.record r) (object (ms ++ (key, x) :: ms')).reading
        (object (ms ++ ms')).reading :=
      agree_insert fun field hfield heq =>
        absurd (List.mem_map.2 ⟨field, hfield, heq.symm⟩) hkey
    exact ⟨hinsert.isNull.symm, hinsert.value.symm⟩
  | spellOut ms ms' hm hnone =>
    have hsilent := agree_silent hm hnone
    exact ⟨hsilent.isNull.symm, hsilent.value.symm⟩
  | leaveOut ms ms' hm hnone => exact agree_silent hm hnone
  | @item s xs x y xs' _ ih =>
    refine ⟨rfl, ?_⟩
    change (readings _).mapM _ = (readings _).mapM _
    simp only [readings_eq_map, List.map_append, List.map_cons, List.mapM_append, List.mapM_cons]
    rw [ih.value]
  | @member r ms field hfield x y ms' _ ih =>
    apply agree_object
    intro other hother
    simp only [memberReadings_eq_map, List.map_append, List.map_cons]
    apply Field.member?_replace
    intro hkey
    have hsame : field = other :=
      List.inj_on_of_nodup_map (Reader.nodup_keys r) hfield hother hkey
    subst hsame
    exact ih.slot

/-- Any number of changes leave what the document holds as it is. -/
theorem decode_retouched {s : Shape} {x y : Json} (h : ReflTransGen (Retouched s) x y) :
    y.decode s = x.decode s := by
  induction h with
  | refl => rfl
  | tail _ hstep ih => exact (agree_retouched hstep).value.symm.trans ih

/-- A text of a document that was gone over is read as what the document held. -/
theorem parseOnly_retouched {s : Shape} {x y : Json} {value : s.Val}
    (hvalue : x.decode s = some value) (h : ReflTransGen (Retouched s) x y) {input : Bytes}
    (hinput : y.IsWritten input) : s.parseOnly input = .ok value := by
  obtain ⟨w, t, w', hw, ht, hw', rfl⟩ := hinput
  rw [← decode_retouched h] at hvalue
  exact Shape.parseOnly_gaps ht hvalue hw hw'

theorem IsWritten.isText {x : Json} {input : Bytes} (h : x.IsWritten input) :
    ∃ text, input = .ofText text := by
  obtain ⟨w, t, w', -, -, -, rfl⟩ := h
  refine ⟨String.ofList (w ++ t ++ w'), ?_⟩
  rw [Bytes.ofText, String.toList_ofList]

/-- The names of a tally's counts are different, so they may change places. -/
theorem retouched_tally (t : Tally) {ms : List (String × Json)}
    (h : (t.entries.map fun (name, n) => (name, count n)).Perm ms) :
    Retouched .tally t.toJson (object ms) := by
  refine .counts ?_ h
  rw [List.map_map]
  exact Tally.nodup_of_sorted t.sorted

end Json

/-! ## Packages and reports -/

/-- What is judged is what was read, so a text that reads as the same package is
judged alike. -/
theorem World.runValidate_congr {w w' : World} {path text text' : String} {p : Package}
    (hjson : Path.isJson path = true) (htree : w.tree path = .ok (.file (.ofText text)))
    (hparse : (Shape.record .package).parseOnly (.ofText text) = .ok p)
    (htree' : w'.tree path = .ok (.file (.ofText text')))
    (hparse' : (Shape.record .package).parseOnly (.ofText text') = .ok p) :
    (w'.run (runValidate [path])).1 = (w.run (runValidate [path])).1 := by
  rw [run_runValidate htree hparse hjson, run_runValidate htree' hparse' hjson]

/-- **Retouched documents read back.** Whatever is done to the document of a
package or of a report without meaning a change, each of its texts is read as the
same package or report. So the digest that is computed from it and its first
problem are the same, and `validate` says the same of its file as of the file
that was written in the first place. -/
theorem retouched_reads_back :
    (∀ (p : Package) (document : Json) (input : Bytes),
      ReflTransGen (Json.Retouched (.record .package)) p.toJson document →
      document.IsWritten input →
        (Shape.record .package).parseOnly input = .ok p ∧
        (∀ q, (Shape.record .package).parseOnly input = .ok q →
          q.computedHash = p.computedHash ∧ q.problem? = p.problem?) ∧
        ∀ (path : String) (w w' : World), Path.isJson path = true →
          w.tree path = .ok (.file (.ofText (p.render .json))) →
          w'.tree path = .ok (.file input) →
            (w'.run (runValidate [path])).1 = (w.run (runValidate [path])).1) ∧
    ∀ (r : Report) (document : Json) (input : Bytes), r.Fits →
      ReflTransGen (Json.Retouched (.record .report)) r.toJson document →
      document.IsWritten input → (Shape.record .report).parseOnly input = .ok r := by
  constructor
  case left =>
    intro p document input hdocument hinput
    have hparse := Json.parseOnly_retouched p.decode_toJson hdocument hinput
    have hrendered := (Shape.readsBack_of_decode p.decode_toJson).pretty
    refine ⟨hparse, fun q hq => ?_, fun path w w' hjson htree htree' => ?_⟩
    · rw [hparse] at hq
      cases hq
      exact ⟨rfl, rfl⟩
    · obtain ⟨text, rfl⟩ := hinput.isText
      exact World.runValidate_congr hjson htree hrendered htree' hparse
  case right =>
    intro r document input hfits hdocument hinput
    exact Json.parseOnly_retouched (Report.decode_toJson hfits) hdocument hinput

theorem retouched_reads_back_moved :
    let method : Method := ⟨"length", ⟨"int"⟩, [], .instanceMethod⟩
    let p : Package :=
      ⟨none, "0.1.0", none, none, "today", none, [⟨"Word", [], [method], true, []⟩]⟩
    let method' : Json := .object
      [("name", .string "length"), ("return_type", method.returnType.toJson),
        ("params", .array [])]
    let container' : Json := .object
      [("name", .string "Word"), ("properties", .array []), ("methods", .array [method']),
        ("is_interface", .boolean true), ("categories", .array [])]
    let document : Json := .object
      [("containers", .array [container']), ("version", .string "0.1.0"),
        ("tool", .array [.null]), ("source", .null), ("generated_at", .string "today"),
        ("bundle_hash", .null)]
    let input := encode ([' '] ++ document.prettyChars 0 ++ ['\n'])
    ReflTransGen (Json.Retouched (.record .package)) p.toJson document ∧
      document.IsWritten input ∧ (Shape.record .package).parseOnly input = .ok p := by
  intro method p method' container' document input
  have hmethods : Field.required "methods" (.plain (.list (.record .method))) ∈
      Record.container.fields := by
    simp
  have hcontainers : Field.required "containers" (.plain (.list (.record .container))) ∈
      Record.package.fields := by
    simp
  have hkind : Json.Retouched (.record .method) method.toJson method' :=
    .leaveOut [_, _, _] [] List.mem_cons_self (by decide)
  have hdocument : ReflTransGen (Json.Retouched (.record .package)) p.toJson document := by
    apply ReflTransGen.head
    · exact .member [_, _, _, _, _] hcontainers [] (.item [] []
        (.member [_, _] hmethods [_] (.item [] [] hkind)))
    apply ReflTransGen.head
    · exact .member [_, _, _, _, _] hcontainers [] (.item [] []
        (.spellOut [_, _, _, _] [] List.mem_cons_self (by decide)))
    apply ReflTransGen.head
    · exact .leaveOut [_] [_, _, _, _] (List.mem_cons_of_mem _ List.mem_cons_self) (by decide)
    apply ReflTransGen.head
    · exact .foreign [_] "tool" (.array [.null]) [_, _, _, _] (by decide)
    apply ReflTransGen.single
    exact .members (List.perm_append_singleton _ [_, _, _, _, _])
  have hinput : document.IsWritten input :=
    ⟨[' '], _, ['\n'], isGap_blank, Json.spelled_pretty 0 document, isGap_newLine 0, rfl⟩
  exact ⟨hdocument, hinput, (retouched_reads_back.1 p document input hdocument hinput).1⟩

end HeaderSchema
