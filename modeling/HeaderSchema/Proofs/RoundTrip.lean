import HeaderSchema.Proofs.ShapeReading
import HeaderSchema.Render.Format

/-!
# What is written reads back

Every value of the schema is what its document holds (`decode_toJson` in the
namespace of each type): members that were left out come back as their defaults,
`null` as no value, and a tally's entries as the tally. Both printers spell the
document, so reading what they print gives the value back (`reads_back`). Counts
have to fit into 64 bits, which is what readers take.
-/

namespace HeaderSchema

open Utf8 (encode)

/-! ## From documents to texts -/

/-- Both texts of a document are read as the value. -/
structure Shape.ReadsBack (s : Shape) (document : Json) (value : s.Val) : Prop where
  compact : s.parseOnly (.ofText document.compact) = .ok value
  pretty : s.parseOnly (.ofText document.pretty) = .ok value

/-- White space ends a number. -/
theorem Reader.endsNumber_blanks {w : List Char} (hw : IsGap w) : EndsNumber (encode w) := by
  cases w with
  | nil => exact endsNumber_nil
  | cons c w =>
    have hrest := endsNumber_gap (w := []) isGap_nil (b := 0x20) rfl rfl (by decide) []
    rcases hw c List.mem_cons_self with rfl | rfl | rfl | rfl <;>
      exact endsNumber_cons rfl rfl (by decide) _

/-- A spelled document is read as what it holds, with any white space around it. -/
theorem Shape.parseOnly_gaps {s : Shape} {x : Json} {t : List Char} (h : x.Spelled t)
    {value : s.Val} (hvalue : x.decode s = some value) {w w' : List Char} (hw : IsGap w)
    (hw' : IsGap w') : s.parseOnly (encode (w ++ t ++ w')) = .ok value := by
  have hlength := Utf8.length_le_length_encode (w ++ t ++ w')
  rw [List.length_append, List.length_append] at hlength
  have hread := Reader.read_spelled ((encode (w ++ t ++ w')).length + 1) s x t w (encode w') h hw
    (by omega) (Reader.follows_of_endsNumber (Reader.endsNumber_blanks hw'))
  dsimp only at hread
  rw [hvalue, ← Utf8.encode_append] at hread
  have hparse : s.parse (encode (w ++ t ++ w')) = .ok (value, encode w') := hread
  have hend : Reader.skipBlanks (encode w') = [] := by
    have h := Reader.skipBlanks_gap hw' []
    rwa [List.append_nil] at h
  rw [parseOnly, hparse]
  dsimp only
  rw [hend]

theorem Shape.parseOnly_spelled {s : Shape} {x : Json} {t : List Char} (h : x.Spelled t)
    {value : s.Val} (hvalue : x.decode s = some value) :
    s.parseOnly (.ofText (String.ofList t)) = .ok value := by
  have hparse := parseOnly_gaps h hvalue isGap_nil isGap_nil
  rw [List.append_nil, List.nil_append] at hparse
  rw [Bytes.ofText, String.toList_ofList]
  exact hparse

theorem Shape.readsBack_of_decode {s : Shape} {document : Json} {value : s.Val}
    (h : document.decode s = some value) : s.ReadsBack document value :=
  ⟨parseOnly_spelled (Json.spelled_compact document) h,
    parseOnly_spelled (Json.spelled_pretty 0 document) h⟩

/-! ## Fields and items -/

namespace Values

/-- Field by field. -/
theorem ofMembers_cons {ms : List (String × Reading)} {field : Field} {fields : List Field}
    {value : field.slot.Val} {values : Values fields} (hvalue : field.member? ms = some value)
    (hvalues : ofMembers ms fields = some values) :
    ofMembers ms (field :: fields) = some (value, values) := by
  rw [ofMembers, hvalue, Option.bind_some, hvalues, Option.map_some]

end Values

namespace Json

theorem decode_record {ms : List (String × Json)} (r : Record) (values : Values r.fields)
    (h : Values.ofMembers (memberReadings ms) r.fields = some values) :
    (object ms).decode (.record r) = some (r.build values) := by
  rw [decode, Shape.ofMembers, h, Option.map_some]

theorem decode_list {s : Shape} {document : s.Val → Json}
    (h : ∀ value, (document value).decode s = some value) (values : List s.Val) :
    (array (values.map document)).decode (.list s) = some values := by
  rw [decode, Shape.ofItems, readings_eq_map, List.map_map, List.mapM_map]
  induction values with
  | nil => rfl
  | cons value values ih =>
    rw [List.mapM_cons, ih]
    change (do
      let value ← (document value).decode s
      return value :: values) = _
    rw [h]
    rfl

theorem slot_optional (text : Option String) :
    (optional text).reading.slot (.nullable .text) = some text := by
  cases text <;> rfl

theorem decode_count {n : Nat} (h : n < Nat.pow 2 64) : (count n).decode .count = some n :=
  if_pos ⟨rfl, rfl, rfl, h⟩

end Json

/-! ## Containers -/

theorem TypeRef.decode_toJson (t : TypeRef) : t.toJson.decode (.record .typeRef) = some t :=
  rfl

theorem Param.decode_toJson (p : Param) : p.toJson.decode (.record .param) = some p :=
  rfl

theorem Property.decode_toJson (p : Property) : p.toJson.decode (.record .property) = some p :=
  rfl

theorem MethodKind.decode_toJson (k : MethodKind) :
    k.toJson.decode (.choice .methodKind) = some k := by
  cases k <;> rfl

theorem ContainerKind.decode_toJson (k : ContainerKind) :
    k.toJson.decode (.choice .containerKind) = some k := by
  cases k <;> rfl

theorem Method.decode_toJson (m : Method) : m.toJson.decode (.record .method) = some m := by
  have hparams := Json.decode_list (s := .record .param) Param.decode_toJson m.params
  have hkind := m.kind.decode_toJson
  refine Json.decode_record .method (m.name, m.returnType, m.params, m.kind, ()) ?_
  refine Values.ofMembers_cons rfl (Values.ofMembers_cons rfl (Values.ofMembers_cons ?_
    (Values.ofMembers_cons ?_ rfl)))
  · exact hparams
  · exact hkind

theorem Container.decode_toJson (c : Container) :
    c.toJson.decode (.record .container) = some c := by
  obtain ⟨name, properties, methods, isInterface, categories⟩ := c
  have hproperties := Json.decode_list (s := .record .property) Property.decode_toJson properties
  have hmethods := Json.decode_list (s := .record .method) Method.decode_toJson methods
  have hcategories : (Json.array (categories.map .string)).decode (.list .text) =
      some categories :=
    Json.decode_list (s := .text) (fun _ => rfl) categories
  refine Json.decode_record .container
    (name, properties, methods, isInterface, categories, ()) ?_
  -- an empty list of categories is left out
  cases categories <;>
  · refine Values.ofMembers_cons rfl (Values.ofMembers_cons ?_ (Values.ofMembers_cons ?_
      (Values.ofMembers_cons rfl (Values.ofMembers_cons ?_ rfl))))
    · exact hproperties
    · exact hmethods
    · exact hcategories

theorem Package.decode_toJson (p : Package) : p.toJson.decode (.record .package) = some p := by
  obtain ⟨format, version, name, source, generatedAt, bundleHash, containers⟩ := p
  have hcontainers := Json.decode_list (s := .record .container) Container.decode_toJson containers
  refine Json.decode_record .package
    (format, version, name, source, generatedAt, bundleHash, containers, ()) ?_
  cases format <;>
  · refine Values.ofMembers_cons rfl (Values.ofMembers_cons rfl (Values.ofMembers_cons ?_
      (Values.ofMembers_cons ?_ (Values.ofMembers_cons rfl (Values.ofMembers_cons ?_
        (Values.ofMembers_cons ?_ rfl))))))
    · exact Json.slot_optional name
    · exact Json.slot_optional source
    · exact Json.slot_optional bundleHash
    · exact hcontainers

/-! ## Reports -/

namespace Tally

/-- A name after all others is entered at the end. -/
theorem alterEntries_last {entries : List (String × Nat)} {name : String}
    (h : ∀ e ∈ entries, e.1 < name) (f : Nat → Nat) :
    alterEntries name f entries = entries ++ [(name, f 0)] := by
  induction entries with
  | nil => rfl
  | cons e entries ih =>
    obtain ⟨hlt, hentries⟩ := List.forall_mem_cons.1 h
    rw [alterEntries, if_neg (String.lt_asymm hlt), if_pos hlt, ih hentries, List.cons_append]

/-- Every count fits into 64 bits. -/
def Fits (t : Tally) : Prop :=
  ∀ e ∈ t.entries, e.2 < Nat.pow 2 64

/-- Entering the entries that are left gives the whole tally. -/
theorem ofMembers_entries {t : Tally} (hfits : t.Fits) {seen left : List (String × Nat)}
    (hentries : t.entries = seen ++ left) {before : Tally} (hbefore : before.entries = seen) :
    before.ofMembers (Json.memberReadings (left.map fun (name, n) => (name, .count n))) =
      some t := by
  induction left generalizing seen before with
  | nil => exact congrArg some (ext (by rw [hbefore, hentries, List.append_nil]))
  | cons e left ih =>
    obtain ⟨name, n⟩ := e
    have hmem : (name, n) ∈ t.entries := by
      rw [hentries]
      exact List.mem_append_right _ List.mem_cons_self
    have hsorted := t.sorted
    rw [Sorted, hentries, List.pairwise_append] at hsorted
    have hlast : (before.set name n).entries = seen ++ [(name, n)] := by
      change alterEntries name _ before.entries = _
      rw [hbefore]
      exact alterEntries_last (fun e he => hsorted.2.2 e he _ List.mem_cons_self) _
    have hnext := ih (by rw [hentries, List.append_assoc]; rfl) hlast
    change ((Json.count n).decode .count).bind _ = _
    rw [Json.decode_count (hfits _ hmem), Option.bind_some]
    exact hnext

theorem decode_toJson {t : Tally} (h : t.Fits) : t.toJson.decode .tally = some t :=
  ofMembers_entries h (List.nil_append _).symm rfl

end Tally

/-- Every count fits into 64 bits. -/
structure Counters.Fits (c : Counters) : Prop where
  interfaces : c.interfaces < Nat.pow 2 64
  categories : c.categories < Nat.pow 2 64
  protocols : c.protocols < Nat.pow 2 64
  properties : c.properties < Nat.pow 2 64
  methods : c.methods < Nat.pow 2 64
  unmodeled : c.unmodeled.Fits
  ignored : c.ignored.Fits

theorem Counters.decode_toJson {c : Counters} (h : c.Fits) :
    c.toJson.decode (.record .counters) = some c := by
  have hunmodeled := Tally.decode_toJson h.unmodeled
  have hignored := Tally.decode_toJson h.ignored
  refine Json.decode_record .counters (c.interfaces, c.categories, c.protocols, c.properties,
    c.methods, c.unmodeled, c.ignored, ()) ?_
  refine Values.ofMembers_cons ?_ (Values.ofMembers_cons ?_ (Values.ofMembers_cons ?_
    (Values.ofMembers_cons ?_ (Values.ofMembers_cons ?_ (Values.ofMembers_cons ?_
      (Values.ofMembers_cons ?_ rfl))))))
  · exact Json.decode_count h.interfaces
  · exact Json.decode_count h.categories
  · exact Json.decode_count h.protocols
  · exact Json.decode_count h.properties
  · exact Json.decode_count h.methods
  · exact hunmodeled
  · exact hignored

/-- Every count fits into 64 bits. -/
structure Report.Fits (r : Report) : Prop where
  containers : r.containers < Nat.pow 2 64
  interfaces : r.interfaces < Nat.pow 2 64
  protocols : r.protocols < Nat.pow 2 64
  counters : r.counters.Fits

theorem Report.decode_toJson {r : Report} (h : r.Fits) :
    r.toJson.decode (.record .report) = some r := by
  obtain ⟨source, containers, interfaces, protocols, counters⟩ := r
  have hcounters := Counters.decode_toJson h.counters
  refine Json.decode_record .report (source, containers, interfaces, protocols, counters, ()) ?_
  cases source <;>
  · refine Values.ofMembers_cons rfl (Values.ofMembers_cons ?_ (Values.ofMembers_cons ?_
      (Values.ofMembers_cons ?_ (Values.ofMembers_cons ?_ rfl))))
    · exact Json.decode_count h.containers
    · exact Json.decode_count h.interfaces
    · exact Json.decode_count h.protocols
    · exact hcounters

/-! ## All types -/

/-- Every value of the schema is read back from both of its texts, and a package
and a report from their rendering. -/
theorem reads_back :
    (∀ t : TypeRef, (Shape.record .typeRef).ReadsBack t.toJson t) ∧
    (∀ p : Param, (Shape.record .param).ReadsBack p.toJson p) ∧
    (∀ p : Property, (Shape.record .property).ReadsBack p.toJson p) ∧
    (∀ m : Method, (Shape.record .method).ReadsBack m.toJson m) ∧
    (∀ k : MethodKind, (Shape.choice .methodKind).ReadsBack k.toJson k) ∧
    (∀ k : ContainerKind, (Shape.choice .containerKind).ReadsBack k.toJson k) ∧
    (∀ c : Container, (Shape.record .container).ReadsBack c.toJson c) ∧
    (∀ p : Package, (Shape.record .package).ReadsBack p.toJson p ∧
      (Shape.record .package).parseOnly (.ofText (p.render .json)) = .ok p) ∧
    (∀ c : Counters, c.Fits → (Shape.record .counters).ReadsBack c.toJson c) ∧
    (∀ r : Report, r.Fits → (Shape.record .report).ReadsBack r.toJson r ∧
      (Shape.record .report).parseOnly (.ofText (r.render .json)) = .ok r) := by
  refine ⟨fun t => ?typeRef, fun p => ?param, fun p => ?property, fun m => ?method,
    fun k => ?methodKind, fun k => ?containerKind, fun c => ?container, fun p => ?package,
    fun c h => ?counters, fun r h => ?report⟩
  case typeRef => exact Shape.readsBack_of_decode t.decode_toJson
  case param => exact Shape.readsBack_of_decode p.decode_toJson
  case property => exact Shape.readsBack_of_decode p.decode_toJson
  case method => exact Shape.readsBack_of_decode m.decode_toJson
  case methodKind => exact Shape.readsBack_of_decode k.decode_toJson
  case containerKind => exact Shape.readsBack_of_decode k.decode_toJson
  case container => exact Shape.readsBack_of_decode c.decode_toJson
  case package =>
    have hback := Shape.readsBack_of_decode p.decode_toJson
    exact ⟨hback, hback.pretty⟩
  case counters => exact Shape.readsBack_of_decode (Counters.decode_toJson h)
  case report =>
    have hback := Shape.readsBack_of_decode (Report.decode_toJson h)
    exact ⟨hback, hback.pretty⟩

theorem reads_back_largest :
    let largest := 18446744073709551615
    let tally := (Tally.empty.set "EnumDecl" largest).set "" 0
    let report : Report :=
      ⟨none, largest, largest, 0, ⟨largest, 0, largest, 1, 2, tally, .empty⟩⟩
    report.Fits ∧
      (Shape.record .report).parseOnly (.ofText (report.render .json)) = .ok report := by
  intro largest tally report
  have htally : tally.Fits := by
    intro e he
    have hentries : tally.entries = [("", 0), ("EnumDecl", largest)] := rfl
    rw [hentries] at he
    rcases List.mem_cons.1 he with rfl | he
    · decide
    · rw [List.mem_singleton.1 he]
      decide
  have hfits : report.Fits :=
    ⟨by decide, by decide, by decide, by decide, by decide, by decide, by decide, by decide, htally,
      nofun⟩
  exact ⟨hfits, (reads_back.2.2.2.2.2.2.2.2.2 report hfits).2⟩

end HeaderSchema
