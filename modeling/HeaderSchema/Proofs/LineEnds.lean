import HeaderSchema.CommandLine.Program
import HeaderSchema.Proofs.MarkdownFormat

/-!
# How renderings end

The plain text and Markdown end with a line end, if they hold anything. JSON ends
with a brace. YAML ends as the text that stands last in it, and that is the name of
a category if there is one: a name that is written as a literal block ends the
document with its own last character, which may be a separator of lines or of
paragraphs (`Yaml.getLast?_scalarLine_iff`). So `Package.unended_render_iff` says which
renderings do not end with a line end, and `Package.render_eq_empty_iff` which are
empty.
-/

namespace HeaderSchema

/-- The text ends with a line end, which is a line feed. -/
def EndsLine (text : String) : Prop :=
  text.toList.getLast? = some '\n'

instance (text : String) : Decidable (EndsLine text) :=
  inferInstanceAs (Decidable (_ = _))

theorem endLine_eq (text : String) :
    endLine text = text ++ if text ≠ "" ∧ ¬EndsLine text then "\n" else "" := by
  unfold endLine
  by_cases hempty : text = ""
  · simp [hempty]
  · by_cases hends : EndsLine text
    · have hlast : text.toList.getLast? = some '\n' := hends
      simp [hends, hlast]
    · have hlast : text.toList.getLast? ≠ some '\n' := hends
      simp [hempty, hends, hlast]

/-! ## Plain text, Markdown and JSON -/

theorem Package.endsLine_toText {p : Package} (h : p.containers ≠ []) : EndsLine p.toText := by
  have htext := congrArg List.getLast? (p.toList_toText h)
  have hlines : (p.containers.flatMap fun c => blockItems c.block) ≠ [] := by
    obtain ⟨c, cs, hcs⟩ := List.exists_cons_of_ne_nil h
    simp [hcs, blockItems]
  have hsome : p.toText.toList ≠ [] := by
    intro hnil
    have hempty : p.toText = "" := String.toList_injective hnil
    exact h (p.toText_eq_empty_iff.1 hempty)
  rw [Lines.getLast?_text hlines, List.getLast?_cons_of_ne_nil hsome] at htext
  exact htext

theorem Package.endsLine_toMarkdown (p : Package) : EndsLine p.toMarkdown := by
  unfold EndsLine
  rw [p.toList_toMarkdown]
  exact Lines.getLast?_text (List.cons_ne_nil _ _)

theorem Json.getLast?_prettyMembers (depth : Nat) (ms : List (String × Json)) :
    (prettyMembers depth ms).getLast? = some '\x7d' := by
  induction ms with
  | nil => simp [prettyMembers, List.getLast?_append]
  | cons m ms ih =>
    obtain ⟨k, x⟩ := m
    rw [prettyMembers]
    simp [List.getLast?_cons, List.getLast?_append, ih]

theorem Json.getLast?_pretty_object (ms : List (String × Json)) :
    (Json.object ms).pretty.toList.getLast? = some '\x7d' := by
  rw [pretty, String.toList_ofList]
  cases ms with
  | nil => rfl
  | cons m ms =>
    obtain ⟨k, x⟩ := m
    rw [prettyChars]
    simp [List.getLast?_cons, List.getLast?_append, getLast?_prettyMembers]

/-! ## YAML -/

namespace Yaml

/-- The text is written as a literal block, and ends with a separator of lines or of
paragraphs. -/
def EndsOpen (text : String) : Prop :=
  style text.toList = .literal ∧
    (text.toList.getLast? = some '\u2028' ∨ text.toList.getLast? = some '\u2029')

/-- The only line breaks that a literal block can hold. -/
theorem eq_of_isBreak {c : Char} (hbreak : isBreak c = true) (hspecial : isSpecial c = false) :
    c = '\n' ∨ c = '\u2028' ∨ c = '\u2029' := by
  simp only [isBreak, Bool.or_eq_true, beq_iff_eq] at hbreak
  rcases hbreak with (((rfl | rfl) | rfl) | rfl) | rfl
  · exact absurd hspecial (by decide)
  · exact .inl rfl
  · exact absurd hspecial (by decide)
  · exact .inr (.inl rfl)
  · exact .inr (.inr rfl)

theorem getLast?_indented (indent : Nat) (atStart : Bool) (cs : List Char) :
    (indented indent (fun c => [c]) atStart cs).getLast? = cs.getLast? := by
  induction cs generalizing atStart with
  | nil => rfl
  | cons c cs ih =>
    rw [indented]
    split
    · rw [List.getLast?_cons, List.getLast?_cons, ih]
    · rw [List.getLast?_append, ih, List.getLast?_append, List.getLast?_singleton,
        Option.some_or, List.getLast?_cons]
      cases cs.getLast? <;> rfl

theorem getLast?_literal (indent : Nat) {cs : List Char} (h : cs ≠ []) :
    (literal indent cs).getLast? = cs.getLast? := by
  have hlast := List.getLast?_eq_some_getLast h
  simp [literal, List.getLast?_cons, List.getLast?_append, getLast?_indented, hlast]

theorem style_eq_literal {cs : List Char} (h : style cs = .literal) :
    cs ≠ [] ∧ cs.any isSpecial = false := by
  unfold style at h
  split at h
  · next hline =>
    split at h
    · cases h
    · next hallowed =>
      rw [Bool.not_eq_true, literalRefused, Bool.or_eq_false_iff] at hallowed
      refine ⟨?_, hallowed.2⟩
      rintro rfl
      cases hline
  · split at h
    · split at h <;> cases h
    · cases h

/-- A scalar ends with a line feed, but for a literal block that ends with a separator. -/
theorem getLast?_scalarLine_iff (indent : Nat) (text : String) :
    (scalarLine indent text).getLast? = some '\n' ↔ ¬EndsOpen text := by
  unfold EndsOpen scalarLine
  dsimp only
  cases hstyle : style text.toList with
  | plain => simp
  | single => simp
  | double => simp
  | literal =>
    obtain ⟨hsome, hplain⟩ := style_eq_literal hstyle
    obtain ⟨last, hlast⟩ : ∃ last, text.toList.getLast? = some last :=
      ⟨_, List.getLast?_eq_some_getLast hsome⟩
    have hspecial : isSpecial last = false :=
      eq_false_of_ne_true (List.any_eq_false.1 hplain last (List.mem_of_getLast? hlast))
    simp only [endsWithBreak, hlast, Option.some.injEq, true_and]
    cases hbreak : isBreak last with
    | false =>
      have hother : ¬(last = '\u2028' ∨ last = '\u2029') := by
        rintro (rfl | rfl)
        · exact absurd hbreak (by decide)
        · exact absurd hbreak (by decide)
      simp [hother]
    | true =>
      rw [if_pos rfl, List.append_nil, getLast?_literal indent hsome, hlast, Option.some.injEq]
      rcases eq_of_isBreak hbreak hspecial with rfl | rfl | rfl <;> decide

theorem scalarLine_ne_nil (indent : Nat) (text : String) : scalarLine indent text ≠ [] := by
  unfold scalarLine
  dsimp only
  split
  · simp
  · simp
  · simp
  · simp [literal]

/-! ### What stands last -/

theorem items_append (indent : Nat) (xs ys : List Json) :
    items indent (xs ++ ys) = items indent xs ++ items indent ys := by
  induction xs with
  | nil => rfl
  | cons x xs ih => simp [items, ih]

theorem members_append (indent : Nat) (ms ns : List (String × Json)) :
    members indent (ms ++ ns) = members indent ms ++ members indent ns := by
  induction ms with
  | nil => rfl
  | cons m ms ih =>
    obtain ⟨k, x⟩ := m
    simp [members, ih]

theorem underDash_suffix_items (indent : Nat) (xs : List Json) (x : Json) :
    underDash indent x <:+ items indent (xs ++ [x]) := by
  refine ⟨items indent xs ++ (spaces indent ++ ['-']), ?_⟩
  simp [items_append, items]

theorem underKey_suffix_members (indent : Nat) (ms : List (String × Json)) (k : String)
    (x : Json) : underKey indent x <:+ members indent (ms ++ [(k, x)]) := by
  refine ⟨members indent ms ++ (spaces indent ++ key indent k), ?_⟩
  simp [members_append, members]

theorem underKey_array_nil (indent : Nat) : underKey indent (.array []) = " []\n".toList :=
  rfl

theorem underKey_array_ne_nil (indent : Nat) (xs : List Json) :
    underKey indent (.array xs) ≠ [] := by
  cases xs <;> nofun

theorem items_suffix_underKey (indent : Nat) {xs : List Json} (h : xs ≠ []) :
    items indent xs <:+ underKey indent (.array xs) := by
  obtain ⟨x, xs, rfl⟩ := List.exists_cons_of_ne_nil h
  exact ⟨['\n'], rfl⟩

theorem underDash_object_cons (indent : Nat) (k : String) (x : Json) (ms : List (String × Json)) :
    underDash indent (.object ((k, x) :: ms)) =
      ' ' :: (key (indent + 2) k ++ (underKey (indent + 2) x ++ members (indent + 2) ms)) :=
  rfl

theorem underKey_suffix_underDash (indent : Nat) (ms : List (String × Json)) (k : String)
    (x : Json) : underKey (indent + 2) x <:+ underDash indent (.object (ms ++ [(k, x)])) := by
  cases ms with
  | nil => exact ⟨' ' :: key (indent + 2) k, by simp [underDash_object_cons, members]⟩
  | cons m ms =>
    obtain ⟨first, y⟩ := m
    refine (underKey_suffix_members (indent + 2) ms k x).trans ?_
    exact ⟨' ' :: (key (indent + 2) first ++ underKey (indent + 2) y),
      by simp [underDash_object_cons]⟩

theorem underDash_object_ne_nil (indent : Nat) (ms : List (String × Json)) :
    underDash indent (.object ms) ≠ [] := by
  cases ms <;> nofun

/-- The last item of a list stands last under its key. -/
theorem underDash_suffix_underKey (indent : Nat) (xs : List Json) (x : Json) :
    underDash indent x <:+ underKey indent (.array (xs ++ [x])) :=
  (underDash_suffix_items indent xs x).trans (items_suffix_underKey indent (by simp))

end Yaml

/-- The name of a category stands last in the package, and it ends open. -/
def Package.EndsOpen (p : Package) : Prop :=
  ∃ c ∈ p.containers.getLast?, ∃ name ∈ c.categories.getLast?, Yaml.EndsOpen name

theorem getLast?_of_suffix {α : Type} {xs ys : List α} (h : xs <:+ ys) (hxs : xs ≠ []) :
    ys.getLast? = xs.getLast? := by
  obtain ⟨before, rfl⟩ := h
  exact List.getLast?_append_of_ne_nil before hxs

theorem Container.getLast?_underDash_iff (c : Container) :
    (Yaml.underDash 0 c.toJson).getLast? = some '\n' ↔
      ¬∃ name ∈ c.categories.getLast?, Yaml.EndsOpen name := by
  let members : List (String × Json) :=
    [("name", .string c.name), ("properties", .array (c.properties.map (·.toJson))),
      ("methods", .array (c.methods.map (·.toJson)))]
  rcases List.eq_nil_or_concat c.categories with hnone | ⟨before, name, hsome⟩
  · have hjson : c.toJson = .object (members ++ [("is_interface", .boolean c.isInterface)]) := by
      simp [toJson, members, hnone]
    have hsuffix := Yaml.underKey_suffix_underDash 0 members "is_interface" (.boolean c.isInterface)
    have hlast : (Yaml.underKey 2 (.boolean c.isInterface)).getLast? = some '\n' := by
      cases c.isInterface <;> rfl
    rw [hjson, getLast?_of_suffix hsuffix (by cases c.isInterface <;> nofun), hlast, hnone]
    simp
  · rw [List.concat_eq_append] at hsome
    have hjson : c.toJson = .object (members ++ [("is_interface", .boolean c.isInterface)] ++
        [("categories", .array (before.map .string ++ [.string name]))]) := by
      simp [toJson, members, hsome]
    have hsuffix : Yaml.scalarLine 2 name <:+ Yaml.underDash 0 c.toJson := by
      rw [hjson]
      refine .trans ?_ ((Yaml.underDash_suffix_underKey 2 (before.map .string) (.string name)).trans
        (Yaml.underKey_suffix_underDash 0 _ "categories" _))
      exact List.suffix_cons ' ' (Yaml.scalarLine 2 name)
    rw [getLast?_of_suffix hsuffix (Yaml.scalarLine_ne_nil 2 name),
      Yaml.getLast?_scalarLine_iff, hsome]
    simp

/-- The list of containers stands last in a package. -/
theorem Package.underKey_suffix_toYaml (p : Package) :
    Yaml.underKey 0 (Container.listToJson p.containers) <:+ p.toJson.toYaml.toList := by
  have hmembers : p.toJson = .object ((Yaml.topMembers p.toJson).dropLast ++
      [("containers", Container.listToJson p.containers)]) := by
    unfold toJson
    cases p.schemaVersion <;> rfl
  rw [hmembers, Json.toYaml, Yaml.document, String.toList_ofList]
  exact Yaml.underKey_suffix_members 0 _ "containers" _

theorem Package.endsLine_toYaml_iff (p : Package) :
    EndsLine p.toJson.toYaml ↔ ¬p.EndsOpen := by
  have hsuffix := p.underKey_suffix_toYaml
  unfold EndsLine EndsOpen
  rw [Container.listToJson] at hsuffix
  rcases List.eq_nil_or_concat p.containers with hnone | ⟨before, c, hsome⟩
  · rw [hnone] at hsuffix ⊢
    rw [List.map_nil, Yaml.underKey_array_nil] at hsuffix
    rw [getLast?_of_suffix hsuffix (by decide)]
    simp
  · rw [List.concat_eq_append] at hsome
    have hlast : Yaml.underDash 0 c.toJson <:+ p.toJson.toYaml.toList := by
      rw [hsome, List.map_append] at hsuffix
      exact (Yaml.underDash_suffix_underKey 0 _ c.toJson).trans hsuffix
    rw [getLast?_of_suffix hlast (Yaml.underDash_object_ne_nil 0 _), c.getLast?_underDash_iff,
      hsome]
    simp

/-! ## All formats -/

theorem Package.toJson_pretty_ne (p : Package) :
    p.toJson.pretty ≠ "" ∧ ¬EndsLine p.toJson.pretty := by
  have hlast : p.toJson.pretty.toList.getLast? = some '\x7d' := Json.getLast?_pretty_object _
  refine ⟨fun h => ?_, fun h => ?_⟩
  · rw [h] at hlast
    cases hlast
  · rw [EndsLine, hlast] at h
    exact absurd h (by decide)

theorem Package.toYaml_ne (p : Package) : p.toJson.toYaml ≠ "" := by
  intro h
  have hsuffix := p.underKey_suffix_toYaml
  rw [h] at hsuffix
  exact Yaml.underKey_array_ne_nil 0 _ (List.eq_nil_of_suffix_nil hsuffix)

theorem EndsLine.ne_empty {text : String} (h : EndsLine text) : text ≠ "" := by
  rintro rfl
  cases h

theorem Package.render_eq_empty_iff (p : Package) (format : Format) :
    p.render format = "" ↔ format = .text ∧ p.containers = [] := by
  cases format with
  | text => simp [render, p.toText_eq_empty_iff]
  | json => simp [render, p.toJson_pretty_ne.1]
  | yaml => simp [render, p.toYaml_ne]
  | markdown => simp [render, p.endsLine_toMarkdown.ne_empty]

/-- Which renderings say something and do not end with a line end. -/
theorem Package.unended_render_iff (p : Package) (format : Format) :
    p.render format ≠ "" ∧ ¬EndsLine (p.render format) ↔
      format = .json ∨ format = .yaml ∧ p.EndsOpen := by
  cases format with
  | text =>
    simp only [render, Ne, p.toText_eq_empty_iff]
    simp only [reduceCtorEq, false_and, or_self, iff_false, not_and, not_not]
    exact p.endsLine_toText
  | json => simp [render, p.toJson_pretty_ne]
  | yaml => simp [render, p.toYaml_ne, p.endsLine_toYaml_iff]
  | markdown => simp [render, p.endsLine_toMarkdown]

end HeaderSchema
