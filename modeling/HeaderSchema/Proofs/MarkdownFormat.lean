import HeaderSchema.Proofs.TextFormat

/-!
# What Markdown tells

The document is read back by its lines. A line with two hashes opens a container, and
nothing under it starts like that (`Container.isBlock_chapter`). Within a container, a
title with three hashes ends the categories, and the title of the methods ends the
properties (`Container.sameMarkdown_of_chapter`). The name of a property or of a
category, which has more of its line behind it, is read up to the second backtick; what
a line ends with needs no such care, whatever bars, commas and hashes it has. So two
packages have the same Markdown exactly if they have the same title, source and
containers, up to what is not shown (`markdown_tells_package`).
-/

namespace HeaderSchema

/-- The text can stand between backticks. -/
def IsCode (text : String) : Prop :=
  '\x60' ∉ text.toList ∧ IsLine text

instance (text : String) : Decidable (IsCode text) :=
  inferInstanceAs (Decidable (_ ∧ _))

/-! ## Members -/

structure Param.Inline (p : Param) : Prop where
  name : IsLine p.name
  type : IsLine p.type.name

structure Property.Inline (p : Property) : Prop where
  name : IsCode p.name
  type : IsLine p.type.name

structure Method.Inline (m : Method) : Prop where
  name : IsLine m.name
  returnType : IsLine m.returnType.name
  params : ∀ p ∈ m.params, p.Inline

/-- The row of a property in the table. -/
def Property.row (p : Property) : List Char :=
  "| `".toList ++ (p.name.toList ++ '\x60' :: (" | `".toList ++ (p.type.name.toList ++
    "` |".toList)))

/-- An item of a list that is put between backticks. -/
def codeItem (text : String) : List Char :=
  "- `".toList ++ (text.toList ++ ['\x60'])

def Method.item (m : Method) : List Char :=
  codeItem m.signature

theorem Property.row_injective {p q : Property} (hp : p.Inline) (hq : q.Inline)
    (h : p.row = q.row) : p = q := by
  obtain ⟨hname, hbehind⟩ := append_cons_inj_of_not_mem hp.name.1 hq.name.1
    (List.append_cancel_left h)
  have htype := List.append_cancel_right (List.append_cancel_left hbehind)
  cases p
  cases q
  rw [Property.mk.injEq]
  exact ⟨String.toList_injective hname, congrArg TypeRef.mk (String.toList_injective htype)⟩

theorem codeItem_injective : Function.Injective codeItem := fun _ _ h =>
  String.toList_injective (List.append_cancel_right (List.append_cancel_left h))

theorem Property.newline_not_mem_row {p : Property} (hp : p.Inline) : '\n' ∉ p.row := by
  have hname : '\n' ∉ p.name.toList := hp.name.2
  have htype : '\n' ∉ p.type.name.toList := hp.type
  simp [row, hname, htype]

theorem Method.newline_not_mem_item {m : Method} (hm : m.Inline) : '\n' ∉ m.item := by
  have hsigil : '\n' ≠ m.kind.sigil := by cases m.kind <;> decide
  have htype : '\n' ∉ m.returnType.name.toList := hm.returnType
  have hname : '\n' ∉ m.name.toList := hm.name
  have hparams : '\n' ∉ ", ".toList.intercalate
      (m.params.map fun p => p.name.toList ++ ':' :: ' ' :: p.type.name.toList) := by
    refine not_mem_intercalate (by decide) fun p hp => ?_
    have hname : '\n' ∉ p.name.toList := (hm.params p hp).name
    have htype : '\n' ∉ p.type.name.toList := (hm.params p hp).type
    simp [hname, htype]
  simpa [item, codeItem, signature, String.toList_intercalate, toString, Function.comp_def,
    hsigil, htype, hname] using hparams

/-! ## Categories -/

theorem toList_categoryMark {name : String} (h : name ≠ "") :
    (categoryMark name).toList = '\x60' :: (name.toList ++ ['\x60']) := by
  simp [categoryMark, h, toString]

/-- A category is read up to its second backtick, and a class extension has none. -/
theorem categoryMark_injective {a b : String} (ha : IsCode a) (hb : IsCode b) {xs ys : List Char}
    (h : (categoryMark a).toList ++ xs = (categoryMark b).toList ++ ys) : a = b ∧ xs = ys := by
  have hextension : categoryMark "" = "(extension)" := rfl
  -- an extension and a named category differ in their first character
  rcases eq_or_ne a "" with rfl | hanamed <;> rcases eq_or_ne b "" with rfl | hbnamed
  · exact ⟨rfl, List.append_cancel_left h⟩
  · rw [hextension, toList_categoryMark hbnamed] at h
    simp at h
  · rw [hextension, toList_categoryMark hanamed] at h
    simp at h
  · rw [toList_categoryMark hanamed, toList_categoryMark hbnamed] at h
    simp only [List.cons_append, List.append_assoc, List.nil_append, List.cons.injEq,
      true_and] at h
    obtain ⟨hname, hrest⟩ := append_cons_inj_of_not_mem ha.1 hb.1 h
    exact ⟨String.toList_injective hname, hrest⟩

/-- The line of the categories. -/
def categoriesLine (names : List String) : List Char :=
  "Categories: ".toList ++
    ", ".toList.intercalate (names.map fun name => (categoryMark name).toList)

theorem categoriesLine_injective {as bs : List String} (has : ∀ a ∈ as, IsCode a)
    (hbs : ∀ b ∈ bs, IsCode b) (hne : as ≠ []) (hne' : bs ≠ [])
    (h : categoriesLine as = categoriesLine bs) : as = bs := by
  -- with a separator in front of the first mark too, all marks are read alike
  have hmarks := congrArg (", ".toList ++ ·) (List.append_cancel_left h)
  simp only [append_intercalate _ hne, append_intercalate _ hne'] at hmarks
  refine eq_of_flatMap_eq (fun b => by simp) (fun a ha b hb xs ys heq => ?_) hmarks
  rw [List.append_assoc, List.append_assoc] at heq
  exact categoryMark_injective (has a ha) (hbs b hb) (List.append_cancel_left heq)

theorem newline_not_mem_categoriesLine {names : List String} (h : ∀ name ∈ names, IsCode name) :
    '\n' ∉ categoriesLine names := by
  refine List.not_mem_append (by decide) (not_mem_intercalate (by decide) fun name hname => ?_)
  rcases eq_or_ne name "" with rfl | hnamed
  · decide
  · have hline : '\n' ∉ name.toList := (h name hname).2
    simp [toList_categoryMark hnamed, hline]

/-! ## Items under a title -/

/-- Some items between their title and an empty line, if there are any. -/
def titled (title items : List (List Char)) : List (List Char) :=
  if items = [] then [] else title ++ (items ++ [[]])

theorem titled_injective {title items items' : List (List Char)}
    (h : titled title items = titled title items') : items = items' := by
  unfold titled at h
  split at h <;> split at h
  case isTrue.isTrue hnone hnone' => rw [hnone, hnone']
  case isTrue.isFalse => simp at h
  case isFalse.isTrue => simp at h
  case isFalse.isFalse => exact List.append_cancel_right (List.append_cancel_left h)

theorem mem_titled {title items : List (List Char)} {l : List Char}
    (h : l ∈ titled title items) : l ∈ title ∨ l ∈ items ∨ l = [] := by
  unfold titled at h
  split at h
  case isTrue => exact absurd h List.not_mem_nil
  case isFalse => simpa using h

theorem head?_titled {t l : List Char} {title items : List (List Char)}
    (h : l ∈ (titled (t :: title) items).head?) : l = t := by
  unfold titled at h
  split at h
  case isTrue => cases h
  case isFalse => exact (Option.some.inj h).symm

/-- What stands above the rows of the properties. -/
def propertyTitle : List (List Char) :=
  ["### Properties".toList, [], "| Property | Type |".toList, "|----------|------|".toList]

/-- What stands above the items of the methods. -/
def methodTitle : List (List Char) :=
  ["### Methods".toList, []]

/-! ## Containers -/

structure Container.Inline (c : Container) : Prop where
  name : IsLine c.name
  categories : ∀ name ∈ c.categories, IsCode name
  properties : ∀ p ∈ c.properties, p.Inline
  methods : ∀ m ∈ c.methods, m.Inline

/-- The two containers are shown alike: of a method its signature is shown. -/
structure Container.SameMarkdown (c d : Container) : Prop where
  kind : c.kind = d.kind
  name : c.name = d.name
  categories : c.categories = d.categories
  properties : c.properties = d.properties
  signatures : c.methods.map (·.signature) = d.methods.map (·.signature)

namespace Container

/-- The line of the container itself. -/
def heading (c : Container) : List Char :=
  "## ".toList ++ (c.kind.word.toList ++ ' ' :: '\x60' :: (c.name.toList ++ ['\x60']))

def categoryLines (c : Container) : List (List Char) :=
  if c.categories = [] then [] else [categoriesLine c.categories, []]

def propertyLines (c : Container) : List (List Char) :=
  titled propertyTitle (c.properties.map Property.row)

def methodLines (c : Container) : List (List Char) :=
  titled methodTitle (c.methods.map Method.item)

/-- A container with all that stands under its heading. -/
def chapter (c : Container) : List Char × List (List Char) :=
  (c.heading, [] :: (c.categoryLines ++ (c.propertyLines ++ c.methodLines)))

theorem toList_categoriesMarkdown (c : Container) :
    c.categoriesMarkdown.toList = Lines.text c.categoryLines := by
  unfold categoriesMarkdown categoryLines categoriesLine
  by_cases hnone : c.categories = []
  · simp [hnone, Lines.text]
  · simp [hnone, Lines.text, String.toList_intercalate, Function.comp_def]

theorem toList_propertiesMarkdown (c : Container) :
    c.propertiesMarkdown.toList = Lines.text c.propertyLines := by
  unfold propertiesMarkdown propertyLines propertyTitle titled
  by_cases hnone : c.properties = []
  · simp [hnone, Lines.text]
  · simp [hnone, Lines.text, Property.row, List.flatMap_map, toString]

theorem toList_methodsMarkdown (c : Container) :
    c.methodsMarkdown.toList = Lines.text c.methodLines := by
  unfold methodsMarkdown methodLines methodTitle titled
  by_cases hnone : c.methods = []
  · simp [hnone, Lines.text]
  · simp [hnone, Lines.text, Method.item, codeItem, List.flatMap_map]

theorem toList_toMarkdown (c : Container) :
    c.toMarkdown.toList = Lines.text (blockItems c.chapter) := by
  simp [toMarkdown, toList_categoriesMarkdown, toList_propertiesMarkdown, toList_methodsMarkdown,
    blockItems, chapter, heading, Lines.text, toString]

/-! ### Under a heading -/

theorem mem_categoryLines {c : Container} {l : List Char} (h : l ∈ c.categoryLines) :
    l = categoriesLine c.categories ∨ l = [] := by
  unfold categoryLines at h
  split at h
  case isTrue => exact absurd h List.not_mem_nil
  case isFalse => simpa using h

/-- What a line under the heading is. -/
inductive Under (c : Container) : List Char → Prop where
  | blank : Under c []
  | categories : Under c (categoriesLine c.categories)
  | title {l : List Char} (h : l ∈ propertyTitle ++ methodTitle) : Under c l
  | row {p : Property} (h : p ∈ c.properties) : Under c p.row
  | item {m : Method} (h : m ∈ c.methods) : Under c m.item

theorem under_of_mem_chapter {c : Container} {l : List Char} (h : l ∈ c.chapter.2) :
    c.Under l := by
  rcases List.mem_cons.1 h with rfl | h
  · exact .blank
  rcases List.mem_append.1 h with h | h
  · rcases mem_categoryLines h with rfl | rfl
    · exact .categories
    · exact .blank
  rcases List.mem_append.1 h with h | h
  · rcases mem_titled h with h | h | rfl
    · exact .title (List.mem_append_left _ h)
    · obtain ⟨p, hp, rfl⟩ := List.mem_map.1 h
      exact .row hp
    · exact .blank
  · rcases mem_titled h with h | h | rfl
    · exact .title (List.mem_append_right _ h)
    · obtain ⟨m, hm, rfl⟩ := List.mem_map.1 h
      exact .item hm
    · exact .blank

/-- A line under the heading is no heading. -/
theorem Under.not_heading {c : Container} {l : List Char} (h : c.Under l) :
    ¬"## ".toList <+: l := by
  cases h with
  | blank => decide
  | categories =>
    unfold categoriesLine
    simp
  | title h => exact (by decide : ∀ l ∈ propertyTitle ++ methodTitle, ¬"## ".toList <+: l) _ h
  | row h => simp [Property.row]
  | item h => simp [Method.item, codeItem]

theorem Under.newline_not_mem {c : Container} (hc : c.Inline) {l : List Char} (h : c.Under l) :
    '\n' ∉ l := by
  cases h with
  | blank => exact List.not_mem_nil
  | categories => exact newline_not_mem_categoriesLine hc.categories
  | title h => exact (by decide : ∀ l ∈ propertyTitle ++ methodTitle, '\n' ∉ l) _ h
  | row h => exact Property.newline_not_mem_row (hc.properties _ h)
  | item h => exact Method.newline_not_mem_item (hc.methods _ h)

theorem newline_not_mem_chapter {c : Container} (hc : c.Inline) {l : List Char}
    (hl : l ∈ blockItems c.chapter) : '\n' ∉ l := by
  rcases List.mem_cons.1 hl with rfl | hl
  · have hword : '\n' ∉ c.kind.word.toList := by cases c.kind <;> decide
    have hname : '\n' ∉ c.name.toList := hc.name
    simp [chapter, heading, hword, hname]
  · exact (under_of_mem_chapter hl).newline_not_mem hc

theorem isBlock_chapter (c : Container) : IsBlock (¬"## ".toList <+: ·) c.chapter :=
  ⟨fun h => h (List.prefix_append _ _), fun _ hl => (under_of_mem_chapter hl).not_heading⟩

/-! ### A chapter is read in one way -/

theorem heading_injective {c d : Container} (h : c.heading = d.heading) :
    c.kind = d.kind ∧ c.name = d.name := by
  obtain ⟨hkind, hbehind⟩ := append_cons_inj_of_not_mem c.kind.space_not_mem_word
    d.kind.space_not_mem_word (List.append_cancel_left h)
  have hname := List.append_cancel_right (List.cons_eq_cons.1 hbehind).2
  exact ⟨ContainerKind.word_injective hkind, String.toList_injective hname⟩

theorem categories_eq_of_lines {c d : Container} (hc : c.Inline) (hd : d.Inline)
    (h : c.categoryLines = d.categoryLines) : c.categories = d.categories := by
  unfold categoryLines at h
  split at h <;> split at h
  case isTrue.isTrue hnone hnone' => rw [hnone, hnone']
  case isTrue.isFalse => cases h
  case isFalse.isTrue => cases h
  case isFalse.isFalse hsome hsome' =>
    exact categoriesLine_injective hc.categories hd.categories hsome hsome'
      (List.cons_eq_cons.1 h).1

theorem not_title_of_mem_categoryLines {c : Container} :
    ∀ l ∈ c.categoryLines, ¬"### ".toList <+: l := by
  intro l hl
  rcases mem_categoryLines hl with rfl | rfl
  · unfold categoriesLine
    simp
  · decide

theorem title_of_mem_head?_members {c : Container} :
    ∀ l ∈ (c.propertyLines ++ c.methodLines).head?, "### ".toList <+: l := by
  intro l hl
  rw [List.head?_append, Option.mem_def, Option.or_eq_some_iff] at hl
  rcases hl with hl | ⟨-, hl⟩
  · rw [head?_titled hl]
    decide
  · rw [head?_titled hl]
    decide

theorem ne_methods_of_mem_propertyLines {c : Container} :
    ∀ l ∈ c.propertyLines, l ≠ "### Methods".toList := by
  intro l hl
  rcases mem_titled hl with hl | hl | rfl
  · exact (by decide : ∀ l ∈ propertyTitle, l ≠ "### Methods".toList) l hl
  · obtain ⟨p, -, rfl⟩ := List.mem_map.1 hl
    simp [Property.row]
  · decide

theorem sameMarkdown_of_chapter {c d : Container} (hc : c.Inline) (hd : d.Inline)
    (h : c.chapter = d.chapter) : c.SameMarkdown d := by
  obtain ⟨hheading, hunder⟩ := Prod.mk.inj h
  obtain ⟨hkind, hname⟩ := heading_injective hheading
  -- the categories end at the first title, the properties at the title of the methods
  obtain ⟨hcategories, hmembers⟩ := append_inj_of_head
    not_title_of_mem_categoryLines not_title_of_mem_categoryLines
    (fun l hl => not_not_intro (title_of_mem_head?_members l hl))
    (fun l hl => not_not_intro (title_of_mem_head?_members l hl)) (List.cons_eq_cons.1 hunder).2
  obtain ⟨hproperties, hmethods⟩ := append_inj_of_head
    ne_methods_of_mem_propertyLines ne_methods_of_mem_propertyLines
    (fun _ hl => not_not_intro (head?_titled hl))
    (fun _ hl => not_not_intro (head?_titled hl)) hmembers
  refine ⟨hkind, hname, categories_eq_of_lines hc hd hcategories, ?properties, ?signatures⟩
  case properties =>
    refine eq_of_map_eq (fun p hp q hq => ?_) (titled_injective hproperties)
    exact Property.row_injective (hc.properties p hp) (hd.properties q hq)
  case signatures =>
    refine List.map_injective_iff.2 codeItem_injective ?_
    rw [List.map_map, List.map_map]
    exact titled_injective hmethods

theorem SameMarkdown.toMarkdown_eq {c d : Container} (h : c.SameMarkdown d) :
    c.toMarkdown = d.toMarkdown := by
  have hitems : c.methods.map Method.item = d.methods.map Method.item := by
    have hmap := congrArg (List.map codeItem) h.signatures
    rwa [List.map_map, List.map_map] at hmap
  apply String.toList_injective
  rw [toList_toMarkdown, toList_toMarkdown, chapter, chapter, heading, heading, categoryLines,
    categoryLines, propertyLines, propertyLines, methodLines, methodLines, h.kind, h.name,
    h.categories, h.properties, hitems]

end Container

/-! ## Packages -/

/-- What the first line shows: the name of the package, if it has one. -/
def Package.title (p : Package) : String :=
  p.name.getD "Objective-C schema"

structure Package.Inline (p : Package) : Prop where
  name : ∀ name ∈ p.name, IsLine name
  source : ∀ source ∈ p.source, IsLine source
  containers : ∀ c ∈ p.containers, c.Inline

/-- The two packages are shown alike: their versions, times and digests are not shown. -/
structure Package.SameMarkdown (p q : Package) : Prop where
  title : p.title = q.title
  source : p.source = q.source
  containers : List.Forall₂ Container.SameMarkdown p.containers q.containers

namespace Package

def titleLine (p : Package) : List Char :=
  "# ".toList ++ p.title.toList

/-- The source and an empty line, if there is a source. -/
def sourceLines : Option String → List (List Char)
  | none => []
  | some source => ["**Source:** ".toList ++ source.toList, []]

/-- The line that counts the containers. -/
def countLine (p : Package) : List Char :=
  "**Containers:** ".toList ++ p.containers.length.repr.toList

def markdownLines (p : Package) : List (List Char) :=
  p.titleLine :: [] :: (sourceLines p.source ++
    p.countLine :: [] :: p.containers.flatMap fun c => blockItems c.chapter)

theorem toList_sourceMarkdown (p : Package) :
    p.sourceMarkdown.toList = Lines.text (sourceLines p.source) := by
  unfold sourceMarkdown sourceLines
  cases p.source with
  | none => rfl
  | some source => simp [Lines.text, toString]

theorem toList_toMarkdown (p : Package) : p.toMarkdown.toList = Lines.text p.markdownLines := by
  have hcontainers : p.containers.flatMap (fun c => c.toMarkdown.toList) =
      Lines.text (p.containers.flatMap fun c => blockItems c.chapter) := by
    rw [Lines.text_flatMap]
    simp only [Container.toList_toMarkdown]
  unfold toMarkdown markdownLines titleLine countLine
  simp [toList_sourceMarkdown, title, toString, hcontainers, List.flatMap_map, Lines.text_cons,
    Lines.text_append]

theorem newline_not_mem_titleLine {p : Package} (hp : p.Inline) : '\n' ∉ p.titleLine := by
  refine List.not_mem_append (by decide) ?_
  unfold title
  cases hname : p.name with
  | none => decide
  | some name => exact hp.name name hname

theorem newline_not_mem_sourceLines {source : Option String}
    (h : ∀ text ∈ source, IsLine text) : ∀ l ∈ sourceLines source, '\n' ∉ l := by
  cases source with
  | none => exact fun l hl => absurd hl List.not_mem_nil
  | some source =>
    have hline : '\n' ∉ source.toList := h source rfl
    exact List.forall_mem_cons.2 ⟨List.not_mem_append (by decide) hline,
      List.forall_mem_singleton.2 List.not_mem_nil⟩

theorem newline_not_mem_countLine (p : Package) : '\n' ∉ p.countLine := by
  refine List.not_mem_append (by decide) fun hmem => ?_
  rw [Nat.toList_repr] at hmem
  exact absurd (Nat.isDigit_of_mem_toDigits (by decide) (by decide) hmem) (by decide)

theorem newline_not_mem_markdownLines {p : Package} (hp : p.Inline) :
    ∀ l ∈ p.markdownLines, '\n' ∉ l := by
  intro l hl
  rcases List.mem_cons.1 hl with rfl | hl
  · exact newline_not_mem_titleLine hp
  rcases List.mem_cons.1 hl with rfl | hl
  · exact List.not_mem_nil
  rcases List.mem_append.1 hl with hl | hl
  · exact newline_not_mem_sourceLines hp.source l hl
  rcases List.mem_cons.1 hl with rfl | hl
  · exact p.newline_not_mem_countLine
  rcases List.mem_cons.1 hl with rfl | hl
  · exact List.not_mem_nil
  obtain ⟨c, hc, hl⟩ := List.mem_flatMap.1 hl
  exact Container.newline_not_mem_chapter (hp.containers c hc) hl

theorem sourceLines_injective : Function.Injective sourceLines := by
  intro a b h
  cases a with
  | none =>
    cases b with
    | none => rfl
    | some b => cases h
  | some a =>
    cases b with
    | none => cases h
    | some b =>
      obtain ⟨hline, -⟩ := List.cons_eq_cons.1 h
      rw [String.toList_injective (List.append_cancel_left hline)]

theorem not_count_of_mem_sourceLines {source : Option String} :
    ∀ l ∈ sourceLines source, ¬"**Containers:** ".toList <+: l := by
  cases source with
  | none => exact fun l hl => absurd hl List.not_mem_nil
  | some source =>
    exact List.forall_mem_cons.2 ⟨by simp, List.forall_mem_singleton.2 (by decide)⟩

theorem sameMarkdown_of_lines {p q : Package} (hp : p.Inline) (hq : q.Inline)
    (h : p.markdownLines = q.markdownLines) : p.SameMarkdown q := by
  -- the source, if there is one, ends where the containers are counted
  have hcount (p : Package) (ls : List (List Char)) :
      ∀ l ∈ (p.countLine :: ls).head?, ¬¬"**Containers:** ".toList <+: l := by
    intro l hl
    obtain rfl : p.countLine = l := Option.some.inj hl
    exact not_not_intro (List.prefix_append _ _)
  obtain ⟨htitle, hbehind⟩ := List.cons_eq_cons.1 h
  obtain ⟨hsource, hcounted⟩ := append_inj_of_head not_count_of_mem_sourceLines
    not_count_of_mem_sourceLines (hcount p _) (hcount q _) (List.cons_eq_cons.1 hbehind).2
  have hchapters := (List.cons_eq_cons.1 (List.cons_eq_cons.1 hcounted).2).2
  refine ⟨?title, sourceLines_injective hsource, ?containers⟩
  case title => exact String.toList_injective (List.append_cancel_left htitle)
  case containers =>
    refine forall₂_of_blocks (fun c _ => c.isBlock_chapter) (fun c _ => c.isBlock_chapter)
      (fun c hc d hd heq => ?_) hchapters
    exact Container.sameMarkdown_of_chapter (hp.containers c hc) (hq.containers d hd) heq

theorem SameMarkdown.toMarkdown_eq {p q : Package} (h : p.SameMarkdown q) :
    p.toMarkdown = q.toMarkdown := by
  have htitle : p.name.getD "Objective-C schema" = q.name.getD "Objective-C schema" := h.title
  have hcontainers : p.containers.map (·.toMarkdown) = q.containers.map (·.toMarkdown) :=
    map_eq_of_forall₂ (fun _ _ => Container.SameMarkdown.toMarkdown_eq) h.containers
  rw [toMarkdown, toMarkdown, sourceMarkdown, sourceMarkdown, htitle, h.source, hcontainers,
    h.containers.length_eq]

end Package

/-- **Markdown is faithful.** Two packages whose texts stay within their lines and
backticks have the same Markdown exactly if they have the same title and source, and
their containers are shown alike, one by one. -/
theorem markdown_tells_package {p q : Package} (hp : p.Inline) (hq : q.Inline) :
    p.render .markdown = q.render .markdown ↔ p.SameMarkdown q := by
  constructor
  · intro h
    have hlines : Lines.text p.markdownLines = Lines.text q.markdownLines := by
      rw [← p.toList_toMarkdown, ← q.toList_toMarkdown]
      exact congrArg String.toList h
    exact Package.sameMarkdown_of_lines hp hq
      (Lines.text_injective (Package.newline_not_mem_markdownLines hp)
        (Package.newline_not_mem_markdownLines hq) hlines)
  · exact Package.SameMarkdown.toMarkdown_eq

/-- A category named as class extensions are shown is told from a class extension. -/
theorem markdown_tells_package_extension :
    let package (category : String) : Package := ⟨none, "1", none, some "a.h", "now", none,
      [⟨"Foo", [⟨"a | b", ⟨"int | `c`"⟩⟩], [⟨"f:", ⟨"void"⟩, [⟨"x", ⟨"int, y: int"⟩⟩],
        .classMethod⟩], true, [category, "A, B"]⟩]⟩
    let p := package "(extension)"
    let q := package ""
    p.Inline ∧ q.Inline ∧ p.render .markdown ≠ q.render .markdown := by
  intro package p q
  have hinline (category : String) (hcategory : IsCode category) :
      (package category).Inline := by
    refine ⟨nofun, fun source hsource => ?source, fun c hc => ?container⟩
    case source =>
      obtain rfl := Option.some.inj hsource
      decide
    case container =>
      obtain rfl := List.mem_singleton.1 hc
      have hname : IsLine "Foo" := by decide
      refine ⟨hname, fun name hname => ?_, fun property hproperty => ?_, fun m hm => ?_⟩
      · rcases List.mem_cons.1 hname with rfl | hname
        · exact hcategory
        · obtain rfl := List.mem_singleton.1 hname
          decide
      · obtain rfl := List.mem_singleton.1 hproperty
        exact ⟨by decide, by decide⟩
      · obtain rfl := List.mem_singleton.1 hm
        refine ⟨by decide, by decide, fun param hparam => ?_⟩
        obtain rfl := List.mem_singleton.1 hparam
        exact ⟨by decide, by decide⟩
  have hp : p.Inline := hinline "(extension)" (by decide)
  have hq : q.Inline := hinline "" (by decide)
  refine ⟨hp, hq, fun h => ?_⟩
  cases ((markdown_tells_package hp hq).1 h).containers with
  | cons halike _ => exact absurd halike.categories (by decide)

end HeaderSchema
