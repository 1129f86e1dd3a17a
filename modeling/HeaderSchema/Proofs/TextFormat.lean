import HeaderSchema.Proofs.Lines
import HeaderSchema.Render.Format

/-!
# What the plain text tells

The plain text has no marks but its line ends, its indents, and a colon or an
arrow behind a name. They are enough to read it back, if names are words and types
do not go over a line: the first word behind the indent ends a name, so properties
are told from methods, and parameters stand further in than both
(`Property.line_ne_opening`, `Param.line_ne_opening`). A method opens a block of its
parameters, and the empty line before it opens a container. So two packages have
the same plain text exactly if they have the same containers, up to what is not
shown (`text_tells_containers`).
-/

namespace HeaderSchema

/-- The text does not go over a line. -/
def IsLine (text : String) : Prop :=
  '\n' ∉ text.toList

/-- The text is a word, or it is empty. -/
def IsWord (text : String) : Prop :=
  ' ' ∉ text.toList ∧ IsLine text

instance (text : String) : Decidable (IsLine text) :=
  inferInstanceAs (Decidable (_ ∉ _))

instance (text : String) : Decidable (IsWord text) :=
  inferInstanceAs (Decidable (_ ∧ _))

/-- A name and what it is declared as. -/
def entry (name type : String) : List Char :=
  name.toList ++ [':'] ++ ' ' :: type.toList

theorem space_not_mem_name {name : String} (h : IsWord name) : ' ' ∉ name.toList ++ [':'] := by
  simp [h.1]

theorem entry_injective {name name' type type' : String} (hname : IsWord name)
    (hname' : IsWord name') (h : entry name type = entry name' type') :
    name = name' ∧ type = type' := by
  obtain ⟨hnames, htypes⟩ := append_cons_inj_of_not_mem (space_not_mem_name hname)
    (space_not_mem_name hname') h
  exact ⟨String.toList_injective (List.append_cancel_right hnames), String.toList_injective htypes⟩

theorem newline_not_mem_entry {name type : String} (hname : IsWord name) (htype : IsLine type) :
    '\n' ∉ entry name type := by
  have hname : '\n' ∉ name.toList := hname.2
  have htype : '\n' ∉ type.toList := htype
  simp [entry, hname, htype]

/-! ## Members -/

structure Param.Plain (p : Param) : Prop where
  name : IsWord p.name
  type : IsLine p.type.name

/-- A type that starts with an arrow would make the property look like a method. -/
structure Property.Plain (p : Property) : Prop where
  name : IsWord p.name
  type : IsLine p.type.name
  noArrow : ¬['-', '>', ' '] <+: p.type.name.toList

structure Method.Plain (m : Method) : Prop where
  name : IsWord m.name
  returnType : IsLine m.returnType.name
  params : ∀ p ∈ m.params, p.Plain

def Param.line (p : Param) : List Char :=
  ' ' :: ' ' :: ' ' :: ' ' :: entry p.name p.type.name

def Property.line (p : Property) : List Char :=
  ' ' :: ' ' :: entry p.name p.type.name

/-- The line of the method itself. -/
def Method.opening (m : Method) : List Char :=
  ' ' :: ' ' :: (m.name.toList ++ ' ' :: '-' :: '>' :: ' ' :: m.returnType.name.toList)

/-- The line of the method and those of its parameters. -/
def Method.block (m : Method) : List Char × List (List Char) :=
  (m.opening, m.params.map Param.line)

theorem Param.toList_toText (p : Param) : p.toText.toList = p.line ++ ['\n'] := by
  simp [Param.toText, Param.line, entry, toString]

theorem Property.toList_toText (p : Property) : p.toText.toList = p.line ++ ['\n'] := by
  simp [Property.toText, Property.line, entry, toString]

theorem Method.toList_toText (m : Method) :
    m.toText.toList = Lines.text (blockItems m.block) := by
  simp [Method.toText, blockItems, Method.block, Method.opening, Lines.text, toString,
    List.flatMap_map, Param.toList_toText]

theorem Param.line_injective {p q : Param} (hp : p.Plain) (hq : q.Plain) (h : p.line = q.line) :
    p = q := by
  simp only [Param.line, List.cons.injEq, true_and] at h
  obtain ⟨hname, htype⟩ := entry_injective hp.name hq.name h
  cases p
  cases q
  cases hname
  rw [Param.mk.injEq]
  exact ⟨rfl, congrArg TypeRef.mk htype⟩

theorem Property.line_injective {p q : Property} (hp : p.Plain) (hq : q.Plain)
    (h : p.line = q.line) : p = q := by
  simp only [Property.line, List.cons.injEq, true_and] at h
  obtain ⟨hname, htype⟩ := entry_injective hp.name hq.name h
  cases p
  cases q
  cases hname
  rw [Property.mk.injEq]
  exact ⟨rfl, congrArg TypeRef.mk htype⟩

theorem Method.opening_injective {m n : Method} (hm : m.Plain) (hn : n.Plain)
    (h : m.opening = n.opening) : m.name = n.name ∧ m.returnType = n.returnType := by
  simp only [Method.opening, List.cons.injEq, true_and] at h
  obtain ⟨hname, htype⟩ := append_cons_inj_of_not_mem hm.name.1 hn.name.1 h
  simp only [List.cons.injEq, true_and] at htype
  exact ⟨String.toList_injective hname, congrArg TypeRef.mk (String.toList_injective htype)⟩

/-- A property is not taken for a method: its type would start with an arrow. -/
theorem Property.line_ne_opening {p : Property} {m : Method} (hp : p.Plain) (hm : m.Plain) :
    p.line ≠ m.opening := by
  intro h
  simp only [Property.line, Method.opening, List.cons.injEq, true_and] at h
  obtain ⟨-, htype⟩ := append_cons_inj_of_not_mem (space_not_mem_name hp.name) hm.name.1 h
  exact hp.noArrow ⟨m.returnType.name.toList, htype.symm⟩

/-- A parameter is not taken for a method: the selector would be empty, and the
arrow would be a space. -/
theorem Param.line_ne_opening (p : Param) {m : Method} (hm : m.Plain) : p.line ≠ m.opening := by
  intro h
  simp only [Param.line, Method.opening, List.cons.injEq, true_and] at h
  have hnone : ' ' ∉ ([] : List Char) := List.not_mem_nil
  obtain ⟨-, hbehind⟩ := append_cons_inj_of_not_mem hnone hm.name.1 h
  simp at hbehind

/-- The two methods are shown alike: their kinds are not shown. -/
structure Method.SameText (m n : Method) : Prop where
  name : m.name = n.name
  returnType : m.returnType = n.returnType
  params : m.params = n.params

theorem Method.sameText_of_block {m n : Method} (hm : m.Plain) (hn : n.Plain)
    (h : m.block = n.block) : m.SameText n := by
  obtain ⟨hopening, hparams⟩ := Prod.mk.inj h
  obtain ⟨hname, htype⟩ := Method.opening_injective hm hn hopening
  refine ⟨hname, htype, eq_of_map_eq (fun p hp q hq => ?_) hparams⟩
  exact Param.line_injective (hm.params p hp) (hn.params q hq)

/-- None of the lines of the parameters looks like that of the method. -/
theorem Method.isBlock {m : Method} (hm : m.Plain) :
    IsBlock (fun l => ∃ p : Param, l = p.line) m.block := by
  refine ⟨?opens, ?inside⟩
  case opens =>
    rintro ⟨p, h⟩
    exact p.line_ne_opening hm h.symm
  case inside =>
    intro l hl
    obtain ⟨p, -, rfl⟩ := List.mem_map.1 hl
    exact ⟨p, rfl⟩

/-! ## Containers -/

structure Container.Plain (c : Container) : Prop where
  name : IsLine c.name
  properties : ∀ p ∈ c.properties, p.Plain
  methods : ∀ m ∈ c.methods, m.Plain

/-- The line of the container itself. -/
def Container.opening (c : Container) : List Char :=
  c.kind.word.toList ++ ' ' :: c.name.toList

def Container.lines (c : Container) : List (List Char) :=
  c.opening :: (c.properties.map Property.line ++
    c.methods.flatMap fun m => blockItems m.block)

theorem Container.toList_toText (c : Container) : c.toText.toList = Lines.text c.lines := by
  simp [Container.toText, Container.lines, Container.opening, Lines.text, toString,
    List.flatMap_map, List.flatMap_assoc, Property.toList_toText, Method.toList_toText]

theorem ContainerKind.word_injective {k l : ContainerKind}
    (h : k.word.toList = l.word.toList) : k = l := by
  cases k <;> cases l <;> first | rfl | exact absurd h (by decide)

theorem ContainerKind.space_not_mem_word (k : ContainerKind) : ' ' ∉ k.word.toList := by
  cases k <;> decide

/-- No line is empty or goes over its end. -/
theorem Container.proper_of_mem_lines {c : Container} (hc : c.Plain) {l : List Char}
    (hl : l ∈ c.lines) : l ≠ [] ∧ '\n' ∉ l := by
  rcases List.mem_cons.1 hl with rfl | hl
  · have hname : '\n' ∉ c.name.toList := hc.name
    have hword : '\n' ∉ c.kind.word.toList := by cases c.kind <;> decide
    simp [opening, hname, hword]
  rcases List.mem_append.1 hl with hl | hl
  · obtain ⟨p, hp, rfl⟩ := List.mem_map.1 hl
    have hp := hc.properties p hp
    simp [Property.line, newline_not_mem_entry hp.name hp.type]
  obtain ⟨m, hm, hl⟩ := List.mem_flatMap.1 hl
  have hm := hc.methods m hm
  rcases List.mem_cons.1 hl with rfl | hl
  · have hname : '\n' ∉ m.name.toList := hm.name.2
    have htype : '\n' ∉ m.returnType.name.toList := hm.returnType
    simp [Method.block, Method.opening, hname, htype]
  · obtain ⟨p, hp, rfl⟩ := List.mem_map.1 hl
    have hp := hm.params p hp
    simp [Param.line, newline_not_mem_entry hp.name hp.type]

/-- The two containers are shown alike: their categories are not shown. -/
structure Container.SameText (c d : Container) : Prop where
  kind : c.kind = d.kind
  name : c.name = d.name
  properties : c.properties = d.properties
  methods : List.Forall₂ Method.SameText c.methods d.methods

theorem Container.sameText_of_lines {c d : Container} (hc : c.Plain) (hd : d.Plain)
    (h : c.lines = d.lines) : c.SameText d := by
  -- the properties end where the first method opens
  have hproperty {c : Container} (hc : c.Plain) :
      ∀ l ∈ c.properties.map Property.line, ∃ p : Property, p.Plain ∧ l = p.line := by
    intro l hl
    obtain ⟨p, hp, rfl⟩ := List.mem_map.1 hl
    exact ⟨p, hc.properties p hp, rfl⟩
  have hmethod {c : Container} (hc : c.Plain) :
      ∀ m ∈ c.methods, ¬∃ p : Property, p.Plain ∧ m.block.1 = p.line := by
    rintro m hm ⟨p, hp, h⟩
    exact Property.line_ne_opening hp (hc.methods m hm) h.symm
  obtain ⟨hopening, hmembers⟩ := List.cons_eq_cons.1 h
  obtain ⟨hkind, hname⟩ := append_cons_inj_of_not_mem c.kind.space_not_mem_word
    d.kind.space_not_mem_word hopening
  obtain ⟨hproperties, hmethods⟩ := append_inj_of_head (hproperty hc) (hproperty hd)
    (not_of_mem_head?_blocks (hmethod hc)) (not_of_mem_head?_blocks (hmethod hd)) hmembers
  refine ⟨ContainerKind.word_injective hkind, String.toList_injective hname, ?properties,
    ?methods⟩
  case properties =>
    refine eq_of_map_eq (fun p hp q hq => ?_) hproperties
    exact Property.line_injective (hc.properties p hp) (hd.properties q hq)
  case methods =>
    refine forall₂_of_blocks (fun m hm => Method.isBlock (hc.methods m hm))
      (fun m hm => Method.isBlock (hd.methods m hm)) (fun m hm n hn => ?_) hmethods
    exact Method.sameText_of_block (hc.methods m hm) (hd.methods n hn)

theorem Method.SameText.toText_eq {m n : Method} (h : m.SameText n) : m.toText = n.toText := by
  rw [Method.toText, Method.toText, h.name, h.returnType, h.params]

theorem Container.SameText.toText_eq {c d : Container} (h : c.SameText d) :
    c.toText = d.toText := by
  have hmethods : c.methods.map (·.toText) = d.methods.map (·.toText) :=
    map_eq_of_forall₂ (fun _ _ => Method.SameText.toText_eq) h.methods
  rw [Container.toText, Container.toText, h.kind, h.name, h.properties, hmethods]

/-! ## Packages -/

def Package.Plain (p : Package) : Prop :=
  ∀ c ∈ p.containers, c.Plain

/-- A container with the empty line before it. -/
def Container.block (c : Container) : List Char × List (List Char) :=
  ([], c.lines)

/-- The lines of a package are those of its containers, but for the empty line
before the first one. -/
theorem Package.toList_toText {p : Package} (h : p.containers ≠ []) :
    '\n' :: p.toText.toList = Lines.text (p.containers.flatMap fun c => blockItems c.block) := by
  have htext (c : Container) :
      Lines.text (blockItems c.block) = '\n' :: c.toText.toList := by
    rw [c.toList_toText]
    rfl
  rw [Lines.text_flatMap, Package.toText, String.toList_intercalate, List.map_map]
  simp only [htext]
  exact append_intercalate ['\n'] h

theorem Package.toText_eq_empty_iff (p : Package) : p.toText = "" ↔ p.containers = [] := by
  refine ⟨fun h => ?_, fun h => by rw [Package.toText, h]; rfl⟩
  by_contra hne
  have htext := p.toList_toText hne
  obtain ⟨c, cs, hcs⟩ := List.exists_cons_of_ne_nil hne
  rw [h, hcs] at htext
  simp [blockItems, Container.block, Container.lines, Lines.text] at htext

theorem Container.isBlock {c : Container} (hc : c.Plain) : IsBlock (· ≠ []) c.block :=
  ⟨fun h => h rfl, fun _ hl => (Container.proper_of_mem_lines hc hl).1⟩

/-- **The plain text is unambiguous.** Two packages with plain names and types have
the same plain text exactly if their containers are shown alike, one by one. -/
theorem text_tells_containers {p q : Package} (hp : p.Plain) (hq : q.Plain) :
    p.render .text = q.render .text ↔
      List.Forall₂ Container.SameText p.containers q.containers := by
  have hlines {p : Package} (hp : p.Plain) :
      ∀ l ∈ p.containers.flatMap fun c => blockItems c.block, '\n' ∉ l := by
    intro l hl
    obtain ⟨c, hc, hl⟩ := List.mem_flatMap.1 hl
    rcases List.mem_cons.1 hl with rfl | hl
    · exact List.not_mem_nil
    · exact (Container.proper_of_mem_lines (hp c hc) hl).2
  constructor
  · intro h
    change p.toText = q.toText at h
    by_cases hnone : p.containers = []
    · have hempty : q.containers = [] := by
        rw [← q.toText_eq_empty_iff, ← h, p.toText_eq_empty_iff, hnone]
      rw [hnone, hempty]
      exact .nil
    · have hsome : q.containers ≠ [] := by
        rw [Ne, ← q.toText_eq_empty_iff, ← h, p.toText_eq_empty_iff]
        exact hnone
      have htext := p.toList_toText hnone
      rw [h, q.toList_toText hsome] at htext
      refine forall₂_of_blocks (fun c hc => Container.isBlock (hp c hc))
        (fun c hc => Container.isBlock (hq c hc))
        (fun c hc d hd heq => ?_) (Lines.text_injective (hlines hq) (hlines hp) htext).symm
      exact Container.sameText_of_lines (hp c hc) (hq d hd) (Prod.mk.inj heq).2
  · intro h
    have htexts : p.containers.map (·.toText) = q.containers.map (·.toText) := by
      rw [← List.forall₂_eq_eq_eq, List.forall₂_map_left_iff, List.forall₂_map_right_iff]
      exact h.imp fun _ _ => Container.SameText.toText_eq
    exact congrArg "\n".intercalate htexts

/-- An arrow without a space behind it is part of a property's type. -/
theorem text_tells_containers_arrow :
    let package (c : Container) : Package := ⟨none, "1", none, none, "now", none, [c]⟩
    let p := package ⟨"Foo", [⟨"a", ⟨"->b"⟩⟩], [], true, []⟩
    let q := package ⟨"Foo", [], [⟨"a:", ⟨"b"⟩, [⟨"", ⟨"c"⟩⟩], .classMethod⟩], true, ["Bar"]⟩
    p.Plain ∧ q.Plain ∧ p.render .text ≠ q.render .text := by
  intro package p q
  have hp : p.Plain := by
    intro c hc
    obtain rfl := List.mem_singleton.1 hc
    refine ⟨by decide, fun property hproperty => ?_, nofun⟩
    obtain rfl := List.mem_singleton.1 hproperty
    exact ⟨by decide, by decide, by decide⟩
  have hq : q.Plain := by
    intro c hc
    obtain rfl := List.mem_singleton.1 hc
    refine ⟨by decide, nofun, fun m hm => ?_⟩
    obtain rfl := List.mem_singleton.1 hm
    refine ⟨by decide, by decide, fun param hparam => ?_⟩
    obtain rfl := List.mem_singleton.1 hparam
    exact ⟨by decide, by decide⟩
  refine ⟨hp, hq, fun h => ?_⟩
  cases (text_tells_containers hp hq).1 h with
  | cons halike _ => exact absurd halike.properties (by decide)

end HeaderSchema
