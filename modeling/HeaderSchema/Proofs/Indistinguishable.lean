import HeaderSchema.Proofs.Conversion

/-!
# What a conversion cannot tell apart

A conversion looks at a small part of each declaration: the kind tag; for a
declaration of a container also its identifier, its name and what it extends; and
of its children the properties and the methods that are kept, with identifier,
name and spelled types. Everything else may differ: expanded types, children of
other kinds, nested declarations, whatever stands below an unmodelled one. Two
units that agree in that part, child by child, are converted alike
(`convert_of_same`).
-/

namespace HeaderSchema

/-- A type as it is spelled, if it is there; how it expands is left out. -/
def QualType.spelling? (type : Option QualType) : Option String :=
  type.map (·.qualType)

/-- Two properties or two parameters that a schema cannot tell apart. -/
structure Node.SameTyped (a b : Node) : Prop where
  id : a.id = b.id
  name : a.name = b.name
  type : QualType.spelling? a.type = QualType.spelling? b.type

/-- Two methods that a schema cannot tell apart. Of their children only the
parameters count. -/
structure Node.SameMethod (a b : Node) : Prop where
  id : a.id = b.id
  name : a.name = b.name
  returnType : QualType.spelling? a.returnType = QualType.spelling? b.returnType
  isClass : a.isInstance = some false ↔ b.isInstance = some false
  params : List.Forall₂ Node.SameTyped a.paramNodes b.paramNodes

/-- Two members of the same kind that a schema cannot tell apart. -/
inductive Node.SameMember (a b : Node) : Prop
  | property (ha : a.kind = "ObjCPropertyDecl") (hb : b.kind = "ObjCPropertyDecl")
      (same : a.SameTyped b)
  | method (ha : a.kind = "ObjCMethodDecl") (hb : b.kind = "ObjCMethodDecl")
      (same : a.SameMethod b)

/-- The children that a schema has a place for: properties and methods, without
the implicit ones if these are left out. -/
def Node.schemaNodes (options : ExtractOptions) (node : Node) : List Node :=
  (node.memberNodes options).filter fun child =>
    child.kind = "ObjCPropertyDecl" ∨ child.kind = "ObjCMethodDecl"

/-- Two top-level declarations that a schema cannot tell apart. Where they
contribute to no container, only the tag counts. -/
structure Node.SameDeclaration (options : ExtractOptions) (a b : Node) : Prop where
  kind : a.kind = b.kind
  id : a.kind ∈ containerTags → a.id = b.id
  name : a.kind ∈ containerTags → a.name = b.name
  /-- Whether there is an extended interface, and what its name is if it has one. -/
  interface : a.kind = "ObjCCategoryDecl" →
    a.interface.map (·.name) = b.interface.map (·.name)
  members : a.kind ∈ containerTags →
    List.Forall₂ Node.SameMember (a.schemaNodes options) (b.schemaNodes options)

/-! ## Members -/

theorem QualType.isSome_spelling? (type : Option QualType) :
    (QualType.spelling? type).isSome = type.isSome :=
  Option.isSome_map

theorem QualType.spelling_congr {s t : Option QualType}
    (h : QualType.spelling? s = QualType.spelling? t) :
    QualType.spelling s = QualType.spelling t := by
  unfold spelling
  exact congrArg (fun name => TypeRef.mk (name.getD "")) h

/-- What an obligation says of a field is whether it is there. -/
theorem Node.owes_congr {α β : Type} {a b : Node} (hkind : a.kind = b.kind) (hid : a.id = b.id)
    (field : RequiredField) {x : Option α} {y : Option β} (h : x.isSome = y.isSome) :
    a.owes field x = b.owes field y := by
  unfold owes
  rw [hkind, hid, h]

namespace Node.SameTyped

theorem isSome_type {a b : Node} (h : a.SameTyped b) : a.type.isSome = b.type.isSome := by
  rw [← QualType.isSome_spelling?, ← QualType.isSome_spelling?, h.type]

theorem param_eq {a b : Node} (h : a.SameTyped b) : a.param = b.param := by
  unfold param
  rw [h.name, QualType.spelling_congr h.type]

theorem property_eq {a b : Node} (h : a.SameTyped b) : a.property = b.property := by
  unfold property
  rw [h.name, QualType.spelling_congr h.type]

theorem map_param_eq {nodes nodes' : List Node} (h : List.Forall₂ Node.SameTyped nodes nodes') :
    nodes.map Node.param = nodes'.map Node.param := by
  induction h with
  | nil => rfl
  | cons hhead _ ih => rw [List.map_cons, List.map_cons, hhead.param_eq, ih]

/-- Nodes of one tag owe alike. -/
theorem map_owes_eq {nodes nodes' : List Node} (h : List.Forall₂ Node.SameTyped nodes nodes')
    {tag : String} (hnodes : ∀ node ∈ nodes, node.kind = tag)
    (hnodes' : ∀ node ∈ nodes', node.kind = tag) :
    (nodes.map fun param => param.owes .type param.type) =
      nodes'.map fun param => param.owes .type param.type := by
  induction h with
  | nil => rfl
  | cons hhead _ ih =>
    rw [List.forall_mem_cons] at hnodes hnodes'
    rw [List.map_cons, List.map_cons, ih hnodes.2 hnodes'.2,
      Node.owes_congr (hnodes.1.trans hnodes'.1.symm) hhead.id .type hhead.isSome_type]

end Node.SameTyped

namespace Node.SameMethod

theorem method_eq {a b : Node} (h : a.SameMethod b) : a.method = b.method := by
  unfold method
  rw [h.name, QualType.spelling_congr h.returnType, SameTyped.map_param_eq h.params]
  simp only [h.isClass]

theorem paramObligations_eq {a b : Node} (h : a.SameMethod b) :
    (a.paramNodes.map fun param => param.owes .type param.type) =
      b.paramNodes.map fun param => param.owes .type param.type := by
  have htag : ∀ node : Node, ∀ param ∈ node.paramNodes, param.kind = "ParmVarDecl" :=
    fun _ _ hparam => of_decide_eq_true (List.mem_filter.1 hparam).2
  exact SameTyped.map_owes_eq h.params (htag a) (htag b)

end Node.SameMethod

namespace Node.SameMember

theorem obligations_eq {a b : Node} (h : a.SameMember b) :
    a.memberObligations = b.memberObligations := by
  unfold memberObligations
  cases h with
  | property ha hb same =>
    rw [if_pos ha, if_pos hb, owes_congr (ha.trans hb.symm) same.id .type same.isSome_type]
  | method ha hb same =>
    have hreturn : a.returnType.isSome = b.returnType.isSome := by
      rw [← QualType.isSome_spelling?, ← QualType.isSome_spelling?, same.returnType]
    rw [if_neg (by rw [ha]; decide), if_pos ha, if_neg (by rw [hb]; decide), if_pos hb,
      owes_congr (ha.trans hb.symm) same.id .returnType hreturn, same.paramObligations_eq]

theorem member_eq {a b : Node} (h : a.SameMember b) : a.member = b.member := by
  unfold member
  cases h with
  | property ha hb same => rw [if_pos ha, if_pos hb, same.property_eq]
  | method ha hb same =>
    rw [if_neg (by rw [ha]; decide), if_pos ha, if_neg (by rw [hb]; decide), if_pos hb,
      same.method_eq]

end Node.SameMember

/-- A child of another kind owes nothing and is no member. -/
theorem Node.not_schemaNode {child : Node}
    (h : ¬(child.kind = "ObjCPropertyDecl" ∨ child.kind = "ObjCMethodDecl")) :
    child.memberObligations = [] ∧ child.member = .ignored := by
  rw [not_or] at h
  unfold memberObligations member
  rw [if_neg h.1, if_neg h.2, if_neg h.1, if_neg h.2]
  exact ⟨rfl, rfl⟩

/-- What the children of a declaration come to is up to its properties and
methods. -/
theorem Node.schemaNodes_suffice (options : ExtractOptions) (node : Node) :
    (node.memberNodes options).flatMap Node.memberObligations =
        (node.schemaNodes options).flatMap Node.memberObligations ∧
      node.members options = Members.ofMemberNodes (node.schemaNodes options) := by
  unfold schemaNodes
  change _ ∧ Members.ofMemberNodes (node.memberNodes options) = _
  induction node.memberNodes options with
  | nil => exact ⟨rfl, rfl⟩
  | cons child children ih =>
    rw [List.flatMap_cons, Members.ofMemberNodes_cons, ih.1, ih.2]
    by_cases h : child.kind = "ObjCPropertyDecl" ∨ child.kind = "ObjCMethodDecl"
    · rw [List.filter_cons_of_pos (by simpa using h), List.flatMap_cons,
        Members.ofMemberNodes_cons]
      exact ⟨rfl, rfl⟩
    · rw [List.filter_cons_of_neg (by simpa using h), (Node.not_schemaNode h).1,
        (Node.not_schemaNode h).2]
      exact ⟨rfl, rfl⟩

theorem Node.sameMembers_suffice {nodes nodes' : List Node}
    (h : List.Forall₂ Node.SameMember nodes nodes') :
    nodes.flatMap Node.memberObligations = nodes'.flatMap Node.memberObligations ∧
      Members.ofMemberNodes nodes = Members.ofMemberNodes nodes' := by
  induction h with
  | nil => exact ⟨rfl, rfl⟩
  | cons hhead _ ih =>
    rw [List.flatMap_cons, List.flatMap_cons, Members.ofMemberNodes_cons,
      Members.ofMemberNodes_cons, hhead.obligations_eq, hhead.member_eq, ih.1, ih.2]
    exact ⟨rfl, rfl⟩

/-! ## Declarations -/

namespace Node.SameDeclaration

variable {options : ExtractOptions} {a b : Node} (h : a.SameDeclaration options b)
include h

theorem body_eq (hcontainer : a.kind ∈ containerTags) :
    (a.memberNodes options).flatMap Node.memberObligations =
        (b.memberNodes options).flatMap Node.memberObligations ∧
      a.members options = b.members options := by
  have hsame := Node.sameMembers_suffice (h.members hcontainer)
  rw [(a.schemaNodes_suffice options).1, (b.schemaNodes_suffice options).1,
    (a.schemaNodes_suffice options).2, (b.schemaNodes_suffice options).2]
  exact hsame

theorem interfaceName_eq (hcategory : a.kind = "ObjCCategoryDecl") :
    a.interface.isSome = b.interface.isSome ∧
      a.interface.bind (·.name) = b.interface.bind (·.name) := by
  have hinterface := h.interface hcategory
  cases ha : a.interface <;> cases hb : b.interface <;> rw [ha, hb] at hinterface
  · exact ⟨rfl, rfl⟩
  · cases hinterface
  · cases hinterface
  · exact ⟨rfl, Option.some.inj hinterface⟩

theorem obligations_eq : a.obligations options = b.obligations options := by
  unfold obligations
  rw [← h.kind]
  by_cases hnamed : a.kind = "ObjCInterfaceDecl" ∨ a.kind = "ObjCProtocolDecl"
  · have hcontainer : a.kind ∈ containerTags := by
      rcases hnamed with hk | hk <;> rw [hk] <;> decide
    rw [if_pos hnamed, if_pos hnamed, (h.body_eq hcontainer).1,
      owes_congr h.kind (h.id hcontainer) .name (congrArg Option.isSome (h.name hcontainer))]
  · rw [if_neg hnamed, if_neg hnamed]
    by_cases hcategory : a.kind = "ObjCCategoryDecl"
    · have hcontainer : a.kind ∈ containerTags := by rw [hcategory]; decide
      have hname := h.interfaceName_eq hcategory
      rw [if_pos hcategory, if_pos hcategory, (h.body_eq hcontainer).1,
        owes_congr h.kind (h.id hcontainer) .interface hname.1,
        owes_congr h.kind (h.id hcontainer) .interfaceName (congrArg Option.isSome hname.2)]
    · rw [if_neg hcategory, if_neg hcategory]

theorem target?_eq : a.target? = b.target? := by
  unfold target?
  rw [← h.kind]
  by_cases hnamed : a.kind = "ObjCInterfaceDecl" ∨ a.kind = "ObjCProtocolDecl"
  · rw [if_pos hnamed, if_pos hnamed]
    exact h.name (by rcases hnamed with hk | hk <;> rw [hk] <;> decide)
  · rw [if_neg hnamed, if_neg hnamed]
    by_cases hcategory : a.kind = "ObjCCategoryDecl"
    · rw [if_pos hcategory, if_pos hcategory]
      exact (h.interfaceName_eq hcategory).2
    · rw [if_neg hcategory, if_neg hcategory]

theorem contribution_eq : a.contribution options = b.contribution options := by
  unfold contribution
  rw [← h.target?_eq, ← h.kind]
  cases htarget : a.target? with
  | none => rfl
  | some target =>
    have hcontainer := a.mem_containerTags_of_target? htarget
    have horigin : a.origin = b.origin := by
      unfold origin
      rw [h.kind, h.name hcontainer]
    rw [horigin, (h.body_eq hcontainer).2]

end Node.SameDeclaration

namespace Extraction

/-- **Everything else is irrelevant.** Two units whose children cannot be told
apart are converted alike, from any state: the same registry, the same counters
and the same success or fault. -/
theorem convert_of_same (options : ExtractOptions) (e : Extraction) {a b : Node}
    (ha : a.kind = "TranslationUnitDecl") (hb : b.kind = "TranslationUnitDecl")
    (h : List.Forall₂ (Node.SameDeclaration options) a.inner b.inner) :
    e.convert options a = e.convert options b := by
  have hkind := fun node => (@Node.kind_eq_iff node _ .translationUnit rfl).1
  unfold convert
  rw [if_pos (hkind a ha), if_pos (hkind b hb)]
  refine absorbAll_congr e (h.imp fun a b hsame => ?_)
  rw [Contribution.ofNode_eq, Contribution.ofNode_eq, hsame.obligations_eq, hsame.contribution_eq]

/-- A category with an instance variable, an implicit property without a type, a
method with a body and an expanded type, and the same category without all that. -/
theorem convert_of_same_pruned :
    let method (expanded : Option String) (body : List Node) : Node :=
      { Node.ofKind "ObjCMethodDecl" with
        name := some "run", returnType := some ⟨"BOOL", expanded⟩, inner := body }
    let accessor : Node := { Node.ofKind "ObjCPropertyDecl" with isImplicit := true }
    let category (interface : Node) (inner : List Node) : Node :=
      { Node.ofKind "ObjCCategoryDecl" with interface := some interface, inner := inner }
    let interface : Node := { Node.ofKind "ObjCInterfaceDecl" with name := some "Foo" }
    let full : Node :=
      { Node.ofKind "TranslationUnitDecl" with
        inner := [
          category { interface with id := "0x1", inner := [accessor] }
            [Node.ofKind "ObjCIvarDecl", accessor,
              method (some "bool") [Node.ofKind "CompoundStmt", interface]],
          { Node.ofKind "EnumDecl" with inner := [interface] }] }
    let pruned : Node :=
      { Node.ofKind "TranslationUnitDecl" with
        inner := [category interface [method none []], Node.ofKind "EnumDecl"] }
    let e := (empty.convert ⟨true⟩ pruned).1
    (full.kind = "TranslationUnitDecl" ∧ pruned.kind = "TranslationUnitDecl" ∧
      List.Forall₂ (Node.SameDeclaration ⟨true⟩) full.inner pruned.inner) ∧
      e.convert ⟨true⟩ full = e.convert ⟨true⟩ pruned := by
  intro method accessor category interface full pruned e
  have hmethod : (method (some "bool") [Node.ofKind "CompoundStmt", interface]).SameMember
      (method none []) := .method rfl rfl ⟨rfl, rfl, rfl, Iff.rfl, .nil⟩
  have hsame : List.Forall₂ (Node.SameDeclaration ⟨true⟩) full.inner pruned.inner := by
    refine .cons ⟨rfl, fun _ => rfl, fun _ => rfl, fun _ => rfl, fun _ => ?_⟩
      (.cons ⟨rfl, fun _ => rfl, fun _ => rfl, fun _ => rfl, fun h => ?_⟩ .nil)
    · exact .cons hmethod .nil
    · exact absurd h (by decide)
  exact ⟨⟨rfl, rfl, hsame⟩, convert_of_same ⟨true⟩ e rfl rfl hsame⟩

end Extraction

end HeaderSchema
