import HeaderSchema.Extraction.Basic

/-!
# What a declaration owes and what it adds

Reading a top-level declaration checks fields and builds a contribution in one
go. Here the two are taken apart. `Node.obligations` lists, in document order,
the fields that have to be there; `Node.contribution` says what the declaration
adds if they are, and has no way to fail. Every reader then gives what it builds,
unless an obligation of its list is unmet: then the first of these is the fault
(`settle`). For a whole declaration this is `Contribution.ofNode_eq`.
-/

namespace HeaderSchema

/-! ## Kinds by their tags -/

/-- The tag of a kind that has one of its own. -/
def DeclKind.tag? : DeclKind → Option String
  | .translationUnit => some "TranslationUnitDecl"
  | .interface => some "ObjCInterfaceDecl"
  | .category => some "ObjCCategoryDecl"
  | .protocol => some "ObjCProtocolDecl"
  | .property => some "ObjCPropertyDecl"
  | .method => some "ObjCMethodDecl"
  | .parameter => some "ParmVarDecl"
  | .enumeration => some "EnumDecl"
  | .function => some "FunctionDecl"
  | .record => some "RecordDecl"
  | .typeAlias => some "TypedefDecl"
  | .variable => some "VarDecl"
  | .other => none

theorem DeclKind.ofTag_of_tag? {kind : DeclKind} {tag : String} (h : kind.tag? = some tag) :
    DeclKind.ofTag tag = kind := by
  cases kind <;> cases h <;> rfl

theorem DeclKind.tag?_ite {tag own : String} {kind rest : DeclKind} (hkind : kind.tag? = some own)
    (hrest : rest.tag? = some tag ∨ rest = .other) :
    (if tag = own then kind else rest).tag? = some tag ∨
      (if tag = own then kind else rest) = .other := by
  by_cases h : tag = own
  · rw [if_pos h, h]
    exact .inl hkind
  · rw [if_neg h]
    exact hrest

theorem DeclKind.tag?_ofTag (tag : String) :
    (DeclKind.ofTag tag).tag? = some tag ∨ DeclKind.ofTag tag = .other := by
  unfold ofTag
  repeat refine tag?_ite rfl ?_
  exact .inr rfl

/-- A tag of a kind of its own tells the nodes of that kind. -/
theorem Node.kind_eq_iff {node : Node} {tag : String} (kind : DeclKind)
    (h : kind.tag? = some tag) : node.kind = tag ↔ node.declKind = kind := by
  unfold Node.declKind
  constructor
  · rintro rfl
    exact DeclKind.ofTag_of_tag? h
  · intro hk
    rcases DeclKind.tag?_ofTag node.kind with ht | ht
    · rw [hk, h] at ht
      exact (Option.some.inj ht).symm
    · rw [hk] at ht
      rw [ht] at h
      cases h

/-! ## Obligations -/

/-- A field that a node has to have, and whether it is there. -/
structure Obligation where
  kind : String
  id : String
  field : RequiredField
  isMet : Bool
deriving Repr, DecidableEq

def Obligation.fault (o : Obligation) : MissingField :=
  ⟨o.kind, o.field, if o.id = "" then "<no id>" else o.id⟩

/-- The obligation of a node to have a field; an empty value will do. -/
def Node.owes {α : Type} (node : Node) (field : RequiredField) (value : Option α) : Obligation :=
  ⟨node.kind, node.id, field, value.isSome⟩

/-- The parameters of a method, implicit or not. -/
def Node.paramNodes (node : Node) : List Node :=
  node.inner.filter (·.kind = "ParmVarDecl")

def Node.memberObligations (node : Node) : List Obligation :=
  if node.kind = "ObjCPropertyDecl" then [node.owes .type node.type]
  else if node.kind = "ObjCMethodDecl" then
    node.owes .returnType node.returnType ::
      node.paramNodes.map fun param => param.owes .type param.type
  else []

/-- A child of a container declaration is looked at. -/
def ExtractOptions.keeps (options : ExtractOptions) (child : Node) : Bool :=
  !(options.skipImplicit && child.isImplicit)

/-- The children of a container declaration that are looked at. -/
def Node.memberNodes (options : ExtractOptions) (node : Node) : List Node :=
  node.inner.filter options.keeps

/-- What a top-level declaration owes, in document order. -/
def Node.obligations (options : ExtractOptions) (node : Node) : List Obligation :=
  let body := (node.memberNodes options).flatMap Node.memberObligations
  if node.kind = "ObjCInterfaceDecl" ∨ node.kind = "ObjCProtocolDecl" then
    node.owes .name node.name :: body
  else if node.kind = "ObjCCategoryDecl" then
    node.owes .interface node.interface ::
      node.owes .interfaceName (node.interface.bind (·.name)) :: body
  else []

/-- The value, unless an obligation is unmet: then the first of these is the
fault. -/
def settle {α : Type} (obligations : List Obligation) (value : α) : Except MissingField α :=
  match obligations.find? (!·.isMet) with
  | none => .ok value
  | some o => .error o.fault

section Settle
variable {α β : Type}

theorem settle_nil (value : α) : settle [] value = .ok value :=
  rfl

theorem settle_cons (o : Obligation) (obligations : List Obligation) (value : α) :
    settle (o :: obligations) value =
      if o.isMet then settle obligations value else .error o.fault := by
  unfold settle
  rw [List.find?_cons]
  cases o.isMet <;> rfl

/-- A reader after a reader owes what both owe, one after the other. -/
theorem settle_bind (first second : List Obligation) (value : α) (f : α → β) :
    (settle first value >>= fun x => settle second (f x)) =
      settle (first ++ second) (f value) := by
  induction first with
  | nil => rfl
  | cons o first ih =>
    rw [List.cons_append, settle_cons, settle_cons]
    cases o.isMet
    · rfl
    · exact ih

theorem settle_bind_ok (obligations : List Obligation) (value : α) (f : α → β) :
    (settle obligations value >>= fun x => .ok (f x)) = settle obligations (f value) := by
  have h := settle_bind obligations [] value f
  rwa [List.append_nil] at h

theorem settle_eq_ok (obligations : List Obligation) (value x : α) :
    settle obligations value = .ok x ↔ (∀ o ∈ obligations, o.isMet = true) ∧ value = x := by
  induction obligations with
  | nil => simp [settle_nil]
  | cons o obligations ih =>
    rw [settle_cons, List.forall_mem_cons]
    cases h : o.isMet <;> simp [ih]

theorem settle_eq_error (obligations : List Obligation) (value : α) (missing : MissingField) :
    settle obligations value = .error missing ↔
      ∃ o, obligations.find? (!·.isMet) = some o ∧ o.fault = missing := by
  unfold settle
  cases obligations.find? (!·.isMet) <;> simp

end Settle

theorem Node.owes_fault {α : Type} (node : Node) (field : RequiredField) (value : Option α) :
    (node.owes field value).fault = .of node field := by
  by_cases h : node.id = "" <;> simp [owes, Obligation.fault, MissingField.of, h]

/-- A required field goes first. -/
theorem Node.require_bind {α β : Type} (node : Node) (field : RequiredField) (value : Option α)
    (f : α → Except MissingField β) (obligations : List Obligation) (result : β)
    (h : ∀ x, value = some x → f x = settle obligations result) :
    (node.require field value >>= f) =
      settle (node.owes field value :: obligations) result := by
  rw [settle_cons, owes_fault]
  cases value with
  | none => rfl
  | some x => exact h x rfl

/-! ## What is added -/

/-- The spelling of a type; that of a missing one is not used. -/
def QualType.spelling (type : Option QualType) : TypeRef :=
  ⟨(type.map (·.qualType)).getD ""⟩

def Node.param (node : Node) : Param :=
  ⟨node.name.getD "", QualType.spelling node.type⟩

def Node.property (node : Node) : Property :=
  ⟨node.name.getD "", QualType.spelling node.type⟩

/-- The method that a node stands for: one of the class exactly when the node
says that it is not one of instances. -/
def Node.method (node : Node) : Method where
  name := node.name.getD ""
  returnType := QualType.spelling node.returnType
  params := node.paramNodes.map Node.param
  kind := if node.isInstance = some false then .classMethod else .instanceMethod

def Node.propertyNodes (options : ExtractOptions) (node : Node) : List Node :=
  (node.memberNodes options).filter (·.kind = "ObjCPropertyDecl")

def Node.methodNodes (options : ExtractOptions) (node : Node) : List Node :=
  (node.memberNodes options).filter (·.kind = "ObjCMethodDecl")

def Node.members (options : ExtractOptions) (node : Node) : Members where
  properties := (node.propertyNodes options).map Node.property
  methods := (node.methodNodes options).map Node.method

/-- The container that a top-level declaration is about: the one of its own name
for an interface or a protocol, and that of the extended interface for a
category. -/
def Node.target? (node : Node) : Option String :=
  if node.kind = "ObjCInterfaceDecl" ∨ node.kind = "ObjCProtocolDecl" then node.name
  else if node.kind = "ObjCCategoryDecl" then node.interface.bind (·.name)
  else none

/-- The tags of declarations that contribute to a container. -/
def containerTags : List String :=
  ["ObjCInterfaceDecl", "ObjCCategoryDecl", "ObjCProtocolDecl"]

/-- A declaration of any other kind is about no container. -/
theorem Node.mem_containerTags_of_target? (node : Node) {target : String}
    (h : node.target? = some target) : node.kind ∈ containerTags := by
  unfold target? at h
  simp only [containerTags, List.mem_cons, List.not_mem_nil, or_false]
  split at h
  · next hnamed => exact hnamed.imp_right .inr
  · split at h
    · next hcategory => exact .inr (.inl hcategory)
    · cases h

def Node.origin (node : Node) : Origin :=
  if node.kind = "ObjCInterfaceDecl" then .interface
  else if node.kind = "ObjCCategoryDecl" then .category (node.name.getD "")
  else .protocol

/-- The tags that are known at the top level but have no place in a schema. -/
def unmodeledTags : List String :=
  ["EnumDecl", "FunctionDecl", "RecordDecl", "TypedefDecl", "VarDecl"]

/-- What a top-level declaration adds if it meets its obligations. -/
def Node.contribution (options : ExtractOptions) (node : Node) : Contribution :=
  match node.target? with
  | some target => .container node.origin target (node.members options)
  | none => if node.kind ∈ unmodeledTags then .unmodeled node.kind else .ignored node.kind

/-! ## The readers, taken apart -/

theorem Param.ofNode_eq (node : Node) :
    Param.ofNode node = settle [node.owes .type node.type] node.param := by
  refine node.require_bind .type node.type _ [] node.param fun type htype => ?_
  simp [settle_nil, Node.param, QualType.spelling, QualType.toTypeRef, htype, pure, Except.pure]

theorem Param.listOfNodes_eq (nodes : List Node) :
    Param.listOfNodes nodes =
      settle ((nodes.filter (·.kind = "ParmVarDecl")).map fun param => param.owes .type param.type)
        ((nodes.filter (·.kind = "ParmVarDecl")).map Node.param) := by
  induction nodes with
  | nil => rfl
  | cons node nodes ih =>
    rw [Param.listOfNodes]
    by_cases h : node.kind = "ParmVarDecl"
    · have hk : node.declKind = .parameter := (Node.kind_eq_iff .parameter rfl).1 h
      rw [if_pos hk, List.filter_cons_of_pos (by simpa using h), Param.ofNode_eq, ih]
      simp only [pure, Except.pure, settle_bind_ok, settle_bind]
      rfl
    · have hk : node.declKind ≠ .parameter := fun hk => h ((Node.kind_eq_iff .parameter rfl).2 hk)
      rw [if_neg hk, List.filter_cons_of_neg (by simpa using h), ih]

def Node.member (node : Node) : Member :=
  if node.kind = "ObjCPropertyDecl" then .property node.property
  else if node.kind = "ObjCMethodDecl" then .method node.method
  else .ignored

theorem Member.ofNode_eq (node : Node) :
    Member.ofNode node = settle node.memberObligations node.member := by
  unfold Member.ofNode Node.memberObligations Node.member
  simp only [Node.kind_eq_iff .property rfl, Node.kind_eq_iff .method rfl]
  cases node.declKind with
  | property =>
    refine node.require_bind .type node.type _ [] (Member.property node.property)
      fun type htype => ?_
    simp [settle_nil, Node.property, QualType.spelling, QualType.toTypeRef, htype, pure,
      Except.pure]
  | method =>
    refine node.require_bind .returnType node.returnType _ _ (Member.method node.method)
      fun type htype => ?_
    rw [Param.listOfNodes_eq]
    simp only [pure, Except.pure, settle_bind_ok]
    simp [Node.method, Node.paramNodes, QualType.spelling, QualType.toTypeRef, htype,
      MethodKind.ofNode]
  | _ => rfl

def Members.ofMemberNodes (nodes : List Node) : Members :=
  ⟨(nodes.filter (·.kind = "ObjCPropertyDecl")).map Node.property,
    (nodes.filter (·.kind = "ObjCMethodDecl")).map Node.method⟩

theorem Members.ofMemberNodes_cons (node : Node) (nodes : List Node) :
    ofMemberNodes (node :: nodes) = .cons node.member (ofMemberNodes nodes) := by
  unfold ofMemberNodes Node.member
  rw [List.filter_cons, List.filter_cons]
  by_cases hp : node.kind = "ObjCPropertyDecl"
  · simp [hp, Members.cons]
  · by_cases hm : node.kind = "ObjCMethodDecl"
    · simp [hm, Members.cons]
    · simp [hp, hm, Members.cons]

theorem Members.ofNodes_eq (options : ExtractOptions) (nodes : List Node) :
    Members.ofNodes options nodes =
      settle ((nodes.filter options.keeps).flatMap Node.memberObligations)
        (ofMemberNodes (nodes.filter options.keeps)) := by
  induction nodes with
  | nil => rfl
  | cons node nodes ih =>
    rw [Members.ofNodes]
    cases hskip : options.skipImplicit && node.isImplicit with
    | true =>
      have hkeeps : ¬options.keeps node = true := by simp [ExtractOptions.keeps, hskip]
      rw [if_pos rfl, List.filter_cons_of_neg hkeeps, ih]
    | false =>
      have hkeeps : options.keeps node = true := by simp [ExtractOptions.keeps, hskip]
      rw [if_neg Bool.false_ne_true, List.filter_cons_of_pos hkeeps, Member.ofNode_eq, ih]
      simp only [pure, Except.pure, settle_bind_ok, settle_bind, List.flatMap_cons,
        ofMemberNodes_cons]

theorem Members.ofBody_eq (options : ExtractOptions) (body : Node) :
    Members.ofBody options body =
      settle ((body.memberNodes options).flatMap Node.memberObligations) (body.members options) :=
  Members.ofNodes_eq options body.inner

theorem Node.mem_unmodeledTags_iff (node : Node) :
    node.kind ∈ unmodeledTags ↔ node.declKind.isUnmodeled = true := by
  unfold unmodeledTags
  simp only [List.mem_cons, List.not_mem_nil, or_false,
    Node.kind_eq_iff .enumeration rfl, Node.kind_eq_iff .function rfl,
    Node.kind_eq_iff .record rfl, Node.kind_eq_iff .typeAlias rfl,
    Node.kind_eq_iff .variable rfl]
  cases node.declKind <;> decide

/-- **What a top-level declaration comes to**: its contribution, or the fault of
its first unmet obligation. -/
theorem Contribution.ofNode_eq (options : ExtractOptions) (node : Node) :
    Contribution.ofNode options node =
      settle (node.obligations options) (node.contribution options) := by
  unfold Contribution.ofNode Declaration.ofNode Node.obligations Node.contribution Node.target?
    Node.origin
  simp only [Node.kind_eq_iff .interface rfl, Node.kind_eq_iff .category rfl,
    Node.kind_eq_iff .protocol rfl, Node.mem_unmodeledTags_iff]
  cases node.declKind with
  | interface | protocol =>
    simp only [bind_assoc, pure_bind]
    refine node.require_bind .name node.name _ _ _ fun target htarget => ?_
    rw [Members.ofBody_eq]
    simp [pure, Except.pure, settle_bind_ok, htarget]
  | category =>
    simp only [bind_assoc, pure_bind]
    refine node.require_bind .interface node.interface _ _ _ fun interface hinterface => ?_
    rw [hinterface]
    refine node.require_bind .interfaceName interface.name _ _ _ fun target htarget => ?_
    rw [Members.ofBody_eq]
    simp [pure, Except.pure, settle_bind_ok, htarget]
  | _ => rfl

end HeaderSchema
