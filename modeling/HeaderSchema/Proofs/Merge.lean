import HeaderSchema.Proofs.Conversion
import HeaderSchema.Proofs.Registry
import Mathlib.Data.List.Basic

/-!
# Merging

What a conversion does to a registry, name by name. A declaration of a container
comes down to two edits of the container it is about: one for its origin and one
that appends its members (`Node.edits`). By the laws of the registry a container
then gets what the declarations about it have, in their order, and nothing else
(`convert_merges`).
-/

namespace HeaderSchema

/-! ## Declarations as edits -/

def Contribution.edits : Contribution → List (String × Edit)
  | .container origin target members => [(target, origin.edit), (target, .append members)]
  | .unmodeled _ | .ignored _ => []

/-- The changes that a declaration makes to a registry. -/
def Node.edits (options : ExtractOptions) (node : Node) : List (String × Edit) :=
  (node.contribution options).edits

/-- The changes that a declaration makes to the container that it is about. -/
def Node.ownEdits (options : ExtractOptions) (node : Node) : List Edit :=
  [node.origin.edit, .append (node.members options)]

theorem Node.edits_of_target {options : ExtractOptions} {node : Node} {target : String}
    (h : node.target? = some target) :
    node.edits options = (node.ownEdits options).map (target, ·) := by
  unfold edits contribution
  rw [h]
  rfl

theorem Node.edits_of_no_target {options : ExtractOptions} {node : Node}
    (h : node.target? = none) : node.edits options = [] := by
  unfold edits contribution
  rw [h]
  dsimp only
  split <;> rfl

theorem Extraction.registry_absorb (e : Extraction) (contribution : Contribution) :
    (e.absorb contribution).registry = e.registry.editAll contribution.edits := by
  cases contribution <;> rfl

theorem Extraction.registry_absorbNodes (options : ExtractOptions) (e : Extraction)
    (nodes : List Node) :
    (e.absorbNodes options nodes).registry =
      e.registry.editAll (nodes.flatMap (Node.edits options)) := by
  induction nodes generalizing e with
  | nil => rfl
  | cons node nodes ih =>
    rw [List.flatMap_cons, Registry.editAll_append, Node.edits, ← registry_absorb]
    exact ih _

namespace Registry

theorem editsOf_flatMap_edits (options : ExtractOptions) (name : String) (nodes : List Node) :
    editsOf name (nodes.flatMap (Node.edits options)) =
      (nodes.filter (·.target? = some name)).flatMap (Node.ownEdits options) := by
  induction nodes with
  | nil => rfl
  | cons node nodes ih =>
    rw [List.flatMap_cons, editsOf, List.filterMap_append, List.filter_cons]
    change editsOf name _ ++ editsOf name _ = _
    rw [ih]
    cases htarget : node.target? with
    | none => simp [Node.edits_of_no_target htarget, editsOf]
    | some target =>
      rw [Node.edits_of_target htarget]
      by_cases h : target = name <;> simp [h, editsOf, List.filterMap_map]

/-- A declaration addresses the container that it is about twice. -/
theorem map_fst_edits (options : ExtractOptions) (nodes : List Node) :
    (nodes.flatMap (Node.edits options)).map (·.1) =
      (nodes.filterMap Node.target?).flatMap fun target => [target, target] := by
  induction nodes with
  | nil => rfl
  | cons node nodes ih =>
    rw [List.flatMap_cons, List.map_append, ih, List.filterMap_cons]
    cases htarget : node.target? with
    | none => rw [Node.edits_of_no_target htarget]; rfl
    | some target => rw [Node.edits_of_target htarget]; rfl

theorem eraseDups_filter_twice (names : List String) (p : String → Bool) :
    ((names.flatMap fun name => [name, name]).filter p).eraseDups =
      (names.filter p).eraseDups := by
  induction names generalizing p with
  | nil => rfl
  | cons name names ih =>
    rw [List.flatMap_cons, List.filter_append]
    cases hp : p name with
    | false => simpa [hp] using ih p
    | true =>
      rw [List.filter_cons_of_pos hp, List.filter_cons_of_pos hp, List.filter_cons_of_pos hp,
        List.filter_nil, List.cons_append, List.cons_append, List.nil_append,
        List.eraseDups_cons, List.eraseDups_cons,
        List.filter_cons_of_neg (by simp), List.filter_filter, List.filter_filter, ih]

theorem names_absorbNodes (options : ExtractOptions) (e : Extraction) (nodes : List Node) :
    (e.absorbNodes options nodes).registry.names =
      e.registry.names ++
        ((nodes.filterMap Node.target?).filter (· ∉ e.registry.names)).eraseDups := by
  rw [Extraction.registry_absorbNodes, names_editAll, map_fst_edits, eraseDups_filter_twice]

theorem mem_names_absorbNodes (options : ExtractOptions) (e : Extraction) (nodes : List Node)
    (name : String) :
    name ∈ (e.absorbNodes options nodes).registry.names ↔
      name ∈ e.registry.names ∨ ∃ node ∈ nodes, node.target? = some name := by
  rw [names_absorbNodes, List.mem_append, List.mem_eraseDups, List.mem_filter,
    List.mem_filterMap]
  by_cases h : name ∈ e.registry.names <;> simp [h]

theorem getOrNew_absorbNodes (options : ExtractOptions) (e : Extraction) (nodes : List Node)
    (name : String) :
    (e.absorbNodes options nodes).registry.getOrNew name =
      (e.registry.getOrNew name).applyAll
        ((nodes.filter (·.target? = some name)).flatMap (Node.ownEdits options)) := by
  rw [Extraction.registry_absorbNodes, getOrNew_editAll, editsOf_flatMap_edits]

end Registry

/-! ## What a container gets -/

/-- Every type that the members of a declaration need is there. -/
structure Node.Typed (options : ExtractOptions) (decl : Node) : Prop where
  properties : ∀ node ∈ decl.propertyNodes options, node.type.isSome = true
  methods : ∀ node ∈ decl.methodNodes options, node.returnType.isSome = true
  params : ∀ node ∈ decl.methodNodes options, ∀ param ∈ node.paramNodes,
    param.type.isSome = true

/-- `after` is the container `before` with what some declarations add to it:
every property and every method that they have, in order, and no other. -/
structure Container.Merged (options : ExtractOptions) (decls : List Node)
    (before after : Container) : Prop where
  name : after.name = before.name
  typed : ∀ decl ∈ decls, decl.Typed options
  properties : after.properties =
    before.properties ++ (decls.flatMap (Node.propertyNodes options)).map Node.property
  methods : after.methods =
    before.methods ++ (decls.flatMap (Node.methodNodes options)).map Node.method
  categories : after.categories =
    before.categories ++
      (decls.filter (·.kind = "ObjCCategoryDecl")).map (·.name.getD "")
  isInterface : after.isInterface = true ↔
    before.isInterface = true ∨ ∃ decl ∈ decls, decl.kind = "ObjCInterfaceDecl"

theorem Node.memberObligations_met {options : ExtractOptions} {decl : Node} {target : String}
    (htarget : decl.target? = some target) (h : decl.isComplete options = true) :
    ∀ child ∈ decl.memberNodes options, ∀ o ∈ child.memberObligations, o.isMet = true := by
  intro child hchild o ho
  have hbody := List.mem_flatMap.2 ⟨child, hchild, ho⟩
  apply (decl.isComplete_iff options).1 h
  unfold target? at htarget
  unfold obligations
  by_cases hnamed : decl.kind = "ObjCInterfaceDecl" ∨ decl.kind = "ObjCProtocolDecl"
  · rw [if_pos hnamed]
    exact List.mem_cons_of_mem _ hbody
  · rw [if_neg hnamed] at htarget ⊢
    by_cases hcategory : decl.kind = "ObjCCategoryDecl"
    · rw [if_pos hcategory]
      exact List.mem_cons_of_mem _ (List.mem_cons_of_mem _ hbody)
    · rw [if_neg hcategory] at htarget
      cases htarget

theorem Node.typed_of_isComplete {options : ExtractOptions} {decl : Node} {target : String}
    (htarget : decl.target? = some target) (h : decl.isComplete options = true) :
    decl.Typed options := by
  have hmet := Node.memberObligations_met htarget h
  refine ⟨fun node hnode => ?_, fun node hnode => ?_, fun node hnode param hparam => ?_⟩
  · obtain ⟨hmember, hkind⟩ := List.mem_filter.1 hnode
    refine hmet node hmember (node.owes .type node.type) ?_
    rw [memberObligations, if_pos (of_decide_eq_true hkind)]
    exact List.mem_singleton_self _
  all_goals
    obtain ⟨hmember, hkind⟩ := List.mem_filter.1 hnode
    have hmethod : node.memberObligations = node.owes .returnType node.returnType ::
        node.paramNodes.map fun param => param.owes .type param.type := by
      rw [memberObligations, of_decide_eq_true hkind]
      rfl
  · refine hmet node hmember (node.owes .returnType node.returnType) ?_
    rw [hmethod]
    exact List.mem_cons_self
  · refine hmet node hmember (param.owes .type param.type) ?_
    rw [hmethod]
    exact List.mem_cons_of_mem _ (List.mem_map.2 ⟨param, hparam, rfl⟩)

section OwnEdits
variable (options : ExtractOptions) (decls : List Node)

/-- An addition that comes from the members alone, and from each by itself. -/
theorem flatMap_ownEdits {α : Type} {added : Edit → List α} {nodesOf : Node → List Node}
    {read : Node → α} (horigin : ∀ origin : Origin, added origin.edit = [])
    (hmembers : ∀ decl : Node, added (.append (decl.members options)) = (nodesOf decl).map read) :
    (decls.flatMap (Node.ownEdits options)).flatMap added = (decls.flatMap nodesOf).map read := by
  rw [List.flatMap_assoc, List.map_flatMap]
  refine List.flatMap_congr fun decl _ => ?_
  rw [Node.ownEdits, List.flatMap_cons, List.flatMap_singleton, horigin, hmembers,
    List.nil_append]

theorem flatMap_properties_ownEdits :
    (decls.flatMap (Node.ownEdits options)).flatMap Edit.properties =
      (decls.flatMap (Node.propertyNodes options)).map Node.property := by
  refine flatMap_ownEdits options decls (fun origin => ?_) fun _ => rfl
  cases origin <;> rfl

theorem flatMap_methods_ownEdits :
    (decls.flatMap (Node.ownEdits options)).flatMap Edit.methods =
      (decls.flatMap (Node.methodNodes options)).map Node.method := by
  refine flatMap_ownEdits options decls (fun origin => ?_) fun _ => rfl
  cases origin <;> rfl

theorem flatMap_categories_ownEdits :
    (decls.flatMap (Node.ownEdits options)).flatMap Edit.categories =
      (decls.filter (·.kind = "ObjCCategoryDecl")).map (·.name.getD "") := by
  rw [List.flatMap_assoc]
  induction decls with
  | nil => rfl
  | cons decl decls ih =>
    rw [List.flatMap_cons, ih, List.filter_cons]
    by_cases h : decl.kind = "ObjCCategoryDecl"
    · simp [h, Node.ownEdits, Node.origin, Origin.edit, Edit.categories]
    · by_cases hi : decl.kind = "ObjCInterfaceDecl" <;>
        simp [h, hi, Node.ownEdits, Node.origin, Origin.edit, Edit.categories]

theorem markInterface_mem_ownEdits :
    Edit.markInterface ∈ decls.flatMap (Node.ownEdits options) ↔
      ∃ decl ∈ decls, decl.kind = "ObjCInterfaceDecl" := by
  rw [List.mem_flatMap]
  refine exists_congr fun decl => and_congr_right fun _ => ?_
  unfold Node.ownEdits Node.origin
  by_cases hi : decl.kind = "ObjCInterfaceDecl"
  · simp [hi, Origin.edit]
  · by_cases hc : decl.kind = "ObjCCategoryDecl" <;> simp [hi, hc, Origin.edit]

end OwnEdits

theorem Container.merged_applyAll (options : ExtractOptions) {decls : List Node}
    (before : Container) (htyped : ∀ decl ∈ decls, decl.Typed options) :
    before.Merged options decls (before.applyAll (decls.flatMap (Node.ownEdits options))) where
  name := before.applyAll_name _
  typed := htyped
  properties := by rw [applyAll_properties, flatMap_properties_ownEdits]
  methods := by rw [applyAll_methods, flatMap_methods_ownEdits]
  categories := by rw [applyAll_categories, flatMap_categories_ownEdits]
  isInterface := by rw [applyAll_isInterface, markInterface_mem_ownEdits]

/-- **The merge law.** A conversion that succeeds adds the containers that its
declarations are about, in first reference order, and every container gets what
the declarations about it have, in child order. -/
theorem convert_merges (options : ExtractOptions) (e : Extraction) {root : Node}
    (hroot : root.kind = "TranslationUnitDecl") (hok : (e.convert options root).2 = .ok ()) :
    let before := e.registry
    let after := (e.convert options root).1.registry
    after.names = before.names ++
      ((root.inner.filterMap Node.target?).filter (· ∉ before.names)).eraseDups ∧
    ∀ name,
      (after.contains name = true ↔
        before.contains name = true ∨ ∃ decl ∈ root.inner, decl.target? = some name) ∧
      ∀ container, after.get? name = some container →
        (before.getOrNew name).Merged options (root.inner.filter (·.target? = some name))
          container := by
  intro before after
  have hcomplete := (root.unitObligations_met_iff options).1 ((Extraction.convert_ok_iff ..).1 hok)
  have hafter : after = (e.absorbNodes options root.inner).registry := by
    show (e.convert options root).1.registry = _
    rw [Extraction.convert_of_complete options e hcomplete, Node.declarations_of_unit hroot]
  rw [Node.declarations_of_unit hroot] at hcomplete
  refine ⟨hafter ▸ Registry.names_absorbNodes options e root.inner, fun name => ⟨?_, ?_⟩⟩
  · rw [Registry.contains_iff, Registry.contains_iff, hafter]
    exact Registry.mem_names_absorbNodes options e root.inner name
  · intro container hget
    have htyped : ∀ decl ∈ root.inner.filter (·.target? = some name), decl.Typed options := by
      intro decl hdecl
      obtain ⟨hmem, htarget⟩ := List.mem_filter.1 hdecl
      exact Node.typed_of_isComplete (of_decide_eq_true htarget) (hcomplete decl hmem)
    have hcontainer : container = after.getOrNew name := by
      unfold Registry.getOrNew
      rw [hget, Option.getD_some]
    rw [hcontainer, hafter, Registry.getOrNew_absorbNodes]
    exact Container.merged_applyAll options _ htyped

/-- A category and its interface, after a conversion that failed. -/
theorem convert_merges_after_failure :
    let property (name : String) (isImplicit : Bool) : Node :=
      { Node.ofKind "ObjCPropertyDecl" with
        name := some name, type := some ⟨"int", none⟩, isImplicit := isImplicit }
    let interface : Node :=
      { Node.ofKind "ObjCInterfaceDecl" with
        name := some "Foo", inner := [property "c" false, property "d" true] }
    let category : Node :=
      { Node.ofKind "ObjCCategoryDecl" with
        interface := some interface, inner := [property "b" false] }
    let protocol : Node :=
      { Node.ofKind "ObjCProtocolDecl" with name := some "Foo", inner := [property "a" false] }
    let failing : Node :=
      { Node.ofKind "TranslationUnitDecl" with
        inner := [protocol, Node.ofKind "ObjCInterfaceDecl", interface] }
    let root : Node :=
      { Node.ofKind "TranslationUnitDecl" with inner := [category, interface] }
    let e := (Extraction.empty.convert ⟨true⟩ failing).1
    let after := (e.convert ⟨true⟩ root).1.registry
    (root.kind = "TranslationUnitDecl" ∧ (e.convert ⟨true⟩ root).2 = .ok ()) ∧
      ∃ container, after.get? "Foo" = some container ∧
        (e.registry.getOrNew "Foo").Merged ⟨true⟩ [category, interface] container ∧
        container.properties.map (·.name) = ["a", "b", "c"] := by
  intro property interface category protocol failing root e after
  have h := (@convert_merges ⟨true⟩ e root rfl rfl).2 "Foo"
  exact ⟨⟨rfl, rfl⟩, _, rfl, h.2 _ rfl, rfl⟩

end HeaderSchema
