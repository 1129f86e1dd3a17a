import HeaderSchema.Proofs.Conversion
import HeaderSchema.Proofs.Registry
import Mathlib.Data.List.Flatten

/-!
# Leaving out implicit members

To leave out implicit members is to convert a smaller root: the one whose
declarations of containers have lost their implicit children, and nothing else
(`Node.pruned`). A child that is left out owes nothing either, so a conversion
may succeed without it that would fail with it.

Where both succeed, the two runs absorb the same declarations, and what one of
them absorbs is a part of what the other does. This is kept by every step
(`Extraction.Thinned.absorb`): in the end the containers are the same, with some
members left out (`convert_skipping`).
-/

namespace HeaderSchema

/-- A declaration without its implicit children, if it is one of a container. -/
def Node.withoutImplicit (decl : Node) : Node :=
  if decl.kind ∈ containerTags then { decl with inner := decl.inner.filter (!·.isImplicit) }
  else decl

/-- A root whose declarations of containers have no implicit children. -/
def Node.pruned (root : Node) : Node :=
  { root with inner := root.inner.map Node.withoutImplicit }

/-! ## Skipping is pruning -/

/-- The option drops the children that are not there in the smaller declaration. -/
theorem Node.memberNodes_filter (decl : Node) :
    ({ decl with inner := decl.inner.filter (!·.isImplicit) } : Node).memberNodes ⟨false⟩ =
      decl.memberNodes ⟨true⟩ :=
  List.filter_eq_self.2 fun _ _ => rfl

/-- Only declarations of containers look at their children. -/
theorem Node.obligations_of_other {node : Node} (h : node.kind ∉ containerTags)
    (options : ExtractOptions) : node.obligations options = [] := by
  simp only [containerTags, List.mem_cons, List.not_mem_nil, or_false, not_or] at h
  unfold obligations
  rw [if_neg (not_or.2 ⟨h.1, h.2.2⟩), if_neg h.2.1]

theorem Node.contribution_of_no_target {node : Node} (h : node.target? = none)
    (options options' : ExtractOptions) :
    node.contribution options = node.contribution options' := by
  unfold contribution
  rw [h]

theorem Contribution.ofNode_withoutImplicit (decl : Node) :
    Contribution.ofNode ⟨true⟩ decl = Contribution.ofNode ⟨false⟩ decl.withoutImplicit := by
  rw [Contribution.ofNode_eq, Contribution.ofNode_eq]
  unfold Node.withoutImplicit
  split
  · have hmembers := decl.memberNodes_filter
    unfold Node.obligations Node.contribution Node.members Node.propertyNodes Node.methodNodes
    rw [hmembers]
    rfl
  · next hother =>
    have htarget : decl.target? = none :=
      Option.eq_none_iff_forall_ne_some.2 fun _ h => hother (decl.mem_containerTags_of_target? h)
    rw [Node.obligations_of_other hother, Node.obligations_of_other hother,
      Node.contribution_of_no_target htarget ⟨true⟩ ⟨false⟩]

theorem Extraction.convert_pruned (e : Extraction) (root : Node) :
    e.convert ⟨true⟩ root = e.convert ⟨false⟩ root.pruned := by
  unfold convert
  change _ = if root.declKind = .translationUnit then _ else _
  split
  · refine absorbAll_congr e (List.forall₂_map_right_iff.2 (List.forall₂_same.2 fun decl _ => ?_))
    exact Contribution.ofNode_withoutImplicit decl
  · rfl

/-! ## What is left out -/

/-- The container `a` is `b` with some properties and methods left out. -/
structure Container.Thinned (a b : Container) : Prop where
  name : a.name = b.name
  isInterface : a.isInterface = b.isInterface
  categories : a.categories = b.categories
  properties : a.properties.Sublist b.properties
  methods : a.methods.Sublist b.methods

/-- Some of the members are left out. -/
structure Members.Thinned (a b : Members) : Prop where
  properties : a.properties.Sublist b.properties
  methods : a.methods.Sublist b.methods

/-- The same contribution, or one to the same container with fewer members. -/
inductive Contribution.Thinned : Contribution → Contribution → Prop
  | unmodeled (tag : String) : Thinned (.unmodeled tag) (.unmodeled tag)
  | ignored (tag : String) : Thinned (.ignored tag) (.ignored tag)
  | container (origin : Origin) (target : String) {a b : Members} (h : a.Thinned b) :
    Thinned (.container origin target a) (.container origin target b)

/-- The same names in the same order, and fewer members in their containers. -/
def Registry.Thinned (r r' : Registry) : Prop :=
  List.Forall₂ (fun a b => a.1 = b.1 ∧ a.2.Thinned b.2) r.entries r'.entries

/-- Declarations count alike, and fewer members were counted. -/
structure Counters.Thinned (c c' : Counters) : Prop where
  interfaces : c.interfaces = c'.interfaces
  categories : c.categories = c'.categories
  protocols : c.protocols = c'.protocols
  unmodeled : c.unmodeled = c'.unmodeled
  ignored : c.ignored = c'.ignored
  properties : c.properties ≤ c'.properties
  methods : c.methods ≤ c'.methods

/-- What is left when members were left out on the way. -/
structure Extraction.Thinned (e e' : Extraction) : Prop where
  registry : e.registry.Thinned e'.registry
  counters : e.counters.Thinned e'.counters

/-! ## Steps -/

namespace Container.Thinned

theorem refl (c : Container) : c.Thinned c :=
  ⟨rfl, rfl, rfl, .refl _, .refl _⟩

theorem append {a b : Container} (h : a.Thinned b) {members members' : Members}
    (hmembers : members.Thinned members') : (a.append members).Thinned (b.append members') where
  name := h.name
  isInterface := h.isInterface
  categories := h.categories
  properties := h.properties.append hmembers.properties
  methods := h.methods.append hmembers.methods

theorem apply {a b : Container} (h : a.Thinned b) (e : Edit) : (e.apply a).Thinned (e.apply b) := by
  cases e with
  | touch => exact h
  | markInterface => exact ⟨h.name, rfl, h.categories, h.properties, h.methods⟩
  | addCategory name =>
    have hcategories : a.categories ++ [name] = b.categories ++ [name] := by rw [h.categories]
    exact ⟨h.name, h.isInterface, hcategories, h.properties, h.methods⟩
  | append members => exact h.append ⟨.refl _, .refl _⟩

end Container.Thinned

namespace Registry.Thinned

theorem refl (r : Registry) : r.Thinned r :=
  List.forall₂_same.2 fun e _ => ⟨rfl, .refl e.2⟩

theorem names_eq {r r' : Registry} (h : r.Thinned r') : r.names = r'.names := by
  obtain ⟨entries⟩ := r
  obtain ⟨entries'⟩ := r'
  unfold names
  change List.Forall₂ _ entries entries' at h
  induction h with
  | nil => rfl
  | cons hhead _ ih => rw [List.map_cons, List.map_cons, hhead.1, ih]

/-- A change that keeps containers thinned keeps registries thinned. -/
theorem update {r r' : Registry} (h : r.Thinned r') (name : String)
    {f f' : Container → Container} (hf : ∀ a b : Container, a.Thinned b → (f a).Thinned (f' b)) :
    (r.update name f).Thinned (r'.update name f') := by
  obtain ⟨entries⟩ := r
  obtain ⟨entries'⟩ := r'
  change List.Forall₂ _ entries entries' at h
  change List.Forall₂ _ (updateEntries name f entries) (updateEntries name f' entries')
  induction h with
  | nil => exact .cons ⟨rfl, hf _ _ (.refl _)⟩ .nil
  | @cons a b _ _ hhead htail ih =>
    rw [updateEntries, updateEntries, ← hhead.1]
    split
    · exact .cons ⟨rfl, hf _ _ hhead.2⟩ htail
    · exact .cons ⟨rfl, hhead.2⟩ ih

end Registry.Thinned

theorem Counters.Thinned.refl (c : Counters) : c.Thinned c :=
  ⟨rfl, rfl, rfl, rfl, rfl, le_rfl, le_rfl⟩

theorem Counters.Thinned.countMembers {c c' : Counters} (h : c.Thinned c') {a b : Members}
    (hmembers : a.Thinned b) : (c.countMembers a).Thinned (c'.countMembers b) where
  interfaces := h.interfaces
  categories := h.categories
  protocols := h.protocols
  unmodeled := h.unmodeled
  ignored := h.ignored
  properties := Nat.add_le_add h.properties hmembers.properties.length_le
  methods := Nat.add_le_add h.methods hmembers.methods.length_le

theorem Counters.Thinned.countOrigin {c c' : Counters} (h : c.Thinned c') (origin : Origin) :
    (c.countOrigin origin).Thinned (c'.countOrigin origin) := by
  cases origin with
  | interface => exact { h with interfaces := congrArg (· + 1) h.interfaces }
  | category name => exact { h with categories := congrArg (· + 1) h.categories }
  | protocol => exact { h with protocols := congrArg (· + 1) h.protocols }

namespace Extraction.Thinned

theorem refl (e : Extraction) : e.Thinned e :=
  ⟨.refl _, .refl _⟩

/-- Absorbing fewer members keeps the rest. -/
theorem absorb {e e' : Extraction} (h : e.Thinned e') {x y : Contribution} (hxy : x.Thinned y) :
    (e.absorb x).Thinned (e'.absorb y) := by
  cases hxy with
  | container origin target hmembers =>
    refine ⟨?_, (h.counters.countMembers hmembers).countOrigin origin⟩
    have horigin := h.registry.update target fun a b hab => hab.apply origin.edit
    exact horigin.update target fun a b hab => hab.append hmembers
  | unmodeled tag =>
    exact ⟨h.registry, { h.counters with unmodeled := congrArg (·.count tag) h.counters.unmodeled }⟩
  | ignored tag =>
    exact ⟨h.registry, { h.counters with ignored := congrArg (·.count tag) h.counters.ignored }⟩

end Extraction.Thinned

/-! ## The two runs -/

/-- The children that are kept are among all of them. -/
theorem Node.memberNodes_sublist (node : Node) :
    (node.memberNodes ⟨true⟩).Sublist (node.memberNodes ⟨false⟩) := by
  have hall : node.memberNodes ⟨false⟩ = node.inner := List.filter_eq_self.2 fun _ _ => rfl
  rw [hall]
  exact List.filter_sublist

theorem Node.contribution_thinned (node : Node) :
    (node.contribution ⟨true⟩).Thinned (node.contribution ⟨false⟩) := by
  unfold contribution
  cases node.target? with
  | none =>
    dsimp only
    split
    · exact .unmodeled _
    · exact .ignored _
  | some target =>
    have hnodes := node.memberNodes_sublist
    exact .container _ _ ⟨(hnodes.filter _).map _, (hnodes.filter _).map _⟩

theorem Node.obligations_sublist (node : Node) :
    (node.obligations ⟨true⟩).Sublist (node.obligations ⟨false⟩) := by
  have hbody := node.memberNodes_sublist.flatMap Node.memberObligations
  unfold obligations
  split
  · exact hbody.cons_cons _
  · split
    · exact (hbody.cons_cons _).cons_cons _
    · exact .refl _

/-- What is complete with all members is complete without the implicit ones. -/
theorem Node.isComplete_skipping {node : Node} (h : node.isComplete ⟨false⟩ = true) :
    node.isComplete ⟨true⟩ = true := by
  rw [isComplete_iff] at h ⊢
  intro o ho
  exact h o (node.obligations_sublist.subset ho)

namespace Extraction

theorem absorbNodes_thinned {e e' : Extraction} (h : e.Thinned e') (nodes : List Node) :
    (e.absorbNodes ⟨true⟩ nodes).Thinned (e'.absorbNodes ⟨false⟩ nodes) := by
  induction nodes generalizing e e' with
  | nil => exact h
  | cons node nodes ih => exact ih (h.absorb node.contribution_thinned)

/-- **To skip is to prune.** A conversion that leaves out implicit members is the
conversion of the root without them, whatever was built before. If a conversion
succeeds with all members, it succeeds without the implicit ones as well, and all
that is different in the end is that properties and methods were left out. -/
theorem convert_skipping (root : Node) :
    (∀ e : Extraction, e.convert ⟨true⟩ root = e.convert ⟨false⟩ root.pruned) ∧
    (∀ e : Extraction, (e.convert ⟨false⟩ root).2 = .ok () →
      (e.convert ⟨true⟩ root).2 = .ok () ∧
        (e.convert ⟨true⟩ root).1.Thinned (e.convert ⟨false⟩ root).1) ∧
    ∀ full, ofRoot ⟨false⟩ root = .ok full → ∃ e, ofRoot ⟨true⟩ root = .ok e ∧
      e.registry.names = full.registry.names ∧ e.Thinned full := by
  have hskipping (h : ∀ decl ∈ root.declarations, decl.isComplete ⟨false⟩ = true) :
      ∀ decl ∈ root.declarations, decl.isComplete ⟨true⟩ = true :=
    fun decl hdecl => Node.isComplete_skipping (h decl hdecl)
  refine ⟨fun e => e.convert_pruned root, ?conversion, ?extraction⟩
  case conversion =>
    intro e hok
    have hcomplete := (root.unitObligations_met_iff ⟨false⟩).1 ((convert_ok_iff ..).1 hok)
    rw [convert_of_complete ⟨true⟩ e (hskipping hcomplete), convert_of_complete ⟨false⟩ e hcomplete]
    exact ⟨rfl, absorbNodes_thinned (.refl e) _⟩
  case extraction =>
    intro full hfull
    obtain ⟨hcomplete, rfl⟩ := (ofRoot_eq_ok ..).1 hfull
    have hthinned := absorbNodes_thinned (.refl empty) root.declarations
    exact ⟨_, (ofRoot_eq_ok ..).2 ⟨hskipping hcomplete, rfl⟩, hthinned.registry.names_eq, hthinned⟩

/-- An implicit protocol with an implicit property: only the property goes. -/
theorem convert_skipping_accessor :
    let property (name : String) (isImplicit : Bool) : Node :=
      { Node.ofKind "ObjCPropertyDecl" with
        name := some name, type := some ⟨"int", none⟩, isImplicit := isImplicit }
    let protocol : Node :=
      { Node.ofKind "ObjCProtocolDecl" with
        name := some "Foo", isImplicit := true, inner := [property "a" true, property "b" false] }
    let root : Node := { Node.ofKind "TranslationUnitDecl" with inner := [protocol] }
    ∃ e full, ofRoot ⟨true⟩ root = .ok e ∧ ofRoot ⟨false⟩ root = .ok full ∧
      e.counters.properties = 1 ∧ full.counters.properties = 2 ∧ e.Thinned full := by
  intro property protocol root
  obtain ⟨e, he, -, hthinned⟩ := (convert_skipping root).2.2 _ rfl
  cases he
  exact ⟨_, _, rfl, rfl, rfl, rfl, hthinned⟩

end Extraction

end HeaderSchema
