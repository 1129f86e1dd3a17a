import HeaderSchema.Extraction.Run
import HeaderSchema.Proofs.DeclarationOrder
import HeaderSchema.Proofs.Judging

/-!
# When an extracted package is sound

A container is put together from several declarations, and it is sound exactly
when its name says something and everything is named in each of them
(`Container.Merged.sound_iff`). Its name comes from the declarations as well, so
a package that was extracted is judged by its root alone
(`Extraction.judge_toPackage`): the registry has every name once, and the digest
is that of the containers, whatever else the package says.
-/

namespace HeaderSchema

/-- There is a text, and something is left of it once white space is trimmed. -/
def Says (text : Option String) : Prop :=
  ∃ s, text = some s ∧ isBlank s = false

theorem says_iff (text : Option String) : Says text ↔ isBlank (text.getD "") = false := by
  cases text with
  | none => exact ⟨nofun, nofun⟩
  | some s => simp [Says]

/-! ## What has to be named -/

/-- The members of a declaration, those that are left out aside, say what they
are called and what their types are. Parameters need no name. -/
structure Node.MembersNamed (options : ExtractOptions) (decl : Node) : Prop where
  properties : ∀ node ∈ decl.propertyNodes options,
    Says node.name ∧ Says (node.type.map (·.qualType))
  methods : ∀ node ∈ decl.methodNodes options,
    Says node.name ∧ Says (node.returnType.map (·.qualType)) ∧
      ∀ param ∈ node.paramNodes, Says (param.type.map (·.qualType))

/-- Every declaration of a container says what container it is about, and its
members are named. -/
def Node.WellNamed (options : ExtractOptions) (root : Node) : Prop :=
  ∀ decl ∈ root.declarations, decl.kind ∈ containerTags →
    Says decl.target? ∧ decl.MembersNamed options

/-- A complete declaration of a container says which one. -/
theorem Node.exists_target? {options : ExtractOptions} {node : Node}
    (h : node.kind ∈ containerTags) (hcomplete : node.isComplete options = true) :
    ∃ target, node.target? = some target := by
  have hmet := (node.isComplete_iff options).1 hcomplete
  unfold obligations at hmet
  unfold target?
  by_cases hnamed : node.kind = "ObjCInterfaceDecl" ∨ node.kind = "ObjCProtocolDecl"
  · rw [if_pos hnamed] at hmet ⊢
    exact Option.isSome_iff_exists.1 (hmet (node.owes .name node.name) List.mem_cons_self)
  · have hcategory : node.kind = "ObjCCategoryDecl" := by
      simp only [containerTags, List.mem_cons, List.not_mem_nil, or_false] at h
      rcases h with h | h | h
      · exact absurd (.inl h) hnamed
      · exact h
      · exact absurd (.inr h) hnamed
    rw [if_neg hnamed, if_pos hcategory] at hmet ⊢
    exact Option.isSome_iff_exists.1 (hmet (node.owes .interfaceName _)
      (List.mem_cons_of_mem _ List.mem_cons_self))

theorem Node.sound_property_iff (node : Node) :
    node.property.Sound ↔ Says node.name ∧ Says (node.type.map (·.qualType)) := by
  rw [says_iff, says_iff]
  exact ⟨fun h => ⟨h.name, h.type⟩, fun h => ⟨h.1, h.2⟩⟩

theorem Node.sound_method_iff (node : Node) :
    node.method.Sound ↔ Says node.name ∧ Says (node.returnType.map (·.qualType)) ∧
      ∀ param ∈ node.paramNodes, Says (param.type.map (·.qualType)) := by
  have hparams : (∀ p ∈ node.method.params, isBlank p.type.name = false) ↔
      ∀ param ∈ node.paramNodes, Says (param.type.map (·.qualType)) := by
    rw [Node.method, List.forall_mem_map]
    exact forall₂_congr fun param _ => (says_iff _).symm
  rw [says_iff, says_iff, ← hparams]
  exact ⟨fun h => ⟨h.name, h.returnType, h.params⟩, fun h => ⟨h.1, h.2.1, h.2.2⟩⟩

/-! ## Containers -/

/-- **Merged containers are sound together.** What declarations add is sound
exactly if everything is named in each of them. -/
theorem Container.Merged.sound_iff {options : ExtractOptions} {decls : List Node}
    {before after : Container} (h : before.Merged options decls after) :
    after.Sound ↔ before.Sound ∧ ∀ decl ∈ decls, decl.MembersNamed options := by
  have hproperties : (∀ p ∈ after.properties, p.Sound) ↔
      (∀ p ∈ before.properties, p.Sound) ∧
        ∀ decl ∈ decls, ∀ node ∈ decl.propertyNodes options, node.property.Sound := by
    rw [h.properties, List.forall_mem_append, List.forall_mem_map, List.forall_mem_flatMap]
  have hmethods : (∀ m ∈ after.methods, m.Sound) ↔
      (∀ m ∈ before.methods, m.Sound) ∧
        ∀ decl ∈ decls, ∀ node ∈ decl.methodNodes options, node.method.Sound := by
    rw [h.methods, List.forall_mem_append, List.forall_mem_map, List.forall_mem_flatMap]
  simp only [Node.sound_property_iff] at hproperties
  simp only [Node.sound_method_iff] at hmethods
  constructor
  · intro hsound
    obtain ⟨hold, hnew⟩ := hproperties.1 hsound.properties
    obtain ⟨hold', hnew'⟩ := hmethods.1 hsound.methods
    refine ⟨⟨h.name ▸ hsound.name, hold, hold'⟩, ?_⟩
    intro decl hdecl
    exact ⟨hnew decl hdecl, hnew' decl hdecl⟩
  · rintro ⟨hbefore, hnamed⟩
    refine ⟨h.name ▸ hbefore.name, hproperties.2 ⟨hbefore.properties, ?_⟩,
      hmethods.2 ⟨hbefore.methods, ?_⟩⟩
    · exact fun decl hdecl => (hnamed decl hdecl).properties
    · exact fun decl hdecl => (hnamed decl hdecl).methods

theorem Container.sound_ofName_iff (name : String) :
    (Container.ofName name).Sound ↔ isBlank name = false :=
  ⟨fun h => h.name, fun h => ⟨h, nofun, nofun⟩⟩

namespace Extraction

theorem length_containers_absorbNodes (options : ExtractOptions) (nodes : List Node) :
    (empty.absorbNodes options nodes).registry.containers.length =
      (nodes.filterMap Node.target?).eraseDups.length := by
  rw [(wellFormed_absorbNodes options nodes).containers_eq, List.length_map,
    Registry.names_absorbNodes]
  simp [empty, Registry.empty, Registry.names]

/-- The container of a name is sound if the name says something and the
declarations about it have their members named. -/
theorem sound_getOrNew_iff {options : ExtractOptions} {nodes : List Node}
    (hcomplete : ∀ decl ∈ nodes, decl.isComplete options = true) (name : String) :
    ((empty.absorbNodes options nodes).registry.getOrNew name).Sound ↔
      isBlank name = false ∧
        ∀ decl ∈ nodes, decl.target? = some name → decl.MembersNamed options := by
  have htyped : ∀ decl ∈ nodes.filter (·.target? = some name), decl.Typed options := by
    intro decl hdecl
    obtain ⟨hmem, htarget⟩ := List.mem_filter.1 hdecl
    exact Node.typed_of_isComplete (of_decide_eq_true htarget) (hcomplete decl hmem)
  rw [Registry.getOrNew_absorbNodes, (Container.merged_applyAll options _ htyped).sound_iff]
  refine and_congr (Container.sound_ofName_iff name) ?_
  simp only [List.mem_filter, decide_eq_true_eq, and_imp]

theorem sound_containers_iff {options : ExtractOptions} {nodes : List Node}
    (hcomplete : ∀ decl ∈ nodes, decl.isComplete options = true) :
    (∀ c ∈ (empty.absorbNodes options nodes).registry.containers, c.Sound) ↔
      ∀ decl ∈ nodes, decl.kind ∈ containerTags →
        Says decl.target? ∧ decl.MembersNamed options := by
  rw [(wellFormed_absorbNodes options nodes).containers_eq, List.forall_mem_map]
  constructor
  · intro h decl hdecl hcontainer
    obtain ⟨name, htarget⟩ := Node.exists_target? hcontainer (hcomplete decl hdecl)
    have hname : name ∈ (empty.absorbNodes options nodes).registry.names :=
      (Registry.mem_names_absorbNodes ..).2 (.inr ⟨decl, hdecl, htarget⟩)
    obtain ⟨hnonblank, hmembers⟩ := (sound_getOrNew_iff hcomplete name).1 (h name hname)
    exact ⟨⟨name, htarget, hnonblank⟩, hmembers decl hdecl htarget⟩
  · intro h name hname
    rcases (Registry.mem_names_absorbNodes ..).1 hname with hold | ⟨decl, hdecl, htarget⟩
    · cases hold
    · refine (sound_getOrNew_iff hcomplete name).2 ⟨?_, ?_⟩
      · -- the name is that of any declaration about the container
        obtain ⟨s, hs, hnonblank⟩ := h decl hdecl (decl.mem_containerTags_of_target? htarget) |>.1
        rw [htarget] at hs
        cases hs
        exact hnonblank
      · intro other hother hsame
        exact (h other hother (other.mem_containerTags_of_target? hsame)).2

end Extraction

/-! ## Packages -/

/-- The package with another name, source and time. -/
def Package.labelled (p : Package) (name source : Option String) (generatedAt : String) :
    Package :=
  { p with name := name, source := source, generatedAt := generatedAt }

theorem Registry.consistent_toPackage {r : Registry} (h : r.WellFormed) (time : String) :
    (r.toPackage extractorVersion time).Consistent where
  version := (by decide : isBlank extractorVersion = false)
  hash := rfl
  names := by
    change (r.containers.map (·.name)).Nodup
    rw [h.names_containers]
    exact h.nodup

theorem Package.Consistent.labelled {p : Package} (h : p.Consistent) (name source : Option String)
    (generatedAt : String) : (p.labelled name source generatedAt).Consistent :=
  ⟨h.version, h.hash, h.names⟩

theorem extractSchema_eq_ok {options : ExtractOptions} {time : String} {input : Bytes}
    {run : ExtractionRun} (h : extractSchema options time input = .ok run) :
    ∃ root, Node.parse input = .ok root ∧
      (∀ decl ∈ root.declarations, decl.isComplete options = true) ∧
      run.package = (Extraction.empty.absorbNodes options root.declarations).registry.toPackage
        extractorVersion time := by
  unfold extractSchema at h
  cases hroot : Node.parse input with
  | error e =>
    rw [hroot] at h
    cases h
  | ok root =>
    rw [hroot] at h
    change ExtractionRun.ofRoot options time root = .ok run at h
    unfold ExtractionRun.ofRoot at h
    cases he : Extraction.ofRoot options root with
    | error e =>
      rw [he] at h
      cases h
    | ok e =>
      rw [he] at h
      cases h
      obtain ⟨hcomplete, rfl⟩ := (Extraction.ofRoot_eq_ok ..).1 he
      exact ⟨root, rfl, hcomplete, rfl⟩

/-- An extracted package, whatever is set about it afterwards, is judged by its
root: it is sound if the root is well named, and nothing else than a blank name
is reported if the root is not. It has one container for each target. -/
theorem judge_extracted {options : ExtractOptions} {time : String} {input : Bytes}
    {run : ExtractionRun} (h : extractSchema options time input = .ok run) :
    ∃ root, Node.parse input = .ok root ∧
      run.package.containers.length =
        (root.declarations.filterMap Node.target?).eraseDups.length ∧
      ∀ (name source : Option String) (generatedAt : String),
        let p := run.package.labelled name source generatedAt
        (p.problem? = none ↔ root.WellNamed options) ∧
          ∀ problem, p.problem? = some problem → problem.IsEmptyName := by
  obtain ⟨root, hroot, hcomplete, hpackage⟩ := extractSchema_eq_ok h
  have hconsistent : run.package.Consistent := by
    rw [hpackage]
    exact Registry.consistent_toPackage (Extraction.wellFormed_absorbNodes ..) time
  have hsound : (∀ c ∈ run.package.containers, c.Sound) ↔ root.WellNamed options := by
    rw [hpackage]
    exact Extraction.sound_containers_iff hcomplete
  refine ⟨root, hroot, ?_, ?_⟩
  · rw [hpackage]
    exact Extraction.length_containers_absorbNodes options root.declarations
  · intro name source generatedAt
    obtain ⟨hnone, hempty⟩ :=
      Package.judge_of_consistent (hconsistent.labelled name source generatedAt)
    exact ⟨hnone.trans hsound, hempty⟩

end HeaderSchema
