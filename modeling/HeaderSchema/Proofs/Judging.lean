import HeaderSchema.Schema.Validation

/-!
# What the judge looks for

A container without a problem is one in which everything is named, and any other
has a problem with a name (`Container.problem?_eq_none_iff`). A package that says
its version, bears the digest of its containers and has no name twice adds no
problem of its own (`Package.problem?_of_consistent`).
-/

namespace HeaderSchema

/-- Something that has to say something is left blank. -/
inductive Problem.IsEmptyName : Problem → Prop where
  | container : IsEmptyName .emptyContainerName
  | property (container : String) : IsEmptyName (.emptyPropertyName container)
  | method (container : String) : IsEmptyName (.emptyMethodName container)
  | type (container member : String) : IsEmptyName (.emptyTypeName container member)

/-! ## Members -/

structure Property.Sound (p : Property) : Prop where
  name : isBlank p.name = false
  type : isBlank p.type.name = false

/-- The names of parameters do not matter. -/
structure Method.Sound (m : Method) : Prop where
  name : isBlank m.name = false
  returnType : isBlank m.returnType.name = false
  params : ∀ p ∈ m.params, isBlank p.type.name = false

theorem Property.problem?_eq_none_iff (container : String) (p : Property) :
    p.problem? container = none ↔ p.Sound := by
  unfold Property.problem?
  constructor
  · intro h
    split at h
    · cases h
    · next hname =>
      split at h
      · cases h
      · next htype => exact ⟨eq_false_of_ne_true hname, eq_false_of_ne_true htype⟩
  · intro h
    simp [h.name, h.type]

theorem Property.isEmptyName_of_problem? {container : String} {p : Property} {problem : Problem}
    (h : p.problem? container = some problem) : problem.IsEmptyName := by
  unfold Property.problem? at h
  split at h
  · cases h
    exact .property _
  · split at h
    · cases h
      exact .type ..
    · cases h

theorem Param.problem?_eq_none_iff (container selector : String) (p : Param) :
    p.problem? container selector = none ↔ isBlank p.type.name = false := by
  unfold Param.problem?
  cases isBlank p.type.name <;> simp

theorem Param.isEmptyName_of_problem? {container selector : String} {p : Param}
    {problem : Problem} (h : p.problem? container selector = some problem) :
    problem.IsEmptyName := by
  unfold Param.problem? at h
  split at h
  · cases h
    exact .type ..
  · cases h

theorem Method.problem?_eq_none_iff (container : String) (m : Method) :
    m.problem? container = none ↔ m.Sound := by
  unfold Method.problem?
  constructor
  · intro h
    split at h
    · cases h
    · next hname =>
      split at h
      · cases h
      · next htype =>
        refine ⟨eq_false_of_ne_true hname, eq_false_of_ne_true htype, ?_⟩
        intro p hp
        exact (Param.problem?_eq_none_iff ..).1 (List.findSome?_eq_none_iff.1 h p hp)
  · intro h
    rw [h.name, h.returnType]
    exact List.findSome?_eq_none_iff.2 fun p hp =>
      (Param.problem?_eq_none_iff ..).2 (h.params p hp)

theorem Method.isEmptyName_of_problem? {container : String} {m : Method} {problem : Problem}
    (h : m.problem? container = some problem) : problem.IsEmptyName := by
  unfold Method.problem? at h
  split at h
  · cases h
    exact .method _
  · split at h
    · cases h
      exact .type ..
    · obtain ⟨p, -, hp⟩ := List.exists_of_findSome?_eq_some h
      exact Param.isEmptyName_of_problem? hp

/-! ## Containers -/

/-- Everything in the container is named. -/
structure Container.Sound (c : Container) : Prop where
  name : isBlank c.name = false
  properties : ∀ p ∈ c.properties, p.Sound
  methods : ∀ m ∈ c.methods, m.Sound

theorem Container.problem?_eq_none_iff (c : Container) : c.problem? = none ↔ c.Sound := by
  unfold Container.problem?
  constructor
  · intro h
    split at h
    · cases h
    · next hname =>
      split at h
      · cases h
      · next hproperties =>
        refine ⟨eq_false_of_ne_true hname, ?_, ?_⟩
        · intro p hp
          exact (p.problem?_eq_none_iff c.name).1 (List.findSome?_eq_none_iff.1 hproperties p hp)
        · intro m hm
          exact (m.problem?_eq_none_iff c.name).1 (List.findSome?_eq_none_iff.1 h m hm)
  · intro h
    have hproperties : c.properties.findSome? (·.problem? c.name) = none :=
      List.findSome?_eq_none_iff.2 fun p hp => (p.problem?_eq_none_iff c.name).2 (h.properties p hp)
    rw [h.name, hproperties]
    exact List.findSome?_eq_none_iff.2 fun m hm =>
      (m.problem?_eq_none_iff c.name).2 (h.methods m hm)

theorem Container.isEmptyName_of_problem? {c : Container} {problem : Problem}
    (h : c.problem? = some problem) : problem.IsEmptyName := by
  unfold Container.problem? at h
  split at h
  · cases h
    exact .container
  · split at h
    · next hproperty =>
      cases h
      obtain ⟨p, -, hp⟩ := List.exists_of_findSome?_eq_some hproperty
      exact Property.isEmptyName_of_problem? hp
    · obtain ⟨m, -, hm⟩ := List.exists_of_findSome?_eq_some h
      exact Method.isEmptyName_of_problem? hm

/-! ## Packages -/

/-- Containers with different names only have the problems that each has by
itself. -/
theorem firstProblem?_eq_findSome? {seen : List String} {cs : List Container}
    (hnodup : (cs.map (·.name)).Nodup) (hseen : ∀ c ∈ cs, c.name ∉ seen) :
    firstProblem? seen cs = cs.findSome? (·.problem?) := by
  induction cs generalizing seen with
  | nil => rfl
  | cons c cs ih =>
    obtain ⟨hhead, hnodup⟩ := List.nodup_cons.1 hnodup
    obtain ⟨hfresh, hseen⟩ := List.forall_mem_cons.1 hseen
    rw [firstProblem?, if_neg hfresh, List.findSome?_cons]
    split
    · next hproblem => rw [hproblem]
    · next hproblem =>
      rw [hproblem]
      -- the names seen so far grow by one that no later container has
      refine ih hnodup ?_
      intro other hother
      rw [List.mem_cons, not_or]
      exact ⟨fun heq => hhead (List.mem_map.2 ⟨other, hother, heq⟩), hseen other hother⟩

/-- The package as a whole gives no cause for a problem. -/
structure Package.Consistent (p : Package) : Prop where
  version : isBlank p.version = false
  hash : p.bundleHash = some p.computedHash
  names : (p.containers.map (·.name)).Nodup

theorem Package.problem?_of_consistent {p : Package} (h : p.Consistent) :
    p.problem? = p.containers.findSome? (·.problem?) := by
  have hhash : p.hashProblem? = none := by
    unfold Package.hashProblem?
    rw [h.hash]
    exact if_pos rfl
  rw [Package.problem?, h.version, hhash]
  exact firstProblem?_eq_findSome? h.names fun _ _ => List.not_mem_nil

/-- A consistent package is sound exactly when its containers are. If it is not,
what is reported is a blank name. -/
theorem Package.judge_of_consistent {p : Package} (h : p.Consistent) :
    (p.problem? = none ↔ ∀ c ∈ p.containers, c.Sound) ∧
      ∀ problem, p.problem? = some problem → problem.IsEmptyName := by
  rw [problem?_of_consistent h, List.findSome?_eq_none_iff]
  refine ⟨forall₂_congr fun c _ => c.problem?_eq_none_iff, ?_⟩
  intro problem hproblem
  obtain ⟨c, -, hc⟩ := List.exists_of_findSome?_eq_some hproblem
  exact Container.isEmptyName_of_problem? hc

end HeaderSchema
