import HeaderSchema.Proofs.Judging

/-!
# The order of the checks

What is looked at in a package, as one list: the version, the digest, and then
container by container the name, whether it was there before, and every member
(`Package.checks`). A package has the problem of the first check in this list
that does not hold, and none if all of them hold (`Package.problem?_eq_first?`).

From this follows what comes before what: a name that was there before is reported
after all that is wrong with the containers before it, and whatever is wrong with
its own (`judged_in_order`).
-/

namespace HeaderSchema

/-- Something that is looked at, and the problem if it is not as it should be. -/
structure Check where
  holds : Bool
  problem : Problem
deriving Repr, DecidableEq

namespace Check

/-- The text must not be blank. -/
def notBlank (text : String) (problem : Problem) : Check :=
  ⟨!isBlank text, problem⟩

/-- The problem of the first check that does not hold. -/
def first? (checks : List Check) : Option Problem :=
  (checks.find? (!·.holds)).map (·.problem)

end Check

/-! ## What is looked at -/

def Property.checks (container : String) (p : Property) : List Check :=
  [.notBlank p.name (.emptyPropertyName container),
    .notBlank p.type.name (.emptyTypeName container s!"property {p.name}")]

def Param.checks (container selector : String) (p : Param) : List Check :=
  [.notBlank p.type.name (.emptyTypeName container s!"parameter {p.name} of {selector}")]

def Method.checks (container : String) (m : Method) : List Check :=
  .notBlank m.name (.emptyMethodName container) ::
    .notBlank m.returnType.name (.emptyTypeName container s!"return of {m.name}") ::
    m.params.flatMap (Param.checks container m.name)

/-- What is looked at in a container by itself. -/
def Container.checks (c : Container) : List Check :=
  .notBlank c.name .emptyContainerName ::
    (c.properties.flatMap (Property.checks c.name) ++ c.methods.flatMap (Method.checks c.name))

/-- No container before this one has its name. -/
def Container.isFirst (before : List Container) (c : Container) : Check :=
  ⟨decide (c.name ∉ before.map (·.name)), .duplicateContainer c.name⟩

/-- The containers one after another, each with those before it. -/
def containerChecks (cs : List Container) : List Check :=
  cs.zipIdx.flatMap fun (c, i) => c.isFirst (cs.take i) :: c.checks

/-- The digest that a package carries, if it carries one. -/
def Package.hashChecks (p : Package) : List Check :=
  match p.bundleHash with
  | none => []
  | some stored => [⟨decide (stored = p.computedHash), .hashMismatch stored p.computedHash⟩]

def Package.checks (p : Package) : List Check :=
  .notBlank p.version .emptyVersion :: (p.hashChecks ++ containerChecks p.containers)

/-! ## The first check that fails -/

namespace Check

theorem first?_cons (check : Check) (checks : List Check) :
    first? (check :: checks) = if check.holds then first? checks else some check.problem := by
  unfold first?
  rw [List.find?_cons]
  cases check.holds <;> rfl

theorem first?_notBlank (text : String) (problem : Problem) (checks : List Check) :
    first? (notBlank text problem :: checks) =
      if isBlank text then some problem else first? checks := by
  rw [first?_cons]
  unfold notBlank
  cases isBlank text <;> rfl

theorem first?_append (checks checks' : List Check) :
    first? (checks ++ checks') = (first? checks).or (first? checks') := by
  unfold first?
  rw [List.find?_append]
  cases checks.find? (!·.holds) <;> rfl

theorem first?_flatMap {α : Type} (f : α → List Check) (items : List α) :
    first? (items.flatMap f) = items.findSome? fun item => first? (f item) := by
  induction items with
  | nil => rfl
  | cons item items ih =>
    rw [List.flatMap_cons, first?_append, ih, List.findSome?_cons]
    cases first? (f item) <;> rfl

theorem first?_eq_none_iff (checks : List Check) :
    first? checks = none ↔ ∀ check ∈ checks, check.holds = true := by
  unfold first?
  simp

/-- What comes before a check that fails decides only if it fails as well. -/
theorem first?_of_split {before after : List Check} {check : Check}
    (hbefore : ∀ c ∈ before, c.holds = true) (hcheck : check.holds = false) :
    first? (before ++ check :: after) = some check.problem := by
  rw [first?_append, (first?_eq_none_iff before).2 hbefore, first?_cons, hcheck]
  rfl

end Check

open Check

theorem Property.problem?_eq_first? (container : String) (p : Property) :
    p.problem? container = first? (p.checks container) := by
  rw [checks, first?_notBlank, first?_notBlank]
  rfl

theorem Param.problem?_eq_first? (container selector : String) (p : Param) :
    p.problem? container selector = first? (p.checks container selector) := by
  rw [checks, first?_notBlank]
  rfl

theorem Method.problem?_eq_first? (container : String) (m : Method) :
    m.problem? container = first? (m.checks container) := by
  rw [checks, first?_notBlank, first?_notBlank, first?_flatMap]
  simp only [← Param.problem?_eq_first?]
  rfl

theorem Container.problem?_eq_first? (c : Container) : c.problem? = first? c.checks := by
  rw [checks, first?_notBlank, first?_append, first?_flatMap, first?_flatMap]
  simp only [← Property.problem?_eq_first?, ← Method.problem?_eq_first?]
  unfold problem?
  cases c.properties.findSome? (·.problem? c.name) <;> rfl

/-- Judging goes on behind some containers, whose names are those that were
there before. -/
theorem firstProblem?_behind (before : List Container) {seen : List String}
    (h : ∀ name, name ∈ seen ↔ name ∈ before.map (·.name)) (cs : List Container) :
    firstProblem? seen cs =
      first? ((cs.zipIdx before.length).flatMap fun (c, i) =>
        c.isFirst ((before ++ cs).take i) :: c.checks) := by
  induction cs generalizing seen before with
  | nil => rfl
  | cons c cs ih =>
    have hnext : ∀ name, name ∈ c.name :: seen ↔ name ∈ (before ++ [c]).map (·.name) := by
      intro name
      rw [List.map_append, List.mem_append, List.mem_cons, h, or_comm]
      simp
    have hrest := ih (before ++ [c]) hnext
    rw [List.length_append, List.length_singleton, List.append_assoc, List.singleton_append]
      at hrest
    rw [List.zipIdx_cons, List.flatMap_cons, List.cons_append, first?_cons, first?_append,
      ← hrest, ← c.problem?_eq_first?, List.take_left, firstProblem?]
    simp only [Container.isFirst, ← h]
    by_cases hseen : c.name ∈ seen
    · simp [hseen]
    · simp only [hseen, if_false, not_false_eq_true, decide_true, if_true]
      cases c.problem? <;> rfl

theorem firstProblem?_eq_first? (cs : List Container) :
    firstProblem? [] cs = first? (containerChecks cs) :=
  firstProblem?_behind [] (fun _ => Iff.rfl) cs

theorem Package.hashProblem?_eq_first? (p : Package) :
    p.hashProblem? = first? p.hashChecks := by
  unfold hashProblem? hashChecks
  cases p.bundleHash with
  | none => rfl
  | some stored =>
    dsimp only
    rw [first?_cons]
    by_cases h : stored = p.computedHash <;> simp [h, first?]

/-- **The first check that fails** gives the problem of a package. -/
theorem Package.problem?_eq_first? (p : Package) : p.problem? = first? p.checks := by
  rw [checks, first?_notBlank, first?_append, ← p.hashProblem?_eq_first?, ← firstProblem?_eq_first?]
  unfold problem?
  cases p.hashProblem? <;> rfl

/-! ## What comes before what -/

theorem firstProblem?_append (seen : List String) (cs cs' : List Container) :
    firstProblem? seen (cs ++ cs') =
      (firstProblem? seen cs).or (firstProblem? ((cs.map (·.name)).reverse ++ seen) cs') := by
  induction cs generalizing seen with
  | nil => rfl
  | cons c cs ih =>
    rw [List.cons_append, firstProblem?, firstProblem?, ih, List.map_cons, List.reverse_cons,
      List.append_assoc, List.singleton_append]
    by_cases hseen : c.name ∈ seen
    · simp [hseen]
    · rw [if_neg hseen, if_neg hseen]
      cases c.problem? <;> rfl

/-- A name that was there before is reported, unless something is wrong with the
containers before it. -/
theorem firstProblem?_of_duplicate {before : List Container} {c : Container}
    (h : c.name ∈ before.map (·.name)) (rest : List Container) :
    firstProblem? [] (before ++ c :: rest) =
      some ((firstProblem? [] before).getD (.duplicateContainer c.name)) := by
  rw [firstProblem?_append, List.append_nil, firstProblem?, if_pos (List.mem_reverse.2 h)]
  cases firstProblem? [] before <;> rfl

theorem firstProblem?_eq_none_iff (seen : List String) (cs : List Container) :
    firstProblem? seen cs = none ↔
      (∀ c ∈ cs, c.name ∉ seen) ∧ (cs.map (·.name)).Nodup ∧ ∀ c ∈ cs, c.Sound := by
  constructor
  · intro h
    induction cs generalizing seen with
    | nil => exact ⟨nofun, List.nodup_nil, nofun⟩
    | cons c cs ih =>
      rw [firstProblem?] at h
      split at h
      · cases h
      · next hfresh =>
        cases hproblem : c.problem? with
        | some problem =>
          rw [hproblem] at h
          cases h
        | none =>
          rw [hproblem] at h
          obtain ⟨hseen, hnodup, hsound⟩ := ih (c.name :: seen) h
          simp only [List.mem_cons, not_or] at hseen
          refine ⟨?_, ?_, ?_⟩
          · exact List.forall_mem_cons.2 ⟨hfresh, fun other hother => (hseen other hother).2⟩
          · refine List.nodup_cons.2 ⟨fun hmem => ?_, hnodup⟩
            obtain ⟨other, hother, heq⟩ := List.mem_map.1 hmem
            exact (hseen other hother).1 heq
          · exact List.forall_mem_cons.2 ⟨c.problem?_eq_none_iff.1 hproblem, hsound⟩
  · rintro ⟨hseen, hnodup, hsound⟩
    rw [firstProblem?_eq_findSome? hnodup hseen, List.findSome?_eq_none_iff]
    exact fun c hc => c.problem?_eq_none_iff.2 (hsound c hc)

/-- Nothing is wrong with the package. Its containers have different names; their
members need not. -/
structure Package.Sound (p : Package) : Prop where
  version : isBlank p.version = false
  hash : ∀ stored, p.bundleHash = some stored → stored = p.computedHash
  names : (p.containers.map (·.name)).Nodup
  containers : ∀ c ∈ p.containers, c.Sound

theorem Package.hashProblem?_eq_none_iff (p : Package) :
    p.hashProblem? = none ↔ ∀ stored, p.bundleHash = some stored → stored = p.computedHash := by
  unfold hashProblem?
  cases p.bundleHash with
  | none => simp
  | some stored => by_cases h : stored = p.computedHash <;> simp [h]

/-- The head of a package is as it should be, so the containers decide. -/
theorem Package.problem?_of_head {p : Package} (hversion : isBlank p.version = false)
    (hhash : p.hashProblem? = none) : p.problem? = firstProblem? [] p.containers := by
  rw [problem?, hversion, hhash]
  rfl

theorem Package.problem?_eq_none_iff (p : Package) : p.problem? = none ↔ p.Sound := by
  constructor
  · intro h
    cases hversion : isBlank p.version with
    | true =>
      rw [problem?, if_pos hversion] at h
      cases h
    | false =>
      cases hhash : p.hashProblem? with
      | some problem =>
        rw [problem?, hversion, hhash] at h
        cases h
      | none =>
        rw [problem?_of_head hversion hhash, firstProblem?_eq_none_iff] at h
        exact ⟨hversion, p.hashProblem?_eq_none_iff.1 hhash, h.2.1, h.2.2⟩
  · intro h
    rw [problem?_of_head h.version (p.hashProblem?_eq_none_iff.2 h.hash),
      firstProblem?_eq_none_iff]
    exact ⟨fun _ _ => List.not_mem_nil, h.names, h.containers⟩

/-- **Packages are judged in the order of the checks.** There is no problem
exactly if all checks hold; if not, there is one, that of the first check that
fails. A name that was there before comes after all that is wrong with the
containers before it, whatever is wrong with its own and behind it. And that
members share a name is no problem: what is asked of a member is said of it alone. -/
theorem judged_in_order (p : Package) :
    (p.problem?.toList = [] ↔ ∀ check ∈ p.checks, check.holds = true) ∧
    ((∃ check ∈ p.checks, check.holds = false) →
      ∃ before check after, p.checks = before ++ check :: after ∧
        (∀ c ∈ before, c.holds = true) ∧ check.holds = false ∧
        p.problem?.toList = [check.problem]) ∧
    (isBlank p.version = false → p.hashProblem? = none →
      ∀ before c rest, p.containers = before ++ c :: rest → c.name ∈ before.map (·.name) →
        p.problem? = some ((firstProblem? [] before).getD (.duplicateContainer c.name))) ∧
    (p.problem? = none ↔ p.Sound) := by
  refine ⟨?none, ?first, ?duplicate, p.problem?_eq_none_iff⟩
  case none =>
    rw [Option.toList_eq_nil_iff, p.problem?_eq_first?, first?_eq_none_iff]
  case first =>
    rintro ⟨check, hmem, hfails⟩
    obtain ⟨found, hfound⟩ : ∃ found, p.checks.find? (!·.holds) = some found :=
      Option.isSome_iff_exists.1 (List.find?_isSome.2 ⟨check, hmem, by rw [hfails]; rfl⟩)
    obtain ⟨hfound, before, after, hsplit, hbefore⟩ := List.find?_eq_some_iff_append.1 hfound
    have hbefore : ∀ c ∈ before, c.holds = true := by simpa using hbefore
    have hfound : found.holds = false := by simpa using hfound
    refine ⟨before, found, after, hsplit, hbefore, hfound, ?_⟩
    rw [p.problem?_eq_first?, hsplit, first?_of_split hbefore hfound]
    rfl
  case duplicate =>
    intro hversion hhash before c rest hcontainers hduplicate
    rw [Package.problem?_of_head hversion hhash, hcontainers, firstProblem?_of_duplicate hduplicate]

/-- The second container repeats a name and has a property without one. -/
theorem judged_in_order_twice :
    let foo (property : String) : Container :=
      { Container.ofName "Foo" with properties := [⟨property, ⟨"int"⟩⟩] }
    let package (cs : List Container) : Package := ⟨none, "1", none, none, "now", none, cs⟩
    (package [foo "a", foo ""]).problem? = some (.duplicateContainer "Foo") ∧
      (package [foo "", foo ""]).problem? = some (.emptyPropertyName "Foo") := by
  intro foo package
  have hversion : isBlank "1" = false := by decide
  have hfirst : firstProblem? [] [foo "a"] = none := by decide
  have hfirst' : firstProblem? [] [foo ""] = some (.emptyPropertyName "Foo") := by decide
  have hduplicate (before : Container) (hname : before.name = "Foo") :
      (package [before, foo ""]).problem? =
        some ((firstProblem? [] [before]).getD (.duplicateContainer "Foo")) :=
    (judged_in_order (package [before, foo ""])).2.2.1 hversion rfl [before] (foo "") [] rfl
      (List.mem_singleton.2 hname.symm)
  refine ⟨?_, ?_⟩
  · rw [hduplicate (foo "a") rfl, hfirst]
    rfl
  · rw [hduplicate (foo "") rfl, hfirst']
    rfl

end HeaderSchema
