import HeaderSchema.Proofs.Collecting
import HeaderSchema.Proofs.RoundTrip
import Mathlib.Algebra.BigOperators.Group.Finset.Basic
import Mathlib.Algebra.GroupWithZero.Nat

/-!
# Sets of packages

Inputs stand for a set of packages: the parts of the paths that they stand for
(`FileView.packageSet`). A package is judged by what is read where its parts lead
(`FileView.judgeAt`), whatever the spelling of its path was. `validate` judges the set
in the order of its paths, up to the first that is rejected (`FirstRejected`), and this
leaves three things to say (`Verdict`).

So what `validate` says depends on the set alone, but for the spelling of the rejected
path (`validate_by_packages`), as long as the directories among the inputs are listed.
Which of two directories could not be listed is not in the set, nor whether there were
any inputs at all (`validate_beyond_packages`).
-/

namespace HeaderSchema

/-! ## Judging one package -/

/-- Why a package file is rejected. -/
inductive Rejection where
  | unread (e : FileError)
  | malformed (fault : String)
  | unsound (problem : Problem)
deriving Repr, DecidableEq

/-- What is said of a package file that is rejected. -/
def Rejection.message (path : String) : Rejection → String
  | .unread e => s!"Failed to read '{path}': {e.message}"
  | .malformed fault => s!"Failed to parse '{path}': {fault}"
  | .unsound problem => s!"Package validation failed for '{path}': {problem.message}"

/-- What was read, which has to be text. -/
def asText : Except FileError Bytes → Except FileError Bytes
  | .error e => .error e
  | .ok content => if (Utf8.decode? content).isSome then .ok content else .error .notText

/-- The package that was read, which has to be sound. -/
def judgeContent (content : Except FileError Bytes) : Except Rejection Package :=
  match asText content with
  | .error e => .error (.unread e)
  | .ok content =>
    match (Shape.record .package).parseOnly content with
    | .error fault => .error (.malformed (fault.message content))
    | .ok package =>
      match Package.problem? package with
      | some problem => .error (.unsound problem)
      | none => .ok package

/-- A sound package is accepted as it was rendered. -/
theorem judgeContent_render {package : Package} (hsound : package.problem? = none) :
    judgeContent (.ok (.ofText (package.render .json))) = .ok package := by
  have htext : asText (.ok (.ofText (package.render .json))) =
      .ok (.ofText (package.render .json)) := by
    rw [asText, if_pos (Utf8.isSome_decode?_ofText _)]
  have hparse : (Shape.record .package).parseOnly (.ofText (package.render .json)) =
      .ok package := (Shape.readsBack_of_decode package.decode_toJson).pretty
  unfold judgeContent
  rw [htext]
  dsimp only
  rw [hparse]
  dsimp only
  rw [hsound]

/-- The number of containers of a package that was accepted. -/
def containerCount : Except Rejection Package → Nat
  | .ok package => package.containers.length
  | .error _ => 0

/-- The judgement on what is read where parts lead. -/
def FileView.judgeAt (v : FileView) (parts : List Path.Part) : Except Rejection Package :=
  judgeContent (v.contentAt parts)

/-! ## Sets -/

namespace FileView
variable {v : FileView}

/-- The packages that inputs stand for, each by the parts of its path. -/
def packageSet (v : FileView) (inputs : List String) : Finset (List Path.Part) :=
  ((inputs.flatMap v.packagePaths).map Path.parts).toFinset

theorem mem_packageSet {inputs : List String} {parts : List Path.Part} :
    parts ∈ v.packageSet inputs ↔
      ∃ input ∈ inputs, ∃ path ∈ v.packagePaths input, Path.parts path = parts := by
  simp only [packageSet, List.mem_toFinset, List.mem_map, List.mem_flatMap]
  constructor
  · rintro ⟨path, ⟨input, hinput, hpath⟩, hparts⟩
    exact ⟨input, hinput, path, hpath, hparts⟩
  · rintro ⟨input, hinput, path, hpath, hparts⟩
    exact ⟨path, ⟨input, hinput, hpath⟩, hparts⟩

/-- Neither the order of the inputs matters nor how often they are given. -/
theorem packageSet_congr {inputs more : List String}
    (h : ∀ input, input ∈ more ↔ input ∈ inputs) : v.packageSet more = v.packageSet inputs := by
  ext parts
  simp only [mem_packageSet, h]

/-- A file in a listed directory may be given as well. -/
theorem packageSet_cons {inputs : List String} {directory path : String}
    (hdirectory : directory ∈ inputs) (hpath : path ∈ v.packagePaths directory)
    (hfile : v.isFile path) : v.packageSet (path :: inputs) = v.packageSet inputs := by
  ext parts
  simp only [mem_packageSet, List.exists_mem_cons_iff, packagePaths_of_isFile hfile,
    List.mem_singleton, exists_eq_left, or_iff_right_iff_imp]
  rintro rfl
  exact ⟨directory, hdirectory, path, hpath, rfl⟩

theorem Collected.packageSet_eq {inputs paths : List String} (h : v.Collected inputs paths) :
    v.packageSet inputs = (paths.map Path.parts).toFinset := by
  ext parts
  rw [packageSet, List.mem_toFinset, List.mem_toFinset]
  constructor
  · intro hparts
    obtain ⟨path, hpath, rfl⟩ := List.mem_map.1 hparts
    exact h.all path hpath
  · intro hparts
    obtain ⟨path, hpath, rfl⟩ := List.mem_map.1 hparts
    exact List.mem_map_of_mem (h.found path hpath)

end FileView

/-- The first of a set of packages that is rejected. -/
structure FirstRejected (judged : List Path.Part → Except Rejection Package)
    (packages : Finset (List Path.Part)) (parts : List Path.Part) (rejection : Rejection) :
    Prop where
  mem : parts ∈ packages
  rejected : judged parts = .error rejection
  least : ∀ other ∈ packages, Path.Precedes other parts → ∃ package, judged other = .ok package

namespace FirstRejected
variable {judged : List Path.Part → Except Rejection Package} {packages : Finset (List Path.Part)}
  {parts parts' : List Path.Part} {rejection rejection' : Rejection}

theorem not_precedes (h : FirstRejected judged packages parts rejection)
    (h' : FirstRejected judged packages parts' rejection') : ¬Path.Precedes parts' parts := by
  intro hprecedes
  obtain ⟨package, hpackage⟩ := h.least parts' h'.mem hprecedes
  cases h'.rejected.symm.trans hpackage

theorem unique (h : FirstRejected judged packages parts rejection)
    (h' : FirstRejected judged packages parts' rejection') :
    parts = parts' ∧ rejection = rejection' := by
  have hparts : parts = parts' := by
    rcases Path.precedes_or_eq parts parts' with hlt | heq | hgt
    · exact absurd hlt (h'.not_precedes h)
    · exact heq
    · exact absurd hgt (h.not_precedes h')
  subst hparts
  cases h.rejected.symm.trans h'.rejected
  exact ⟨rfl, rfl⟩

/-- In a sorted list, what comes before a path is what stands before it. -/
theorem of_sorted {before after : List String} {path : String}
    (hsorted : Path.Sorted (before ++ path :: after))
    (hbefore : ∀ other ∈ before, ∃ package, judged (Path.parts other) = .ok package)
    (hpath : judged (Path.parts path) = .error rejection) :
    FirstRejected judged ((before ++ path :: after).map Path.parts).toFinset (Path.parts path)
      rejection := by
  refine ⟨by simp, hpath, fun parts hparts hprecedes => ?least⟩
  case least =>
    unfold Path.Sorted at hsorted
    rw [List.mem_toFinset, List.map_append, List.mem_append] at hparts
    rw [List.map_append, List.pairwise_append] at hsorted
    rcases hparts with hparts | hparts
    · obtain ⟨other, hother, rfl⟩ := List.mem_map.1 hparts
      exact hbefore other hother
    · -- the path itself and what stands behind it do not come before it
      rw [List.map_cons] at hparts hsorted
      rcases List.mem_cons.1 hparts with rfl | hparts
      · exact absurd hprecedes (irrefl_of Path.Precedes _)
      · have hbehind := List.rel_of_pairwise_cons hsorted.2.1 hparts
        exact absurd (trans_of Path.Precedes hprecedes hbehind) (irrefl_of Path.Precedes _)

end FirstRejected

/-- What may be said of a set of packages, given the spellings of their paths. -/
inductive Verdict (judged : List Path.Part → Except Rejection Package)
    (packages : Finset (List Path.Part)) (spellings : List String) : Outcome → Prop
  | nothing : packages = ∅ →
    Verdict judged packages spellings (.failure "No package JSON files found in provided paths")
  | accepted {number total : Nat} : packages.Nonempty →
    (∀ parts ∈ packages, ∃ package, judged parts = .ok package) →
    number = packages.card → total = ∑ parts ∈ packages, containerCount (judged parts) →
    Verdict judged packages spellings
      (.success s!"Validated {number} package file(s) with {total} container(s).\n")
  | rejected {path : String} {rejection : Rejection} : path ∈ spellings →
    FirstRejected judged packages (Path.parts path) rejection →
    Verdict judged packages spellings (.failure (rejection.message path))

namespace Verdict
variable {judged : List Path.Part → Except Rejection Package} {packages : Finset (List Path.Part)}
  {spellings spellings' : List String} {outcome outcome' : Outcome}

theorem exit_eq_zero_iff (h : Verdict judged packages spellings outcome) :
    outcome.exit = 0 ↔
      packages.Nonempty ∧ ∀ parts ∈ packages, ∃ package, judged parts = .ok package := by
  cases h with
  | nothing hempty => simp [Outcome.failure, hempty]
  | accepted hsome hall _ _ => exact iff_of_true rfl ⟨hsome, hall⟩
  | rejected _ hfirst =>
    refine iff_of_false (fun hexit => by cases hexit) fun hall => ?_
    obtain ⟨package, hpackage⟩ := hall.2 _ hfirst.mem
    cases hfirst.rejected.symm.trans hpackage

theorem eq_success (h : Verdict judged packages spellings outcome) (hexit : outcome.exit = 0) :
    let total := ∑ parts ∈ packages, containerCount (judged parts)
    outcome =
      .success s!"Validated {packages.card} package file(s) with {total} container(s).\n" := by
  cases h with
  | nothing _ => cases hexit
  | accepted _ _ hnumber htotal => rw [hnumber, htotal]
  | rejected _ _ => cases hexit

/-- A failure is over nothing at all, or over the first rejected package. -/
theorem eq_failure (h : Verdict judged packages spellings outcome) (hexit : outcome.exit ≠ 0) :
    (packages = ∅ ∧ outcome = .failure "No package JSON files found in provided paths") ∨
      ∃ parts rejection, FirstRejected judged packages parts rejection ∧
        ∃ path ∈ spellings, Path.parts path = parts ∧
          outcome = .failure (rejection.message path) := by
  cases h with
  | nothing hempty => exact .inl ⟨hempty, rfl⟩
  | accepted _ _ _ _ => exact absurd rfl hexit
  | @rejected path rejection hpath hfirst =>
    exact .inr ⟨Path.parts path, rejection, hfirst, path, hpath, rfl, rfl⟩

theorem exit_eq_one (h : Verdict judged packages spellings outcome) (hexit : outcome.exit ≠ 0) :
    outcome.exit = 1 ∧ outcome.output = "" := by
  cases h with
  | nothing _ => exact ⟨rfl, rfl⟩
  | accepted _ _ _ _ => exact absurd rfl hexit
  | rejected _ _ => exact ⟨rfl, rfl⟩

section Two
variable (h : Verdict judged packages spellings outcome)
  (h' : Verdict judged packages spellings' outcome')
include h h'

theorem exit_eq_zero_congr : outcome'.exit = 0 ↔ outcome.exit = 0 :=
  h'.exit_eq_zero_iff.trans h.exit_eq_zero_iff.symm

theorem same_exit_and_output :
    outcome'.exit = outcome.exit ∧ outcome'.output = outcome.output := by
  by_cases hzero : outcome.exit = 0
  · rw [h.eq_success hzero, h'.eq_success ((h.exit_eq_zero_congr h').2 hzero)]
    exact ⟨rfl, rfl⟩
  · obtain ⟨hone, hsilent⟩ := h.exit_eq_one hzero
    obtain ⟨hone', hsilent'⟩ := h'.exit_eq_one (mt (h.exit_eq_zero_congr h').1 hzero)
    exact ⟨hone'.trans hone.symm, hsilent'.trans hsilent.symm⟩

/-- Two failures over one set are over nothing at all, or over the same package. -/
theorem same_failure (hexit : outcome.exit ≠ 0) :
    (packages = ∅ ∧ outcome' = outcome ∧
        outcome = .failure "No package JSON files found in provided paths") ∨
      ∃ parts rejection path path', FirstRejected judged packages parts rejection ∧
        (path ∈ spellings ∧ Path.parts path = parts ∧
          outcome = .failure (rejection.message path)) ∧
        (path' ∈ spellings' ∧ Path.parts path' = parts ∧
          outcome' = .failure (rejection.message path')) := by
  have hexit' := mt (h.exit_eq_zero_congr h').1 hexit
  rcases h.eq_failure hexit with
    ⟨hempty, hnothing⟩ | ⟨parts, rejection, hfirst, path, hpath, hparts, hrejected⟩
  all_goals rcases h'.eq_failure hexit' with
    ⟨hempty', hnothing'⟩ | ⟨parts', rejection', hfirst', path', hpath', hparts', hrejected'⟩
  · exact .inl ⟨hempty, hnothing'.trans hnothing.symm, hnothing⟩
  · exact absurd (hempty ▸ hfirst'.mem) (Finset.notMem_empty parts')
  · exact absurd (hempty' ▸ hfirst.mem) (Finset.notMem_empty parts)
  · obtain ⟨rfl, rfl⟩ := hfirst.unique hfirst'
    exact .inr ⟨parts, rejection, path, path', hfirst, ⟨hpath, hparts, hrejected⟩,
      hpath', hparts', hrejected'⟩

end Two

end Verdict

/-! ## The command -/

section Validating
variable {σ : Type} [Host (StateM σ)] {view : σ → FileView} (hsystem : Host.Presents view)
include hsystem

theorem readText_answers {v : FileView} {path : String} (hhas : v.Has path) :
    Answers view v (Host.readText path) (· = asText (v.contentAt (Path.parts path))) := by
  unfold Host.readText
  refine (hsystem.readFile v path hhas).bind ?_
  rintro content rfl
  cases v.contentAt (Path.parts path) with
  | error e => exact .pure rfl
  | ok content => exact .pure rfl

theorem checkPackage_answers {v : FileView} {path : String} (hhas : v.Has path) :
    Answers view v (checkPackage path) fun answer =>
      (∃ package, v.judgeAt (Path.parts path) = .ok package ∧
        answer = .ok package.containers.length) ∨
      ∃ rejection, v.judgeAt (Path.parts path) = .error rejection ∧
        answer = .error (rejection.message path) := by
  unfold checkPackage FileView.judgeAt judgeContent
  refine (readText_answers hsystem hhas).bind ?_
  rintro content rfl
  cases asText (v.contentAt (Path.parts path)) with
  | error e => exact .pure (.inr ⟨.unread e, rfl, rfl⟩)
  | ok content =>
    dsimp only
    cases (Shape.record .package).parseOnly content with
    | error fault => exact .pure (.inr ⟨.malformed (fault.message content), rfl, rfl⟩)
    | ok package =>
      dsimp only
      cases Package.problem? package with
      | some problem => exact .pure (.inr ⟨.unsound problem, rfl, rfl⟩)
      | none => exact .pure (.inl ⟨package, rfl, rfl⟩)

/-- All paths are accepted and their containers counted, or the first that is rejected
ends it. -/
theorem checkPackages_answers {v : FileView} {paths : List String}
    (hhas : ∀ path ∈ paths, v.Has path) (total : Nat) :
    let judged := fun path => v.judgeAt (Path.parts path)
    Answers view v (checkPackages total paths) fun answer =>
      ((∀ path ∈ paths, ∃ package, judged path = .ok package) ∧
        answer = .ok (total + (paths.map (containerCount <| judged ·)).sum)) ∨
      ∃ before path after rejection, paths = before ++ path :: after ∧
        (∀ other ∈ before, ∃ package, judged other = .ok package) ∧
        judged path = .error rejection ∧ answer = .error (rejection.message path) := by
  intro judged
  induction paths generalizing total with
  | nil => exact .pure (.inl ⟨nofun, rfl⟩)
  | cons path paths ih =>
    obtain ⟨hpath, hpaths⟩ := List.forall_mem_cons.1 hhas
    refine (checkPackage_answers hsystem hpath).bind ?_
    rintro _ (⟨package, hjudged, rfl⟩ | ⟨rejection, hjudged, rfl⟩)
    · refine (ih hpaths (total + package.containers.length)).mono ?_
      rintro _ (⟨hall, rfl⟩ | ⟨before, other, after, rejection, rfl, hbefore, hother, rfl⟩)
      · refine .inl ⟨List.forall_mem_cons.2 ⟨⟨package, hjudged⟩, hall⟩, ?_⟩
        have hcount : containerCount (judged path) = package.containers.length :=
          congrArg containerCount hjudged
        rw [List.map_cons, List.sum_cons, hcount, Nat.add_assoc]
      · exact .inr ⟨path :: before, other, after, rejection, rfl,
          List.forall_mem_cons.2 ⟨⟨package, hjudged⟩, hbefore⟩, hother, rfl⟩
    · exact .pure (.inr ⟨[], path, paths, rejection, rfl, nofun, hjudged, rfl⟩)

/-- **What `validate` says** of the set of packages that its inputs stand for. -/
theorem runValidate_answers {v : FileView} (hnamed : v.Named) {inputs : List String}
    (hadmits : ∀ input ∈ inputs, Host.Admits view v input) :
    let packages := v.packageSet inputs
    Answers view v (runValidate inputs)
      (Verdict v.judgeAt packages (inputs.flatMap v.packagePaths)) := by
  intro packages
  unfold runValidate
  refine (collectPaths_answers hsystem v inputs).bind ?_
  rintro _ (⟨-, paths, rfl, hcollected⟩ | ⟨⟨input, hinput, hrefused⟩, -⟩)
  · have hset : packages = (paths.map Path.parts).toFinset := hcollected.packageSet_eq
    have hsorted := hcollected.sorted
    have hhas : ∀ path ∈ paths, v.Has path := by
      intro path hpath
      obtain ⟨input, -, hpath⟩ := List.mem_flatMap.1 (hcollected.found path hpath)
      exact FileView.has_of_mem_packagePaths hnamed hpath
    rw [hset]
    cases paths with
    | nil => exact .pure (.nothing rfl)
    | cons first paths =>
      -- no path occurs twice, so sums over the list are sums over the set
      refine (checkPackages_answers hsystem hhas 0).bind ?_
      rintro _ (⟨hall, rfl⟩ | ⟨before, path, after, rejection, hpaths, hbefore, hpath, rfl⟩)
      · have hnodup := hsorted.nodup
        refine .pure (.accepted (by simp) (by simpa using hall) ?number ?total)
        case number => rw [List.toFinset_card_of_nodup hnodup, List.length_map]
        case total =>
          rw [List.sum_toFinset _ hnodup, List.map_map, Nat.zero_add]
          rfl
      · rw [hpaths] at hsorted ⊢
        refine .pure (.rejected (hcollected.found path ?_) (.of_sorted hsorted hbefore hpath))
        rw [hpaths]
        exact List.mem_append_right before List.mem_cons_self
  · exact absurd (hadmits input hinput) hrefused

/-- **`validate` depends on the set of packages.** Inputs that stand for one set, with
directories that are listed, give the same exit code and the same output: success and
the counts if there are packages and all of them are accepted, and else a failure over
the first that is rejected, of which only the spelling may differ. Inputs in another
order, given again, or covered by a directory among them stand for the same set. -/
theorem validate_by_packages {s s' : σ} (hview : view s' = view s) (hnamed : (view s).Named)
    {words words' inputs inputs' : List String}
    (hwords : Command.ofWords words = .ok (.validate inputs))
    (hwords' : Command.ofWords words' = .ok (.validate inputs'))
    (hadmits : ∀ input ∈ inputs, Host.Admits view (view s) input)
    (hadmits' : ∀ input ∈ inputs', Host.Admits view (view s) input)
    (hsame : (view s).packageSet inputs' = (view s).packageSet inputs) :
    let v := view s
    let packages := v.packageSet inputs
    let judged := v.judgeAt
    let total := ∑ parts ∈ packages, containerCount (judged parts)
    let outcome := (runOn s (runProgram words)).1
    let outcome' := (runOn s' (runProgram words')).1
    (outcome'.exit = outcome.exit ∧ outcome'.output = outcome.output) ∧
    (outcome.exit = 0 ↔
      packages.Nonempty ∧ ∀ parts ∈ packages, ∃ package, judged parts = .ok package) ∧
    (outcome.exit = 0 → outcome =
      .success s!"Validated {packages.card} package file(s) with {total} container(s).\n") ∧
    (outcome.exit ≠ 0 → outcome.exit = 1 ∧ outcome.output = "" ∧
      ((packages = ∅ ∧ outcome' = outcome ∧
          outcome = .failure "No package JSON files found in provided paths") ∨
        ∃ parts rejection path path', FirstRejected judged packages parts rejection ∧
          (path ∈ inputs.flatMap v.packagePaths ∧ Path.parts path = parts ∧
            outcome = .failure (rejection.message path)) ∧
          (path' ∈ inputs'.flatMap v.packagePaths ∧ Path.parts path' = parts ∧
            outcome' = .failure (rejection.message path')))) ∧
    (∀ more, (∀ input, input ∈ more ↔ input ∈ inputs) → v.packageSet more = packages) ∧
    ∀ directory ∈ inputs, ∀ path ∈ v.packagePaths directory, v.isFile path →
      v.packageSet (path :: inputs) = packages := by
  intro v packages judged total outcome outcome'
  have hverdict : Verdict judged packages (inputs.flatMap v.packagePaths) outcome := by
    have hrun : outcome = (runOn s (runValidate inputs)).1 := by
      simp only [outcome, runProgram, hwords]
    rw [hrun]
    exact (runValidate_answers hsystem hnamed hadmits s rfl).1
  have hverdict' : Verdict judged packages (inputs'.flatMap v.packagePaths) outcome' := by
    have hrun : outcome' = (runOn s' (runValidate inputs')).1 := by
      simp only [outcome', runProgram, hwords']
    rw [hrun]
    have h := (runValidate_answers hsystem hnamed hadmits' s' hview).1
    rwa [hsame] at h
  refine ⟨hverdict.same_exit_and_output hverdict', hverdict.exit_eq_zero_iff, hverdict.eq_success,
    fun hexit => ?failure, fun more => FileView.packageSet_congr,
    fun directory hdirectory path => FileView.packageSet_cons hdirectory⟩
  case failure =>
    obtain ⟨hone, hsilent⟩ := hverdict.exit_eq_one hexit
    exact ⟨hone, hsilent, hverdict.same_failure hverdict' hexit⟩

end Validating

/-- A package that a listed directory has, given by another spelling as well. -/
theorem validate_by_packages_covered :
    let package : Package := ⟨none, "1", none, none, "", none, []⟩
    let w : World :=
      ⟨.directory [("d", .directory [("p.json", .file (.ofText (package.render .json)))])], [],
        .ok [], "now"⟩
    let outcome := (runOn w (runProgram ["validate", "d"])).1
    let outcome' := (runOn w (runProgram ["validate", "d//p.json", "d", "d"])).1
    outcome = .success "Validated 1 package file(s) with 0 container(s).\n" ∧
      outcome'.exit = 0 ∧ outcome'.output = outcome.output := by
  intro package w outcome outcome'
  have hnamed : w.Named := by
    refine FileTree.named_directory (List.forall_mem_singleton.2 ⟨by decide, ?_⟩)
    exact FileTree.named_directory (List.forall_mem_singleton.2 ⟨by decide, FileTree.named_file _⟩)
  have hpackages : w.openView.packageSet ["d"] = {[.name "d", .name "p.json"]} := by
    decide
  have hjudged : w.openView.judgeAt [.name "d", .name "p.json"] = .ok package :=
    judgeContent_render (by decide)
  have hwords : Command.ofWords ["validate", "d"] = .ok (.validate ["d"]) := rfl
  have hwords' : Command.ofWords ["validate", "d//p.json", "d", "d"] =
      .ok (.validate ["d//p.json", "d", "d"]) := rfl
  have hadmits : ∀ input ∈ ["d"], Host.Admits World.openView w.openView input :=
    fun input hinput => World.admits_iff.2 (by revert input; decide)
  have hadmits' : ∀ input ∈ ["d//p.json", "d", "d"], Host.Admits World.openView w.openView input :=
    fun input hinput => World.admits_iff.2 (by revert input; decide)
  obtain ⟨⟨hexit, houtput⟩, hzero, hsuccess, -⟩ :=
    validate_by_packages World.presents (s := w) rfl (World.named_view hnamed) hwords hwords'
      hadmits hadmits' (by decide)
  rw [hpackages] at hzero hsuccess
  have hdone : outcome.exit = 0 :=
    hzero.2 ⟨Finset.singleton_nonempty _, by simp [hjudged]⟩
  refine ⟨(hsuccess hdone).trans ?_, hexit.trans hdone, houtput⟩
  rw [Finset.card_singleton, Finset.sum_singleton, hjudged]
  decide

/-- The first directory that may not be listed is named, and the set does not say which
that is. Nor does it say whether directories without packages were given, or nothing. -/
theorem validate_beyond_packages :
    let w : World :=
      ⟨.directory [("d1", .directory []), ("d2", .directory [])], [], .ok [], "now"⟩
    let s : GuardedWorld := ⟨w, [["d1"], ["d2"]]⟩
    let v := w.openView
    (Host.Presents fun g : GuardedWorld => g.world.openView) ∧
    v.isDirectory "d1" ∧ v.isDirectory "d2" ∧
    v.packageSet ["d1", "d2"] = ∅ ∧ v.packageSet ["d2", "d1"] = ∅ ∧ v.packageSet [] = ∅ ∧
    (runOn s (runProgram ["validate", "d1", "d2"])).1 =
      .failure "Failed to read 'd1': Permission denied (os error 13)" ∧
    (runOn s (runProgram ["validate", "d2", "d1"])).1 =
      .failure "Failed to read 'd2': Permission denied (os error 13)" ∧
    (runOn w (runProgram ["validate"])).1.exit = 2 ∧
    (runOn w (runProgram ["validate", "d1", "d2"])).1 =
      .failure "No package JSON files found in provided paths" := by
  refine ⟨GuardedWorld.shows.presents, rfl, rfl, rfl, rfl, rfl, rfl, rfl, rfl, rfl⟩

end HeaderSchema
