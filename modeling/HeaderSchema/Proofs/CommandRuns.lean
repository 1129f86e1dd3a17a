import HeaderSchema.Proofs.Footprint
import HeaderSchema.Text.Utf8.Lemmas

/-!
# Running the commands in a world

What `extract` and `validate` come to in a world, step by step: the world is
threaded through the parts of a command (`World.run_bind`), and each part is one
equation. `extract` leaves the world that the output was written to
(`World.run_runExtract`); `validate` leaves the world as it is
(`World.run_runValidate`).
-/

namespace HeaderSchema

namespace World

/-- Runs a command. -/
def run {α : Type} (w : World) (command : StateM World α) : α × World :=
  StateT.run command w

/-- The syntax dump that `extract` finds, if all of it can be read. A file has to
be text. -/
def dump? (w : World) (a : ExtractArguments) : Option Bytes :=
  if a.fromInput then w.input.toOption
  else (w.readFile a.input).toOption.filter fun content => (Utf8.decode? content).isSome

/-! ## Steps of a command -/

theorem run_bind {α β : Type} {w w' : World} {x : StateM World α} {a : α}
    (h : w.run x = (a, w')) (f : α → StateM World β) : w.run (x >>= f) = w'.run (f a) := by
  change (w.run x).2.run (f (w.run x).1) = _
  rw [h]

theorem run_readText {w : World} {path : String} {content : Bytes}
    (hfile : w.readFile path = .ok content) (htext : (Utf8.decode? content).isSome = true) :
    w.run (Host.readText path) = (.ok content, w) := by
  have hread : w.run (Host.readFile path) = (.ok content, w) := congrArg (·, w) hfile
  unfold Host.readText
  rw [run_bind hread]
  dsimp only
  rw [if_pos htext]
  rfl

/-! ## Extracting -/

theorem run_extractFrom {w : World} {a : ExtractArguments} {dump : Bytes}
    (h : w.dump? a = some dump) :
    w.run (extractFrom a) = (reportError (extractSchema a.options w.time dump), w) := by
  have hnow : w.run Host.now = (w.time, w) := rfl
  unfold extractFrom
  rw [run_bind hnow]
  unfold dump? at h
  split at h
  · next hinput =>
    have hdump : w.input = .ok dump := by
      cases hw : w.input with
      | ok input =>
        rw [hw] at h
        exact congrArg Except.ok (Option.some.inj h)
      | error reason =>
        rw [hw] at h
        cases h
    have hread : w.run Host.input = (.ok dump, w) := congrArg (·, w) hdump
    rw [if_pos hinput, run_bind hread]
    rfl
  · next hinput =>
    obtain ⟨hsome, htext⟩ := Option.filter_eq_some_iff.1 h
    have hfile : w.readFile a.input = .ok dump := by
      cases hw : w.readFile a.input with
      | ok content =>
        rw [hw] at hsome
        exact congrArg Except.ok (Option.some.inj hsome)
      | error reason =>
        rw [hw] at hsome
        cases hsome
    rw [if_neg hinput, run_bind (run_readText hfile htext)]
    rfl

theorem run_runExtract {w w' : World} {a : ExtractArguments} {dump : Bytes} {path : String}
    {run : ExtractionRun} (hdump : w.dump? a = some dump)
    (hrun : extractSchema a.options w.time dump = .ok run) (hpath : a.output = some path)
    (hwritten : w.run (writeOutput path ((a.label run).package.render a.format)) = (.ok (), w')) :
    w.run (runExtract a) =
      (.success (if a.withReport then (a.label run).report.render a.format else ""), w') := by
  have hextracted := run_extractFrom hdump
  rw [hrun] at hextracted
  unfold runExtract
  rw [run_bind hextracted]
  dsimp only [reportError]
  rw [hpath]
  dsimp only
  rw [run_bind hwritten]
  rfl

/-- An output that was written stands in the file of the path. -/
theorem tree_writeOutput {w w' : World} {path rendered : String}
    (h : w.run (writeOutput path rendered) = (.ok (), w')) :
    w'.tree path = .ok (.file (.ofText rendered)) := by
  have hended : runOn w (writeOutput path rendered) = (.ok (), w') := h
  have hcases := writeOutput_cases World.keeps w path rendered
  rw [hended] at hcases
  rcases hcases with ⟨reason, hfails, -⟩ | ⟨-, place, hplace, hspot, -⟩
  · cases hfails
  · exact tree_of_place hplace hspot

/-! ## Validating -/

theorem run_collectPaths {w : World} {path : String} {content : Bytes}
    (hjson : Path.isJson path = true) (htree : w.tree path = .ok (.file content)) :
    w.run (collectPaths [] [path]) = (.ok [path], w) := by
  have hdirectory : w.run (Host.isDirectory path) = (false, w) := by
    change (w.isDirectory path, w) = _
    rw [isDirectory, htree]
  have hfile : w.run (Host.isFile path) = (true, w) := by
    change (w.isFile path, w) = _
    rw [isFile, htree]
  have hadd : w.run (addInput path []) = (.ok [path], w) := by
    unfold addInput
    rw [run_bind hdirectory, if_neg Bool.false_ne_true, run_bind hfile, if_pos rfl, if_pos hjson]
    rfl
  rw [collectPaths, run_bind hadd]
  rfl

section Package
variable {w : World} {path text : String} (htree : w.tree path = .ok (.file (.ofText text)))
  {p : Package} (hparse : (Shape.record .package).parseOnly (.ofText text) = .ok p)
include htree hparse

theorem run_checkPackage :
    w.run (checkPackage path) =
      (match p.problem? with
        | none => .ok p.containers.length
        | some problem =>
          .error s!"Package validation failed for '{path}': {problem.message}", w) := by
  have hfile : w.readFile path = .ok (.ofText text) := by
    rw [readFile, htree]
  unfold checkPackage
  rw [run_bind (run_readText hfile (Utf8.isSome_decode?_ofText text))]
  dsimp only
  rw [hparse]
  dsimp only
  cases p.problem? <;> rfl

/-- Judging one file that reads as a package. -/
theorem run_runValidate (hjson : Path.isJson path = true) :
    w.run (runValidate [path]) =
      (match p.problem? with
        | none => .success
            s!"Validated {1} package file(s) with {p.containers.length} container(s).\n"
        | some problem =>
          .failure s!"Package validation failed for '{path}': {problem.message}", w) := by
  have hcheck := run_checkPackage htree hparse
  unfold runValidate
  rw [run_bind (run_collectPaths hjson htree)]
  dsimp only
  cases hproblem : p.problem? with
  | none =>
    rw [hproblem] at hcheck
    have hall : w.run (checkPackages 0 [path]) = (.ok p.containers.length, w) := by
      rw [checkPackages, run_bind hcheck]
      dsimp only
      rw [Nat.zero_add]
      rfl
    rw [run_bind hall]
    rfl
  | some problem =>
    rw [hproblem] at hcheck
    have hall : w.run (checkPackages 0 [path]) =
        (.error s!"Package validation failed for '{path}': {problem.message}", w) := by
      rw [checkPackages, run_bind hcheck]
      rfl
    rw [run_bind hall]
    rfl

end Package

end World

end HeaderSchema
