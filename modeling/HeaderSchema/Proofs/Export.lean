import HeaderSchema.Proofs.CommandRuns
import HeaderSchema.Proofs.Naming
import HeaderSchema.Proofs.NodeReading
import HeaderSchema.Proofs.RoundTrip

/-!
# Exporting and judging

A package that `extract` wrote as JSON is read back as it is, so `validate`
judges it as the extracted package itself (`export_judged`). For this the two
commands are run in a world, one after the other.
-/

namespace HeaderSchema

/-- **Exports are judged by their names.** Whatever name, source and time an
extracted package is given, its JSON rendering is read back as it is. It is sound
exactly if the root is well named, and otherwise it has one problem, a blank name
or type. So `validate` accepts a file that `extract` wrote, and counts its
targets, exactly if the root is well named. -/
theorem export_judged {options : ExtractOptions} {time : String} {dump : Bytes}
    {run : ExtractionRun} (hrun : extractSchema options time dump = .ok run) :
    ∃ root, Node.parse dump = .ok root ∧
      (∀ (name source : Option String) (generatedAt : String),
        let p := run.package.labelled name source generatedAt
        (Shape.record .package).parseOnly (.ofText (p.render .json)) = .ok p ∧
        (p.problem? = none ↔ root.WellNamed options) ∧
        ∀ problem, p.problem? = some problem → problem.IsEmptyName) ∧
      ∀ (w w' : World) (words words' : List String) (a : ExtractArguments) (path : String),
        Command.ofWords words = .ok (.extract a) → a.options = options → a.format = .json →
        a.output = some path → Path.isJson path = true →
        Command.ofWords words' = .ok (.validate [path]) →
        w.time = time → w.dump? a = some dump →
        w.run (writeOutput path ((a.label run).package.render .json)) = (.ok (), w') →
        let report := if a.withReport then (a.label run).report.render .json else ""
        let targets := (root.declarations.filterMap Node.target?).eraseDups
        w.run (runProgram words) = (.success report, w') ∧
        (root.WellNamed options → w'.run (runProgram words') =
          (.success s!"Validated 1 package file(s) with {targets.length} container(s).\n", w')) ∧
        (¬root.WellNamed options → ∃ problem : Problem, problem.IsEmptyName ∧
          w'.run (runProgram words') =
            (.failure s!"Package validation failed for '{path}': {problem.message}", w')) := by
  obtain ⟨root, hroot, hcount, hjudge⟩ := judge_extracted hrun
  have hback (p : Package) :
      (Shape.record .package).parseOnly (.ofText (p.render .json)) = .ok p :=
    (Shape.readsBack_of_decode p.decode_toJson).pretty
  refine ⟨root, hroot, fun name source generatedAt => ⟨hback _, hjudge _ _ _⟩, ?_⟩
  intro w w' words words' a path hwords hoptions hformat houtput hjson hwords' htime hdump hwritten
    report targets
  -- the arguments set a name and a source, which the judge does not look at
  obtain ⟨hsound, hempty⟩ : ((a.label run).package.problem? = none ↔ root.WellNamed options) ∧
      ∀ problem, (a.label run).package.problem? = some problem → problem.IsEmptyName :=
    hjudge a.name (some a.sourceLabel) run.package.generatedAt
  have hlength : (a.label run).package.containers.length = targets.length := hcount
  have hvalidate := World.run_runValidate (World.tree_writeOutput hwritten) (hback _) hjson
  refine ⟨?extract, ?accepted, ?refused⟩
  case extract =>
    subst hoptions htime
    rw [← hformat] at hwritten
    have h := World.run_runExtract hdump hrun houtput hwritten
    rw [hformat] at h
    rw [runProgram, hwords]
    exact h
  case accepted =>
    intro hnamed
    rw [runProgram, hwords', hvalidate, hsound.2 hnamed, hlength]
    rfl
  case refused =>
    intro hnot
    obtain ⟨problem, hproblem⟩ := Option.ne_none_iff_exists'.1 fun h => hnot (hsound.1 h)
    refine ⟨problem, hempty problem hproblem, ?_⟩
    rw [runProgram, hwords', hvalidate, hproblem]

/-- A protocol is exported next to its dump. -/
theorem export_judged_protocol :
    let document := Json.object [("kind", .string "TranslationUnitDecl"),
      ("inner", .array [.object [("kind", .string "ObjCProtocolDecl"), ("name", .string "Foo")]])]
    let dump : Bytes := .ofText document.compact
    let protocol : Node := { Node.ofKind "ObjCProtocolDecl" with name := some "Foo" }
    let e := Extraction.empty.absorbNodes ⟨false⟩ [protocol]
    let run : ExtractionRun := ⟨e.registry.toPackage extractorVersion "now", e.report⟩
    let a : ExtractArguments := ⟨"in", .json, some "F.json", false, false, none⟩
    let world (entries : List (String × FileTree)) : World :=
      ⟨.directory entries, [], .ok [], "now"⟩
    let w := world [("in", .file dump)]
    let exported := (a.label run).package.render .json
    let w' := world [("in", .file dump), ("F.json", .file (.ofText exported))]
    extractSchema ⟨false⟩ "now" dump = .ok run ∧
    w.run (runProgram ["extract", "--input", "in", "--format", "json", "--output", "F.json"]) =
      (.success "", w') ∧
    w'.run (runProgram ["validate", "F.json"]) =
      (.success s!"Validated 1 package file(s) with {1} container(s).\n", w') := by
  intro document dump protocol e run a world w exported w'
  have hparse : Node.parse dump =
      .ok { Node.ofKind "TranslationUnitDecl" with inner := [protocol] } := by
    have h := Node.parse_text (Json.spelled_compact document) isGap_nil []
    rw [List.append_nil, List.nil_append, ← String.toList_ofList (l := document.compactChars)] at h
    exact h
  have hrun : extractSchema ⟨false⟩ "now" dump = .ok run := by
    rw [extractSchema, hparse]
    rfl
  have hdump : w.dump? a = some dump := by
    have hread (content : Bytes) : (world [("in", .file content)]).readFile "in" = .ok content :=
      rfl
    have hinput : ¬a.fromInput = true := by decide
    rw [World.dump?, if_neg hinput, hread]
    refine Option.filter_eq_some_iff.2 ⟨rfl, ?_⟩
    rw [show dump = Utf8.encode _ from rfl, Utf8.decode?_encode]
    rfl
  have hwritten (content : Bytes) (rendered : String) :
      (world [("in", .file content)]).run (writeOutput "F.json" rendered) =
        (.ok (), world [("in", .file content), ("F.json", .file (.ofText rendered))]) :=
    rfl
  obtain ⟨root, hroot, -, hcommands⟩ := export_judged hrun
  rw [hparse] at hroot
  cases hroot
  obtain ⟨hextract, haccept, -⟩ := hcommands w w'
    ["extract", "--input", "in", "--format", "json", "--output", "F.json"]
    ["validate", "F.json"] a "F.json" rfl rfl rfl rfl rfl rfl rfl hdump (hwritten dump exported)
  have hnamed : Node.WellNamed ⟨false⟩
      { Node.ofKind "TranslationUnitDecl" with inner := [protocol] } := by
    intro decl hdecl _
    obtain rfl : decl = protocol := List.mem_singleton.1 hdecl
    exact ⟨⟨"Foo", rfl, by decide⟩, ⟨nofun, nofun⟩⟩
  exact ⟨hrun, hextract, haccept hnamed⟩

end HeaderSchema
