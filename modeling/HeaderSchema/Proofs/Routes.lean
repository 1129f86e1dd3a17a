import HeaderSchema.Proofs.CommandRuns
import HeaderSchema.Proofs.LineEnds
import HeaderSchema.Proofs.Naming
import HeaderSchema.Proofs.NodeReading

/-!
# The routes of `extract`

A syntax dump comes from a file or from standard input, and its package goes to a
file or to standard output. What is extracted depends on the dump and the options
alone (`extractSchema_eq_map`), and whether a file can be written does not depend on
what is written (`World.Writable.writes`). So the four routes fail together or
deliver the same package and the same report, up to the label of the source and the
time (`routes_agree`). On standard output a line end is added to a rendering that
lacks one.
-/

namespace HeaderSchema

/-! ## What is extracted -/

/-- The time is only set in the package at the end. -/
theorem extractSchema_eq_map (options : ExtractOptions) (time : String) (input : Bytes) :
    extractSchema options time input =
      ((Node.parse input).bind (Extraction.ofRoot options)).map fun e =>
        ⟨e.registry.toPackage extractorVersion time, e.report⟩ := by
  unfold extractSchema ExtractionRun.ofRoot
  cases Node.parse input with
  | error e => rfl
  | ok root =>
    change Except.bind (Extraction.ofRoot options root) _ =
      Except.map _ (Extraction.ofRoot options root)
    cases Extraction.ofRoot options root <;> rfl

namespace World
variable {w : World} {a : ExtractArguments} {path : String}

/-- The syntax dump stands where the arguments say. -/
def Offers (w : World) (a : ExtractArguments) (dump : Bytes) : Prop :=
  if a.fromInput then w.input = .ok dump else w.readFile a.input = .ok dump

theorem Offers.dump? {text : String} (h : w.Offers a (.ofText text)) :
    w.dump? a = some (.ofText text) := by
  unfold Offers at h
  unfold World.dump?
  split
  · next hinput =>
    rw [if_pos hinput] at h
    rw [h]
    rfl
  · next hinput =>
    rw [if_neg hinput] at h
    rw [h]
    exact Option.filter_eq_some_iff.2 ⟨rfl, Utf8.isSome_decode?_ofText text⟩

/-! ## Where it is written -/

/-- A file can be written at the path. -/
def Writable (w : World) (path : String) : Prop :=
  ∃ text, (w.run (writeOutput path text)).1 = .ok ()

theorem fst_writeFile (w : World) (path : String) (content other : Bytes) :
    (w.writeFile path content).1 = (w.writeFile path other).1 := by
  unfold writeFile
  repeat' split
  all_goals rfl

theorem Writable.writes (h : w.Writable path) (rendered : String) :
    ∃ w', w.run (writeOutput path rendered) = (.ok (), w') := by
  obtain ⟨text, hwritten⟩ := h
  obtain ⟨⟨made, w₁⟩, hmade⟩ : ∃ result, w.run (prepareDirectory path) = result := ⟨_, rfl⟩
  unfold writeOutput at hwritten ⊢
  rw [run_bind hmade] at hwritten ⊢
  cases made with
  | error reason => cases hwritten
  | ok made =>
    dsimp only at hwritten ⊢
    have hsame := w₁.fst_writeFile path (.ofText text) (.ofText rendered)
    obtain ⟨⟨result, w₂⟩, hresult⟩ : ∃ result, w₁.writeFile path (.ofText text) = result :=
      ⟨_, rfl⟩
    obtain ⟨⟨result', w₃⟩, hresult'⟩ : ∃ result, w₁.writeFile path (.ofText rendered) = result :=
      ⟨_, rfl⟩
    have hrun : w₁.run (Host.writeFile path (.ofText text)) = (result, w₂) := hresult
    have hrun' : w₁.run (Host.writeFile path (.ofText rendered)) = (result', w₃) := hresult'
    rw [run_bind hrun] at hwritten
    rw [hresult, hresult'] at hsame
    dsimp only at hsame
    subst hsame
    cases result with
    | error e => cases hwritten
    | ok result =>
      refine ⟨w₃, ?_⟩
      rw [run_bind hrun']
      rfl

/-! ## The command -/

theorem run_runExtract_refused {dump : Bytes} {e : ExtractError} (hdump : w.dump? a = some dump)
    (h : extractSchema a.options w.time dump = .error e) :
    w.run (runExtract a) = (.failure s!"Extraction failed: {e.message}", w) := by
  have hextracted := run_extractFrom hdump
  rw [h] at hextracted
  unfold runExtract
  rw [run_bind hextracted]
  rfl

theorem run_runExtract_shown {dump : Bytes} {run : ExtractionRun} (hdump : w.dump? a = some dump)
    (hrun : extractSchema a.options w.time dump = .ok run) (houtput : a.output = none) :
    w.run (runExtract a) =
      (.success (endLine ((a.label run).package.render a.format))
        (if a.withReport then (a.label run).report.render a.format else ""), w) := by
  have hextracted := run_extractFrom hdump
  rw [hrun] at hextracted
  unfold runExtract
  rw [run_bind hextracted]
  dsimp only [reportError]
  rw [houtput]
  rfl

/-- What a run comes to on each route, once the package could be had. -/
theorem run_runExtract_routes {dump : Bytes} {run : ExtractionRun} (hdump : w.dump? a = some dump)
    (hrun : extractSchema a.options w.time dump = .ok run) :
    let schema := (a.label run).package.render a.format
    let summary := if a.withReport then (a.label run).report.render a.format else ""
    (a.output = none → w.run (runExtract a) = (.success (endLine schema) summary, w)) ∧
    ∀ path, a.output = some path → w.Writable path →
      ∃ w', w.run (runExtract a) = (.success summary, w') ∧
        w'.tree path = .ok (.file (.ofText schema)) := by
  intro schema summary
  refine ⟨run_runExtract_shown hdump hrun, fun path houtput hpath => ?_⟩
  obtain ⟨w', hwritten⟩ := hpath.writes schema
  exact ⟨w', run_runExtract hdump hrun houtput hwritten, tree_writeOutput hwritten⟩

end World

/-- **All routes deliver the same.** Whether a dump that is text comes from a file or
from standard input, and whether the schema goes to a file that can be written or to
standard output: the routes all fail for the same reason, or they all succeed. Then
they deliver the same package and the same report, but for the label of the source
and the time. Standard output shows what the file would hold, and a line end if that
says something and does not end with one. That is so for JSON, and for YAML that ends
with a category's name which ends open. The report goes to standard error if the
schema is shown, and else alone to standard output. -/
theorem routes_agree (text : String) (options : ExtractOptions) :
    (∃ e : ExtractError, ∀ (w : World) (words : List String) (a : ExtractArguments),
      Command.ofWords words = .ok (.extract a) → a.options = options →
      w.Offers a (.ofText text) →
      w.run (runProgram words) = (.failure s!"Extraction failed: {e.message}", w)) ∨
    ∃ (package : Package) (report : Report),
      ∀ (w : World) (words : List String) (a : ExtractArguments),
      Command.ofWords words = .ok (.extract a) → a.options = options →
      w.Offers a (.ofText text) →
      let schema := (package.labelled a.name (some a.sourceLabel) w.time).render a.format
      let shown := schema ++ if schema ≠ "" ∧ ¬EndsLine schema then "\n" else ""
      let labelled : Report := { report with source := some a.sourceLabel }
      let summary := if a.withReport then labelled.render a.format else ""
      (a.output = none → w.run (runProgram words) = (.success shown summary, w)) ∧
      (∀ path, a.output = some path → w.Writable path →
        ∃ w', w.run (runProgram words) = (.success summary, w') ∧
          w'.tree path = .ok (.file (.ofText schema))) ∧
      (schema ≠ "" ∧ ¬EndsLine schema ↔ a.format = .json ∨ a.format = .yaml ∧ package.EndsOpen) ∧
      (shown = "" ↔ a.format = .text ∧ package.containers = []) := by
  cases hextracted :
      (Node.parse (.ofText text)).bind (Extraction.ofRoot options) with
  | error e =>
    refine .inl ⟨e, fun w words a hwords hoptions hdump => ?_⟩
    subst hoptions
    rw [runProgram, hwords]
    refine World.run_runExtract_refused hdump.dump? ?_
    rw [extractSchema_eq_map, hextracted]
    rfl
  | ok e =>
    refine .inr ⟨e.registry.toPackage extractorVersion "", e.report, ?_⟩
    intro w words a hwords hoptions hdump schema shown labelled summary
    subst hoptions
    have hrun : extractSchema a.options w.time (.ofText text) =
        .ok ⟨e.registry.toPackage extractorVersion w.time, e.report⟩ := by
      rw [extractSchema_eq_map, hextracted]
      rfl
    obtain ⟨hshown, hwritten⟩ := World.run_runExtract_routes hdump.dump? hrun
    rw [endLine_eq] at hshown
    rw [runProgram, hwords]
    refine ⟨hshown, hwritten, Package.unended_render_iff .., ?_⟩
    have hempty : shown = "" ↔ schema = "" := by
      by_cases hsays : schema = "" <;> simp [shown, hsays]
    exact hempty.trans (Package.render_eq_empty_iff ..)

/-- A protocol without members, on all four routes. -/
theorem routes_agree_protocol :
    let document := Json.object [("kind", .string "TranslationUnitDecl"),
      ("inner", .array [.object [("kind", .string "ObjCProtocolDecl"), ("name", .string "Foo")]])]
    let dump : Bytes := .ofText document.compact
    let w : World := ⟨.directory [("in", .file dump)], [], .ok dump, "now"⟩
    w.run (runProgram ["extract", "--input", "-"]) = (.success "protocol Foo\n", w) ∧
    w.run (runProgram ["extract", "--input", "in"]) = (.success "protocol Foo\n", w) ∧
    (∃ w', w.run (runProgram ["extract", "--input", "-", "--output", "out"]) = (.success "", w') ∧
      w'.tree "out" = .ok (.file (.ofText "protocol Foo\n"))) ∧
    ∃ w', w.run (runProgram ["extract", "--input", "in", "--output", "out"]) = (.success "", w') ∧
      w'.tree "out" = .ok (.file (.ofText "protocol Foo\n")) := by
  intro document dump w
  have hparse : Node.parse dump = .ok { Node.ofKind "TranslationUnitDecl" with
      inner := [{ Node.ofKind "ObjCProtocolDecl" with name := some "Foo" }] } :=
    Node.parse_compact rfl
  have hwords : Command.ofWords ["extract", "--input", "-"] =
      .ok (.extract ⟨"-", .text, none, false, false, none⟩) := rfl
  -- the route through both standard streams says what the others have to deliver
  have hstreams : w.run (runProgram ["extract", "--input", "-"]) =
      (.success "protocol Foo\n", w) := by
    obtain ⟨run, hrun, htext⟩ : ∃ run, extractSchema ⟨false⟩ "now" dump = .ok run ∧
        endLine run.package.toText = "protocol Foo\n" := by
      rw [extractSchema_eq_map, hparse]
      exact ⟨_, rfl, rfl⟩
    rw [runProgram, hwords, ← htext]
    exact World.run_runExtract_shown rfl hrun rfl
  rcases routes_agree document.compact ⟨false⟩ with ⟨e, hfails⟩ | ⟨package, report, hdelivers⟩
  · have h := hfails w _ _ hwords rfl rfl
    rw [hstreams] at h
    cases h
  · obtain ⟨hshown, -, hends, -⟩ := hdelivers w _ _ hwords rfl rfl
    have htext : package.toText = "protocol Foo\n" := by
      have h := hshown rfl
      rw [hstreams, if_neg fun h => (hends.1 h).elim nofun nofun] at h
      exact (String.append_empty.symm.trans (congrArg (·.1.output) h).symm)
    have hwritable : w.Writable "out" := ⟨"", rfl⟩
    rw [← htext] at hstreams ⊢
    refine ⟨hstreams, ?fromFile, ?toFile, ?throughFiles⟩
    case fromFile =>
      obtain ⟨hshown, -, hends, -⟩ := hdelivers w ["extract", "--input", "in"] _ rfl rfl rfl
      have h := hshown rfl
      rw [if_neg fun h => (hends.1 h).elim nofun nofun] at h
      exact h.trans (congrArg (fun shown => (Outcome.success shown, w)) String.append_empty)
    case toFile =>
      exact (hdelivers w ["extract", "--input", "-", "--output", "out"] _ rfl rfl rfl).2.1 "out" rfl
        hwritable
    case throughFiles =>
      exact (hdelivers w ["extract", "--input", "in", "--output", "out"] _ rfl rfl rfl).2.1 "out"
        rfl hwritable

/-- A category's name that is written as a literal block and ends with a line separator
stands at the end of the YAML file as it is, so on standard output a line end follows
it. -/
theorem yaml_ends_open :
    let document := Json.object [("kind", .string "TranslationUnitDecl"),
      ("inner", .array [.object [("kind", .string "ObjCCategoryDecl"), ("name", .string "\n\u2028"),
        ("interface", .object [("name", .string "A")])]])]
    let w : World := ⟨.directory [], [], .ok (.ofText document.compact), "now"⟩
    ∃ schema, schema ≠ "" ∧ ¬EndsLine schema ∧
      w.run (runProgram ["extract", "--input", "-", "--format", "yaml"]) =
        (.success (schema ++ "\n"), w) ∧
      ∃ w', w.run (runProgram ["extract", "--input", "-", "--format", "yaml", "--output", "o"]) =
          (.success "", w') ∧
        w'.tree "o" = .ok (.file (.ofText schema)) := by
  intro document w
  have hparse : Node.parse (.ofText document.compact) = .ok { Node.ofKind "TranslationUnitDecl" with
      inner := [{ Node.ofKind "ObjCCategoryDecl" with
        name := some "\n\u2028", interface := some { Node.ofKind "" with name := some "A" } }] } :=
    Node.parse_compact rfl
  obtain ⟨run, hrun, hopen⟩ : ∃ run,
      extractSchema ⟨false⟩ "now" (.ofText document.compact) = .ok run ∧ run.package.EndsOpen := by
    rw [extractSchema_eq_map, hparse]
    exact ⟨_, rfl, _, rfl, "\n\u2028", rfl, by decide, .inl (by decide)⟩
  let shows : ExtractArguments := ⟨"-", .yaml, none, false, false, none⟩
  let writes : ExtractArguments := ⟨"-", .yaml, some "o", false, false, none⟩
  have hunended :=
    (Package.unended_render_iff (shows.label run).package .yaml).2 (.inr ⟨rfl, hopen⟩)
  obtain ⟨hshown, -⟩ := World.run_runExtract_routes (w := w) (a := shows) rfl hrun
  obtain ⟨-, hwritten⟩ := World.run_runExtract_routes (w := w) (a := writes) rfl hrun
  have hline : endLine ((shows.label run).package.render .yaml) =
      (shows.label run).package.render .yaml ++ "\n" := by
    rw [endLine_eq, if_pos hunended]
  refine ⟨(shows.label run).package.render .yaml, hunended.1, hunended.2, ?shown, ?written⟩
  case shown =>
    rw [← hline]
    exact hshown rfl
  case written => exact hwritten "o" rfl ⟨"", rfl⟩

end HeaderSchema
