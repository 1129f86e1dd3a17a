import HeaderSchema.CommandLine.Arguments
import HeaderSchema.CommandLine.Host
import HeaderSchema.Extraction.Run
import HeaderSchema.Schema.Validation

/-!
# The program

`extract` reads one syntax dump and writes one package; `validate` judges
packages. A command ends with an exit code and what it has to say on standard
output and on standard error. When `extract` fails, it has said nothing on
standard output and has not touched the output file.
-/

namespace HeaderSchema

/-- How the program ends. -/
structure Outcome where
  exit : Nat
  output : String
  error : String
deriving Repr, DecidableEq

/-- The program ends well. -/
def Outcome.success (output : String) (error : String := "") : Outcome :=
  ⟨0, output, error⟩

/-- The program fails for a reason. -/
def Outcome.failure (reason : String) : Outcome :=
  ⟨1, "", s!"error: {reason}\n"⟩

/-- The program does not run a command. -/
def Outcome.refused : Refusal → Outcome
  | .help topic => .success topic.page
  | .usage e => ⟨2, "", e.message⟩

variable {m : Type → Type} [Monad m] [Host m]

/-! ## Extracting -/

namespace ExtractArguments

/-- The syntax dump comes from standard input. -/
def fromInput (a : ExtractArguments) : Bool :=
  a.input == "-"

/-- How the input is named in the package and in the report. -/
def sourceLabel (a : ExtractArguments) : String :=
  if a.fromInput then "<stdin>" else a.input

def options (a : ExtractArguments) : ExtractOptions :=
  ⟨a.skipImplicit⟩

/-- The package and the report with what the arguments say about them. -/
def label (a : ExtractArguments) (run : ExtractionRun) : ExtractionRun :=
  ⟨{ run.package with source := some a.sourceLabel, name := a.name },
    { run.report with source := some a.sourceLabel }⟩

end ExtractArguments

/-- An extraction with the words for its error. -/
def reportError (result : Except ExtractError ExtractionRun) : Except String ExtractionRun :=
  match result with
  | .ok run => .ok run
  | .error e => .error s!"Extraction failed: {e.message}"

/-- Reads the syntax dump and extracts its package. -/
def extractFrom (a : ExtractArguments) : m (Except String ExtractionRun) := do
  let time ← Host.now
  if a.fromInput then
    return reportError (extractStream a.options time (← Host.input))
  else
    match ← Host.readText a.input with
    | .error e => return .error s!"Failed to read '{a.input}': {e.message}"
    | .ok content => return reportError (extractSchema a.options time content)

/-- Makes the directory in which the output file stands. -/
def prepareDirectory (path : String) : m (Except String Unit) := do
  match Path.parent? path with
  | none => return .ok ()
  | some directory =>
    if directory = "" then return .ok ()
    else
      match ← Host.makeDirectories directory with
      | .ok () => return .ok ()
      | .error e =>
        return .error s!"Failed to create output directory '{directory}': {e.message}"

def writeOutput (path rendered : String) : m (Except String Unit) := do
  match ← prepareDirectory path with
  | .error reason => return .error reason
  | .ok () =>
    match ← Host.writeFile path (.ofText rendered) with
    | .ok () => return .ok ()
    | .error e => return .error s!"Failed to write '{path}': {e.message}"

/-- The text with a line end after it, unless it is empty or has one. -/
def endLine (text : String) : String :=
  if text.isEmpty || text.toList.getLast? == some '\n' then text else text ++ "\n"

/-- Runs `extract`. The report goes to standard output when the package goes to
a file, and to standard error otherwise. -/
def runExtract (a : ExtractArguments) : m Outcome := do
  match ← extractFrom a with
  | .error reason => return .failure reason
  | .ok run =>
    let run := a.label run
    let rendered := run.package.render a.format
    let report := if a.withReport then run.report.render a.format else ""
    match a.output with
    | none => return .success (endLine rendered) report
    | some path =>
      match ← writeOutput path rendered with
      | .error reason => return .failure reason
      | .ok () => return .success report

/-! ## Validating -/

/-- The package files that one input stands for, added to those before it: the
file itself, or the JSON files by name in a directory. -/
def addInput (input : String) (paths : List String) : m (Except String (List String)) := do
  if ← Host.isDirectory input then
    match ← Host.entries input with
    | .error e => return .error s!"Failed to read '{input}': {e.message}"
    | .ok names =>
      let found := (names.map (Path.child input)).filter Path.isJson
      return .ok (found.foldl (fun paths path => Path.insert path paths) paths)
  else if ← Host.isFile input then
    if Path.isJson input then return .ok (Path.insert input paths)
    else return .error s!"Package file '{input}' must end in .json"
  else
    return .error s!"Package path '{input}' does not exist"

/-- The package files that all inputs stand for, in the order of their paths. -/
def collectPaths (paths : List String) : List String → m (Except String (List String))
  | [] => return .ok paths
  | input :: inputs => do
    match ← addInput input paths with
    | .error reason => return .error reason
    | .ok paths => collectPaths paths inputs

/-- The number of containers in a package file, which has to be sound. -/
def checkPackage (path : String) : m (Except String Nat) := do
  match ← Host.readText path with
  | .error e => return .error s!"Failed to read '{path}': {e.message}"
  | .ok content =>
    match (Shape.record .package).parseOnly content with
    | .error fault => return .error s!"Failed to parse '{path}': {fault.message content}"
    | .ok package =>
      match Package.problem? package with
      | some problem =>
        return .error s!"Package validation failed for '{path}': {problem.message}"
      | none => return .ok package.containers.length

/-- The number of containers in package files, up to the first that is not sound. -/
def checkPackages (total : Nat) : List String → m (Except String Nat)
  | [] => return .ok total
  | path :: paths => do
    match ← checkPackage path with
    | .error reason => return .error reason
    | .ok n => checkPackages (total + n) paths

def runValidate (inputs : List String) : m Outcome := do
  match ← collectPaths [] inputs with
  | .error reason => return .failure reason
  | .ok [] => return .failure "No package JSON files found in provided paths"
  | .ok paths =>
    match ← checkPackages 0 paths with
    | .error reason => return .failure reason
    | .ok total =>
      return .success s!"Validated {paths.length} package file(s) with {total} container(s).\n"

/-- Runs the program on the words after its name. -/
def runProgram (words : List String) : m Outcome :=
  match Command.ofWords words with
  | .error refusal => return .refused refusal
  | .ok (.extract arguments) => runExtract arguments
  | .ok (.validate inputs) => runValidate inputs

end HeaderSchema
