import HeaderSchema.CommandLine.Program
import HeaderSchema.Proofs.Conversion
import HeaderSchema.Proofs.NodeReading
import HeaderSchema.Proofs.WorldChanges
import Mathlib.Logic.Relation

/-!
# What `extract` leaves behind

`extract` runs in a system, of which a world is a part. The system may fail in
ways that the world alone does not: a right is missing, or the disk is full. But
an operation that fails changes nothing, and one that succeeds does what it does
to a world (`Host.Keeps`).

Whatever `extract` does before it writes the output file, it only makes
directories above that file (`World.Grown`). Each part of the command keeps to
this (`Moves`), so a failure leaves every file as it was, and a success changes
one file (`extract_leaves`).
-/

namespace HeaderSchema

/-! ## Directories above a path -/

/-- A directory above another path, by the spelling of the two. -/
def Path.Above : String → String → Prop :=
  Relation.TransGen fun directory path => Path.parent? path = some directory

theorem Path.mem_chain {n : Nat} {path directory : String} (h : path ∈ Path.chain n directory) :
    path = directory ∨ Path.Above path directory := by
  induction n generalizing directory with
  | zero => cases h
  | succ n ih =>
    rw [Path.chain] at h
    split at h
    · cases h
    · split at h
      · exact .inl (List.mem_singleton.1 h)
      · next above habove =>
        rcases List.mem_cons.1 h with rfl | hmem
        · exact .inl rfl
        · rcases ih hmem with rfl | hfurther
          · exact .inr (.single habove)
          · exact .inr (hfurther.tail habove)

/-- The chain of the directory of a path lies above the path. -/
theorem Path.above_of_mem_chain {n : Nat} {path directory above : String}
    (hdirectory : Path.parent? path = some directory) (h : above ∈ Path.chain n directory) :
    Path.Above above path := by
  rcases Path.mem_chain h with rfl | habove
  · exact .single hdirectory
  · exact habove.tail hdirectory

/-! ## Worlds with more directories -/

namespace World

/-- A place of a world is as it was, or a directory above a path was made there. -/
def KeptAt (path : String) (w w' : World) (place : List String) : Prop :=
  w'.spot place = w.spot place ∨
    (w.spot place = .nothing ∧ w'.spot place = .directory ∧
      ∃ above, Path.Above above path ∧ w'.place above = .ok place)

/-- Nothing happened but that directories above a path were made. -/
structure Grown (path : String) (w w' : World) : Prop where
  workingDirectory : w'.workingDirectory = w.workingDirectory
  kept : ∀ place, KeptAt path w w' place

theorem KeptAt.trans {path : String} {w w' w'' : World} {place : List String}
    (h : KeptAt path w w' place) (h' : KeptAt path w' w'' place) (hextends : w'.Extends w'') :
    KeptAt path w w'' place := by
  rcases h with hsame | ⟨hnothing, hdirectory, above, habove, hleads⟩
  · rcases h' with hsame' | ⟨hnothing, hmade⟩
    · exact .inl (hsame'.trans hsame)
    · exact .inr ⟨hsame ▸ hnothing, hmade⟩
  · -- what was made stays, and the path that it was made for still leads there
    exact .inr ⟨hnothing, hextends.directory place hdirectory, above, habove,
      hextends.place hleads⟩

namespace Grown
variable {path : String} {w w' w'' : World}

theorem refl (w : World) : Grown path w w :=
  ⟨rfl, fun _ => .inl rfl⟩

theorem isExtension (h : Grown path w w') : w.Extends w' := by
  refine ⟨h.workingDirectory, ?directory, ?something⟩
  case directory =>
    intro place hplace
    rcases h.kept place with hsame | ⟨-, hdirectory, -⟩
    · exact hsame.trans hplace
    · exact hdirectory
  case something =>
    intro place hplace
    rcases h.kept place with hsame | ⟨-, hdirectory, -⟩
    · rw [hsame]
      exact hplace
    · simp [hdirectory]

theorem trans (h : Grown path w w') (h' : Grown path w' w'') : Grown path w w'' :=
  ⟨h'.workingDirectory.trans h.workingDirectory,
    fun place => (h.kept place).trans (h'.kept place) h'.isExtension⟩

/-- No file was made, changed or lost. -/
theorem file_iff (h : Grown path w w') (place : List String) (content : Bytes) :
    w'.spot place = .file content ↔ w.spot place = .file content := by
  rcases h.kept place with hsame | ⟨hnothing, hdirectory, -⟩
  · rw [hsame]
  · simp [hnothing, hdirectory]

/-- A directory above the path was made. -/
theorem of_placed {above : String} {place : List String} (habove : Path.Above above path)
    (hnothing : w.spot place = .nothing) (h : Placed w w' above place .directory) :
    Grown path w w' := by
  refine ⟨h.workingDirectory, ?kept⟩
  case kept =>
    intro other
    by_cases hother : other = place
    · subst hother
      exact .inr ⟨hnothing, h.spot_self, above, habove, h.leads⟩
    · exact .inl (h.spot_of_ne hother)

instance (path : String) : Std.Refl (Grown path) where
  refl := Grown.refl

instance (path : String) : IsTrans World (Grown path) where
  trans _ _ _ := Grown.trans

end Grown

end World

/-! ## Systems -/

/-- Runs a command in a system. -/
def runOn {σ α : Type} (s : σ) (command : StateM σ α) : α × σ :=
  StateT.run command s

theorem runOn_bind {σ α β : Type} (s : σ) (x : StateM σ α) (f : α → StateM σ β) :
    runOn s (x >>= f) = runOn (runOn s x).2 (f (runOn s x).1) :=
  rfl

section Moves
variable {σ α β : Type}

/-- How a command changes the world, whatever system it starts in. -/
def Moves (world : σ → World) (R : World → World → Prop) (command : StateM σ α) : Prop :=
  ∀ s, R (world s) (world (runOn s command).2)

namespace Moves
variable {world : σ → World} {R : World → World → Prop}

theorem pure [Std.Refl R] (a : α) : Moves world R (pure a) :=
  fun s => refl_of R (world s)

theorem bind [IsTrans World R] {x : StateM σ α} {f : α → StateM σ β} (hx : Moves world R x)
    (hf : ∀ a, Moves world R (f a)) : Moves world R (x >>= f) :=
  fun s => trans_of R (hx s) (hf (runOn s x).1 (runOn s x).2)

theorem of_eq [Std.Refl R] {x : StateM σ α} (h : Moves world Eq x) : Moves world R x :=
  fun s => h s ▸ refl_of R (world s)

end Moves

/-- An operation does to the world what it should, or it fails and does nothing. -/
def DoesOrFails (world : σ → World) (operation : StateM σ (Except FileError Unit))
    (change : World → Except FileError Unit × World) : Prop :=
  ∀ s, ((runOn s operation).1, world (runOn s operation).2) = change (world s) ∨
    ((∃ e, (runOn s operation).1 = .error e) ∧ world (runOn s operation).2 = world s)

/-- An operation of a system gives what its change gives in every world, or fails. -/
theorem DoesOrFails.cases {world : σ → World} {operation : StateM σ (Except FileError Unit)}
    {change : World → Except FileError Unit × World} (h : DoesOrFails world operation change)
    {Done : World → World → Prop}
    (hchange : ∀ w, (∃ e, change w = (.error e, w)) ∨ ∃ w', change w = (.ok (), w') ∧ Done w w')
    (s : σ) :
    ((∃ e, (runOn s operation).1 = .error e) ∧ world (runOn s operation).2 = world s) ∨
      ((runOn s operation).1 = .ok () ∧ Done (world s) (world (runOn s operation).2)) := by
  rcases h s with hdoes | hfails
  · obtain ⟨hresult, hworld⟩ := Prod.ext_iff.1 hdoes
    dsimp only at hresult hworld
    rw [hresult, hworld]
    rcases hchange (world s) with ⟨e, hfails⟩ | ⟨w', hchanged, hdone⟩
    · rw [hfails]
      exact .inl ⟨⟨e, rfl⟩, rfl⟩
    · rw [hchanged]
      exact .inr ⟨rfl, hdone⟩
  · exact .inl hfails

/-- A system that a world is a part of. Operations may fail for reasons of their
own; what they read is left open. -/
structure Host.Keeps [Host (StateM σ)] (world : σ → World) : Prop where
  input : Moves world Eq Host.input
  readFile : ∀ path, Moves world Eq (Host.readFile path)
  isDirectory : ∀ path, Moves world Eq (Host.isDirectory path)
  isFile : ∀ path, Moves world Eq (Host.isFile path)
  entries : ∀ path, Moves world Eq (Host.entries path)
  now : Moves world Eq Host.now
  makeDirectory : ∀ path, DoesOrFails world (Host.makeDirectory path) (·.makeDirectory path)
  writeFile : ∀ path content,
    DoesOrFails world (Host.writeFile path content) (·.writeFile path content)

end Moves

/-- A world is a system of which it is all. -/
theorem World.keeps : Host.Keeps (id : World → World) where
  input _ := rfl
  readFile _ _ := rfl
  isDirectory _ _ := rfl
  isFile _ _ := rfl
  entries _ _ := rfl
  now _ := rfl
  makeDirectory _ _ := .inl rfl
  writeFile _ _ _ := .inl rfl

/-! ## Reasons -/

/-- Why the package of an input could not be had. -/
def ReadingFailure (input reason : String) : Prop :=
  (∃ e : FileError, reason = s!"Failed to read '{input}': {e.message}") ∨
    ∃ e : ExtractError, reason = s!"Extraction failed: {e.message}"

/-- Why an output could not be written. -/
def WritingFailure (path reason : String) : Prop :=
  (∃ (directory : String) (e : FileError), Path.parent? path = some directory ∧
    reason = s!"Failed to create output directory '{directory}': {e.message}") ∨
  ∃ e : FileError, reason = s!"Failed to write '{path}': {e.message}"

theorem prepareDirectory_fails {σ : Type} [Host (StateM σ)] {s : σ} {path reason : String}
    (h : (runOn s (prepareDirectory path)).1 = .error reason) : WritingFailure path reason := by
  unfold prepareDirectory at h
  split at h
  · cases h
  · next directory hdirectory =>
    split at h
    · cases h
    · rw [runOn_bind] at h
      cases hmade : (runOn s (Host.makeDirectories directory)).1 with
      | ok _ =>
        rw [hmade] at h
        cases h
      | error e =>
        rw [hmade] at h
        cases h
        exact .inl ⟨directory, e, hdirectory, rfl⟩

theorem reportError_fails {result : Except ExtractError ExtractionRun} {input reason : String}
    (h : reportError result = .error reason) : ReadingFailure input reason := by
  cases result with
  | ok run => cases h
  | error e =>
    cases h
    exact .inr ⟨e, rfl⟩

theorem extractFrom_fails {σ : Type} [Host (StateM σ)] {s : σ} {a : ExtractArguments}
    {reason : String} (h : (runOn s (extractFrom a)).1 = .error reason) :
    ReadingFailure a.input reason := by
  unfold extractFrom at h
  rw [runOn_bind] at h
  split at h
  · rw [runOn_bind] at h
    exact reportError_fails h
  · rw [runOn_bind] at h
    split at h
    · next e _ =>
      cases h
      exact .inl ⟨e, rfl⟩
    · exact reportError_fails h

section Systems
variable {σ : Type} [Host (StateM σ)] {world : σ → World} (hsystem : Host.Keeps world)
include hsystem

theorem Host.Keeps.makeDirectory_cases (s : σ) (path : String) :
    ((∃ e, (runOn s (Host.makeDirectory path)).1 = .error e) ∧
      world (runOn s (Host.makeDirectory path)).2 = world s) ∨
    ((runOn s (Host.makeDirectory path)).1 = .ok () ∧ ∃ place, (world s).spot place = .nothing ∧
      (world s).Placed (world (runOn s (Host.makeDirectory path)).2) path place .directory) :=
  (hsystem.makeDirectory path).cases (·.makeDirectory_cases path) s

theorem Host.Keeps.writeFile_cases (s : σ) (path : String) (content : Bytes) :
    ((∃ e, (runOn s (Host.writeFile path content)).1 = .error e) ∧
      world (runOn s (Host.writeFile path content)).2 = world s) ∨
    ((runOn s (Host.writeFile path content)).1 = .ok () ∧ ∃ place,
      (world s).Placed (world (runOn s (Host.writeFile path content)).2) path place
        (.file content)) :=
  (hsystem.writeFile path content).cases (·.writeFile_cases path content) s

/-! ## Reading -/

theorem moves_readText (path : String) : Moves world Eq (Host.readText path) := by
  refine .bind (hsystem.readFile path) fun content => ?_
  cases content with
  | error e => exact .pure _
  | ok content => exact .pure _

theorem moves_extractFrom (a : ExtractArguments) : Moves world Eq (extractFrom a) := by
  refine .bind hsystem.now fun time => ?_
  split
  · exact .bind hsystem.input fun _ => .pure _
  · refine .bind (moves_readText hsystem a.input) fun content => ?_
    cases content with
    | error e => exact .pure _
    | ok content => exact .pure _

/-! ## Making directories -/

section Above
variable {path above : String} (habove : Path.Above above path)
include habove

theorem moves_makeDirectory : Moves world (World.Grown path) (Host.makeDirectory above) := by
  intro s
  rcases hsystem.makeDirectory_cases s above with ⟨-, hsame⟩ | ⟨-, place, hnothing, hplaced⟩
  · rw [hsame]
    exact .refl _
  · exact .of_placed habove hnothing hplaced

theorem moves_make : Moves world (World.Grown path) (Host.makeChain.make above) := by
  refine .bind (moves_makeDirectory hsystem habove) fun made => ?_
  cases made with
  | ok _ => exact .pure _
  | error e => exact .bind (.of_eq (hsystem.isDirectory above)) fun _ => .pure _

end Above

theorem moves_makeChain {path : String} {chain : List String}
    (h : ∀ above ∈ chain, Path.Above above path) :
    Moves world (World.Grown path) (Host.makeChain chain) := by
  induction chain with
  | nil => exact .pure _
  | cons above chain ih =>
    have habove := h above List.mem_cons_self
    have hchain := ih fun other hother => h other (List.mem_cons_of_mem above hother)
    refine .bind (moves_makeDirectory hsystem habove) fun made => ?_
    split
    · exact .pure _
    · refine .bind hchain fun made => ?_
      cases made with
      | error e => exact .pure _
      | ok _ => exact moves_make hsystem habove
    · exact .bind (.of_eq (hsystem.isDirectory above)) fun _ => .pure _

theorem moves_prepareDirectory (path : String) :
    Moves world (World.Grown path) (prepareDirectory path) := by
  unfold prepareDirectory
  split
  · exact .pure _
  · next directory hdirectory =>
    split
    · exact .pure _
    · refine .bind (moves_makeChain hsystem fun _ => Path.above_of_mem_chain hdirectory) ?_
      intro made
      cases made with
      | ok _ => exact .pure _
      | error e => exact .pure _

/-! ## Writing -/

/-- An output that was written stands in the file of the path, and apart from that
only directories were made; an output that was not written has changed no file. -/
theorem writeOutput_cases (s : σ) (path rendered : String) :
    let written := runOn s (writeOutput path rendered)
    (∃ reason, written.1 = .error reason ∧ WritingFailure path reason ∧
      World.Grown path (world s) (world written.2)) ∨
    (written.1 = .ok () ∧ ∃ place, (world written.2).place path = .ok place ∧
      (world written.2).spot place = .file (.ofText rendered) ∧
      ∀ other, other ≠ place → World.KeptAt path (world s) (world written.2) other) := by
  intro written
  have hgrown := moves_prepareDirectory hsystem path s
  have hwritten : written = runOn s (writeOutput path rendered) := rfl
  unfold writeOutput at hwritten
  rw [runOn_bind] at hwritten
  cases hprepared : (runOn s (prepareDirectory path)).1 with
  | error reason =>
    rw [hprepared] at hwritten
    rw [hwritten]
    exact .inl ⟨reason, rfl, prepareDirectory_fails hprepared, hgrown⟩
  | ok _ =>
    rw [hprepared] at hwritten
    dsimp only at hwritten
    rw [runOn_bind] at hwritten
    rcases hsystem.writeFile_cases (runOn s (prepareDirectory path)).2 path (.ofText rendered) with
      ⟨⟨e, hfails⟩, hsame⟩ | ⟨hdone, place, hplaced⟩
    · rw [hfails] at hwritten
      rw [← hsame] at hgrown
      rw [hwritten]
      exact .inl ⟨_, rfl, .inr ⟨e, rfl⟩, hgrown⟩
    · rw [hdone] at hwritten
      rw [hwritten]
      refine .inr ⟨rfl, place, hplaced.leads, hplaced.spot_self, ?kept⟩
      case kept =>
        -- the file is put into a world in which its directory was made already
        intro other hother
        exact (hgrown.kept other).trans (.inl (hplaced.spot_of_ne hother))
          (hplaced.isExtension (by simp))

/-! ## The command -/

theorem runExtract_unread {s : σ} {a : ExtractArguments} {reason : String}
    (h : (runOn s (extractFrom a)).1 = .error reason) :
    (runOn s (runExtract a)).1 = .failure reason ∧ world (runOn s (runExtract a)).2 = world s := by
  unfold runExtract
  rw [runOn_bind, h]
  exact ⟨rfl, (moves_extractFrom hsystem a s).symm⟩

theorem runExtract_shown {s : σ} {a : ExtractArguments} {run : ExtractionRun}
    (h : (runOn s (extractFrom a)).1 = .ok run) (houtput : a.output = none) :
    (runOn s (runExtract a)).1.exit = 0 ∧ world (runOn s (runExtract a)).2 = world s := by
  unfold runExtract
  rw [runOn_bind, h]
  dsimp only
  rw [houtput]
  exact ⟨rfl, (moves_extractFrom hsystem a s).symm⟩

theorem runExtract_written {s : σ} {a : ExtractArguments} {run : ExtractionRun} {path : String}
    (h : (runOn s (extractFrom a)).1 = .ok run) (houtput : a.output = some path) :
    let ended := runOn s (runExtract a)
    (∃ reason, ended.1 = .failure reason ∧ WritingFailure path reason ∧
      World.Grown path (world s) (world ended.2)) ∨
    (ended.1.exit = 0 ∧ ∃ place, (world ended.2).place path = .ok place ∧
      (world ended.2).spot place = .file (.ofText ((a.label run).package.render a.format)) ∧
      ∀ other, other ≠ place → World.KeptAt path (world s) (world ended.2) other) := by
  intro ended
  have hended : ended = runOn s (runExtract a) := rfl
  unfold runExtract at hended
  rw [runOn_bind, h] at hended
  dsimp only at hended
  rw [houtput] at hended
  dsimp only at hended
  rw [runOn_bind] at hended
  have hcases := writeOutput_cases hsystem (runOn s (extractFrom a)).2 path
    ((a.label run).package.render a.format)
  rw [← moves_extractFrom hsystem a s] at hcases
  rcases hcases with ⟨reason, hfails, hreason, hgrown⟩ | ⟨hdone, place, hplaced⟩
  · rw [hfails] at hended
    rw [hended]
    exact .inl ⟨reason, rfl, hreason, hgrown⟩
  · rw [hdone] at hended
    rw [hended]
    exact .inr ⟨rfl, place, hplaced⟩

/-- **What `extract` leaves behind.** A failure says one thing, on standard error.
If the package could not be had, the world is as it was. If it could be had but
not be written, no file was made, changed or lost, and only directories above the
output file were made. A success changes the output file, if there is one, and
makes at most directories above it. -/
theorem extract_leaves {words : List String} {a : ExtractArguments}
    (hwords : Command.ofWords words = .ok (.extract a)) (s : σ) :
    let extracted := (runOn s (extractFrom a)).1
    let outcome := (runOn s (runProgram words)).1
    let w := world s
    let w' := world (runOn s (runProgram words)).2
    (outcome.exit = 0 ∨ outcome.exit = 1) ∧
    (outcome.exit = 1 →
      outcome.output = "" ∧
      (∀ place content, w'.spot place = .file content ↔ w.spot place = .file content) ∧
      ∃ reason, outcome.error = s!"error: {reason}\n" ∧
        ((extracted = .error reason ∧ ReadingFailure a.input reason ∧ w' = w) ∨
          ∃ run path, extracted = .ok run ∧ a.output = some path ∧ WritingFailure path reason ∧
            World.Grown path w w')) ∧
    (outcome.exit = 0 →
      (a.output = none → w' = w) ∧
      ∀ path, a.output = some path → ∃ run place, extracted = .ok run ∧
        w'.place path = .ok place ∧
        w'.spot place = .file (.ofText ((a.label run).package.render a.format)) ∧
        ∀ other, other ≠ place → World.KeptAt path w w' other) := by
  intro extracted outcome w w'
  have hended : runOn s (runProgram words) = runOn s (runExtract a) := by
    unfold runProgram
    rw [hwords]
  have houtcome : outcome = (runOn s (runExtract a)).1 := congrArg (·.1) hended
  have hworld : w' = world (runOn s (runExtract a)).2 := congrArg (world ·.2) hended
  have hnotFailed (h : 0 = 1) : False := by cases h
  have hnotDone (h : 1 = 0) : False := by cases h
  cases hextracted : extracted with
  | error reason =>
    obtain ⟨hfails, hsame⟩ := runExtract_unread hsystem hextracted
    rw [houtcome, hfails, hworld, hsame]
    refine ⟨.inr rfl, fun _ => ?failed, fun h => (hnotDone h).elim⟩
    case failed =>
      refine ⟨rfl, fun _ _ => Iff.rfl, reason, rfl, ?reason⟩
      case reason => exact .inl ⟨rfl, extractFrom_fails hextracted, rfl⟩
  | ok run =>
    cases houtput : a.output with
    | none =>
      obtain ⟨hexit, hsame⟩ := runExtract_shown hsystem hextracted houtput
      rw [houtcome, hworld, hsame, hexit]
      refine ⟨.inl rfl, fun h => (hnotFailed h).elim, fun _ => ⟨fun _ => rfl, ?output⟩⟩
      case output =>
        intro path h
        cases h
    | some path =>
      rw [houtcome, hworld]
      rcases runExtract_written hsystem hextracted houtput with
        ⟨reason, hfails, hreason, hgrown⟩ | ⟨hexit, place, hplaced⟩
      · rw [hfails]
        refine ⟨.inr rfl, fun _ => ?failed, fun h => (hnotDone h).elim⟩
        case failed =>
          refine ⟨rfl, hgrown.file_iff, reason, rfl, ?reason⟩
          case reason => exact .inr ⟨run, path, rfl, rfl, hreason, hgrown⟩
      · rw [hexit]
        refine ⟨.inl rfl, fun h => (hnotFailed h).elim, fun _ => ⟨?noOutput, ?output⟩⟩
        case noOutput =>
          intro h
          cases h
        case output =>
          intro _ h
          cases h
          exact ⟨run, place, rfl, hplaced⟩

end Systems

/-- The directory of the output is made, but the output itself cannot be a file. -/
theorem extract_leaves_directory :
    let document := Json.object [("kind", .string "TranslationUnitDecl")]
    let words := ["extract", "--input", "-", "--output", "d/x/"]
    let world (entries : List (String × FileTree)) : World :=
      ⟨.directory entries, [], .ok (.ofText document.compact), "now"⟩
    let w := world [("x", .file [120])]
    let w' := world [("x", .file [120]), ("d", .directory [])]
    runOn w (runProgram words) =
      (.failure "Failed to write 'd/x/': Is a directory (os error 21)", w') ∧
    ∀ place content, w'.spot place = .file content ↔ w.spot place = .file content := by
  intro document words world w w'
  have hparse : Node.parse (.ofText document.compact) =
      .ok (Node.ofKind "TranslationUnitDecl") := by
    have h := Node.parse_text (Json.spelled_compact document) isGap_nil []
    rw [List.append_nil, List.nil_append, ← String.toList_ofList (l := document.compactChars)] at h
    exact h
  let a : ExtractArguments := ⟨"-", .text, some "d/x/", false, false, none⟩
  have hwords : Command.ofWords words = .ok (.extract a) := rfl
  obtain ⟨run, hrun⟩ : ∃ run, extractStream a.options "now" (.ok (.ofText document.compact)) =
      .ok run := by
    rw [extractStream, Node.parseStream, hparse]
    exact ⟨_, rfl⟩
  have hextracted : runOn w (extractFrom a) = (.ok run, w) := by
    change (reportError (extractStream a.options "now" (.ok (.ofText document.compact))), w) = _
    rw [hrun]
    rfl
  have hended : runOn w (runProgram words) =
      (.failure "Failed to write 'd/x/': Is a directory (os error 21)", w') := by
    change runOn w (runExtract a) = _
    unfold runExtract
    rw [runOn_bind, hextracted]
    rfl
  obtain ⟨-, hfails, -⟩ := extract_leaves World.keeps hwords w
  rw [hended] at hfails
  exact ⟨hended, (hfails rfl).2.1⟩

end HeaderSchema
