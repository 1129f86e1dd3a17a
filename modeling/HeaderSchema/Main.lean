import HeaderSchema.CommandLine.Clock
import HeaderSchema.CommandLine.Program
import Std.Time.DateTime.Timestamp

/-!
# The program on a real system

The system as a host, and the entry point. Nothing is decided here: the words of
the command line are handed to `runProgram`, and its outcome is written out.
-/

namespace HeaderSchema

/-- The number of a system error, which some operations report negated. -/
def errorNumber (code : UInt32) : UInt32 :=
  if code < 0x80000000 then code else 0 - code

/-- The file error that a failed operation of the system stands for. -/
def FileError.ofSystem : IO.Error → FileError
  | .noFileOrDirectory .. => .notFound
  | .alreadyExists .. => .alreadyExists
  | .inappropriateType _ code details =>
    if errorNumber code = 20 then .notADirectory
    else if errorNumber code = 21 then .isADirectory
    else .other s!"{details} (os error {errorNumber code})"
  | e => .other (toString e)

/-- Runs an operation of the system. -/
def attempt {α : Type} (action : IO α) : IO (Except FileError α) := do
  try
    return .ok (← action)
  catch e =>
    return .error (FileError.ofSystem e)

/-- The system as a host. -/
instance : Host IO where
  input := do
    match ← attempt ((← IO.getStdin).readBinToEnd) with
    | .ok content => return .ok content.toList
    | .error e => return .error e.message
  readFile path := attempt do
    return (← IO.FS.readBinFile (System.mkFilePath [path])).toList
  isDirectory path := (System.mkFilePath [path]).isDir
  isFile path := do
    match ← attempt (System.mkFilePath [path]).metadata with
    | .ok data => return data.type == .file
    | .error _ => return false
  entries path := attempt do
    return ((← (System.mkFilePath [path]).readDir).map (·.fileName)).toList
  makeDirectory path := attempt (IO.FS.createDir (System.mkFilePath [path]))
  writeFile path content :=
    attempt (IO.FS.writeBinFile (System.mkFilePath [path]) ⟨content.toArray⟩)
  now := do
    let moment := (← Std.Time.Timestamp.now).toNanosecondsSinceUnixEpoch.val.toNat
    return Clock.text (moment / 1000000000) (moment % 1000000000)

end HeaderSchema

/-- Runs the program on the words of the command line. -/
def main (words : List String) : IO UInt32 := do
  let outcome ← HeaderSchema.runProgram words
  IO.print outcome.output
  IO.eprint outcome.error
  return outcome.exit.toUInt32
