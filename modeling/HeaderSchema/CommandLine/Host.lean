import HeaderSchema.CommandLine.Path
import HeaderSchema.Text.Utf8

/-!
# What a command needs from its surroundings

A host gives access to files, to standard input and to the time. Commands are
written for any host, so that they can be run on a real system as well as on a
`World` that is a value.
-/

namespace HeaderSchema

/-- Why a file operation failed. -/
inductive FileError where
  | notFound
  | notADirectory
  | isADirectory
  | alreadyExists
  | notText
  | other (reason : String)
deriving Repr, DecidableEq

def FileError.message : FileError → String
  | .notFound => "No such file or directory (os error 2)"
  | .notADirectory => "Not a directory (os error 20)"
  | .isADirectory => "Is a directory (os error 21)"
  | .alreadyExists => "File exists (os error 17)"
  | .notText => "stream did not contain valid UTF-8"
  | .other reason => reason

/-- Access to the surroundings of a command. -/
class Host (m : Type → Type) where
  /-- All of standard input. -/
  input : m (Except String Bytes)
  /-- The bytes of a file. -/
  readFile : String → m (Except FileError Bytes)
  /-- Whether a path is that of a directory. -/
  isDirectory : String → m Bool
  /-- Whether a path is that of a regular file. -/
  isFile : String → m Bool
  /-- The names in a directory, in no particular order. -/
  entries : String → m (Except FileError (List String))
  /-- Makes one directory, whose parent is there. -/
  makeDirectory : String → m (Except FileError Unit)
  /-- Gives a file a new content; the file is made if need be. -/
  writeFile : String → Bytes → m (Except FileError Unit)
  /-- The present time. -/
  now : m String

namespace Host

variable {m : Type → Type} [Monad m] [Host m]

/-- The content of a file, which has to be text. -/
def readText (path : String) : m (Except FileError Bytes) := do
  match ← Host.readFile path with
  | .error e => return .error e
  | .ok content =>
    return if (Utf8.decode? content).isSome then .ok content else .error .notText

/-- Makes a directory, given with the directories above it, and those above it
that are missing. -/
def makeChain : List String → m (Except FileError Unit)
  | [] => return .ok ()
  | path :: above => do
    match ← Host.makeDirectory path with
    | .ok () => return .ok ()
    | .error .notFound => do
      match ← makeChain above with
      | .error e => return .error e
      | .ok () => make path
    | .error e => return if ← Host.isDirectory path then .ok () else .error e
where
  /-- Makes one directory, unless it is there. -/
  make (path : String) : m (Except FileError Unit) := do
    match ← Host.makeDirectory path with
    | .ok () => return .ok ()
    | .error e => return if ← Host.isDirectory path then .ok () else .error e

/-- Makes a directory and those above it that are missing. -/
def makeDirectories (path : String) : m (Except FileError Unit) :=
  makeChain (Path.chain (path.length + 1) path)

end Host

end HeaderSchema
