import HeaderSchema.CommandLine.Host

/-!
# Worlds

A world is a tree of files and directories with a working directory, a standard
input and a clock that stands still. Reading a path leads from the root or from
the working directory through the pieces of the path, each of which has to be
looked up in a directory. There are no links, so every place of the tree is
reached by exactly one list of names.
-/

namespace HeaderSchema

inductive FileTree where
  | file (content : Bytes)
  | directory (entries : List (String × FileTree))

namespace FileTree

/-- The entry of a directory. -/
def entry? (name : String) : FileTree → Option FileTree
  | .file _ => none
  | .directory entries => entries.lookup name

/-- What a list of names leads to. -/
def get? : List String → FileTree → Option FileTree
  | [], tree => some tree
  | name :: names, tree => (tree.entry? name).bind (get? names)

/-- Replaces the entry of a name, or adds it at the end. -/
def setEntry (name : String) (tree : FileTree) :
    List (String × FileTree) → List (String × FileTree)
  | [] => [(name, tree)]
  | (key, other) :: rest =>
    if key = name then (key, tree) :: rest else (key, other) :: setEntry name tree rest

/-- The tree with another one at the end of a list of names, if that one's
parent is a directory of it. -/
def put (tree : FileTree) : List String → FileTree → FileTree
  | [], new => new
  | name :: names, new =>
    match tree, names with
    | .file content, _ => .file content
    | .directory entries, [] => .directory (setEntry name new entries)
    | .directory entries, _ :: _ =>
      match entries.lookup name with
      | none => .directory entries
      | some inner => .directory (setEntry name (inner.put names new) entries)

end FileTree

/-- The surroundings of a command, as a value. -/
structure World where
  root : FileTree
  workingDirectory : List String
  input : Except String Bytes
  time : String

namespace World

/-- One piece of a path further from a place that is there. -/
def step (w : World) (place : List String) (piece : String) : Except FileError (List String) :=
  match w.root.get? place with
  | none => .error .notFound
  | some (.file _) => .error .notADirectory
  | some (.directory entries) =>
    if Path.isIdle piece then .ok place
    else if piece = ".." then .ok place.dropLast
    else if (entries.lookup piece).isSome then .ok (place ++ [piece])
    else .error .notFound

/-- All pieces of a path. -/
def walk (w : World) (place : List String) : List String → Except FileError (List String)
  | [] => .ok place
  | piece :: pieces =>
    match w.step place piece with
    | .ok place => w.walk place pieces
    | .error e => .error e

/-- Where the pieces of a path start to lead from. -/
def startOf (w : World) (pieces : List String) : List String :=
  match pieces with
  | "" :: _ => []
  | _ => w.workingDirectory

/-- The place that a path leads to. -/
def place (w : World) (path : String) : Except FileError (List String) :=
  if path = "" then .error .notFound
  else w.walk (w.startOf (Path.pieces path)) (Path.pieces path)

def tree (w : World) (path : String) : Except FileError FileTree :=
  match w.place path with
  | .error e => .error e
  | .ok place =>
    match w.root.get? place with
    | none => .error .notFound
    | some tree => .ok tree

/-- The content of the file that a path leads to. -/
def readFile (w : World) (path : String) : Except FileError Bytes :=
  match w.tree path with
  | .error e => .error e
  | .ok (.file content) => .ok content
  | .ok (.directory _) => .error .isADirectory

/-- The text of the file that a path leads to, if it is there and is text. -/
def text? (w : World) (path : String) : Option String :=
  match w.readFile path with
  | .ok content => content.toText?
  | .error _ => none

def isDirectory (w : World) (path : String) : Bool :=
  match w.tree path with
  | .ok (.directory _) => true
  | _ => false

def isFile (w : World) (path : String) : Bool :=
  match w.tree path with
  | .ok (.file _) => true
  | _ => false

/-- The names in the directory that a path leads to. -/
def entries (w : World) (path : String) : Except FileError (List String) :=
  match w.tree path with
  | .error e => .error e
  | .ok (.file _) => .error .notADirectory
  | .ok (.directory entries) => .ok (entries.map (·.1))

/-- The world with another tree at a place. -/
def put (w : World) (place : List String) (tree : FileTree) : World :=
  { w with root := w.root.put place tree }

/-- The directory in which the last piece of a path is looked up, and that piece. -/
def lookupLast (w : World) (pieces : List String) : Except FileError (List String × String) :=
  match pieces.reverse with
  | [] => .error .notFound
  | last :: before =>
    match w.walk (w.startOf pieces) before.reverse with
    | .error e => .error e
    | .ok place =>
      match w.root.get? place with
      | none => .error .notFound
      | some (.file _) => .error .notADirectory
      | some (.directory _) => .ok (place, last)

/-- The pieces of a path without the empty ones at its end. -/
def trimmed (path : String) : List String :=
  ((Path.pieces path).reverse.dropWhile (· == "")).reverse

/-- Makes the directory of a path, whose parent has to be there. Slashes at the
end of the path make no difference. -/
def makeDirectory (w : World) (path : String) : Except FileError Unit × World :=
  if path = "" then (.error .notFound, w)
  else if (trimmed path).isEmpty then (.error .alreadyExists, w)
  else
    match w.lookupLast (trimmed path) with
    | .error e => (.error e, w)
    | .ok (place, last) =>
      if Path.isIdle last || last == ".." then (.error .alreadyExists, w)
      else if (w.root.get? (place ++ [last])).isSome then (.error .alreadyExists, w)
      else (.ok (), w.put (place ++ [last]) (.directory []))

/-- Gives the file of a path a new content, and makes it if its parent is there.
A path that ends in a slash can only be that of a directory. -/
def writeFile (w : World) (path : String) (content : Bytes) : Except FileError Unit × World :=
  if path = "" then (.error .notFound, w)
  else if (trimmed path).isEmpty then (.error .isADirectory, w)
  else
    match w.lookupLast (trimmed path) with
    | .error e => (.error e, w)
    | .ok (place, last) =>
      if Path.isIdle last || last == ".." || trimmed path != Path.pieces path then
        (.error .isADirectory, w)
      else
        match w.root.get? (place ++ [last]) with
        | some (.directory _) => (.error .isADirectory, w)
        | _ => (.ok (), w.put (place ++ [last]) (.file content))

instance : Host (StateM World) where
  input := do return (← get).input
  readFile path := do return (← get).readFile path
  isDirectory path := do return (← get).isDirectory path
  isFile path := do return (← get).isFile path
  entries path := do return (← get).entries path
  makeDirectory path := modifyGet (·.makeDirectory path)
  writeFile path content := modifyGet (·.writeFile path content)
  now := do return (← get).time

end World

end HeaderSchema
