/-!
# Paths

A path is a text whose parts are separated by slashes. Repeated slashes and
parts that are a single dot make no difference, except that a dot at the very
beginning is a part of its own. Paths are compared part by part, and two
spellings with the same parts are the same path.
-/

namespace HeaderSchema.Path

inductive Part where
  | root
  | here
  | parent
  | name (text : String)
deriving Repr, DecidableEq

/-- The pieces between the slashes, some of which may be empty. -/
def pieces (path : String) : List String :=
  ((path.toList.splitOnP (· == '/')).map String.ofList)

/-- The part of a piece that is not the first one, if it has one. -/
def Part.ofPiece? (piece : String) : Option Part :=
  if piece = "" ∨ piece = "." then none
  else if piece = ".." then some .parent
  else some (.name piece)

/-- The part of the first piece, if it has one; an empty one starts at the root
unless the whole path is empty. -/
def Part.ofFirst? (path piece : String) : Option Part :=
  if path = "" then none
  else if piece = "" then some .root
  else if piece = "." then some .here
  else Part.ofPiece? piece

def parts (path : String) : List Part :=
  match pieces path with
  | [] => []
  | first :: rest => (Part.ofFirst? path first).toList ++ rest.filterMap Part.ofPiece?

/-- The order of parts: the root, the dot at the beginning, parents, and then
names by their characters. -/
def Part.compare : Part → Part → Ordering
  | .root, .root => .eq
  | .root, _ => .lt
  | .here, .root => .gt
  | .here, .here => .eq
  | .here, _ => .lt
  | .parent, .parent => .eq
  | .parent, .name _ => .lt
  | .parent, _ => .gt
  | .name a, .name b => Ord.compare a b
  | .name _, _ => .gt

def compareParts : List Part → List Part → Ordering
  | [], [] => .eq
  | [], _ :: _ => .lt
  | _ :: _, [] => .gt
  | p :: ps, q :: qs =>
    match p.compare q with
    | .eq => compareParts ps qs
    | order => order

def compare (a b : String) : Ordering :=
  compareParts (parts a) (parts b)

/-- Adds a path to a sorted list without repetition; of two spellings of one
path the earlier one stays. -/
def insert (path : String) : List String → List String
  | [] => [path]
  | other :: rest =>
    match compare path other with
    | .lt => path :: other :: rest
    | .eq => other :: rest
    | .gt => other :: insert path rest

/-- A piece that says nothing unless it is the first. -/
def isIdle (piece : String) : Bool :=
  piece == "" || piece == "."

/-- Pieces in reverse, without the idle ones at the end of the path. -/
def dropIdle : List String → List String
  | [] => []
  | [first] => [first]
  | piece :: before => if isIdle piece then dropIdle before else piece :: before

/-- The path spelled by pieces in reverse; the first piece of a path from the
root is empty. -/
def join : List String → String
  | [] => ""
  | [""] => "/"
  | reversed => "/".intercalate reversed.reverse

/-- The path without its last part, spelled as it was; none for the root and the
empty path. -/
def parent? (path : String) : Option String :=
  match dropIdle (pieces path).reverse with
  | [] => none
  | [""] => none
  | _ :: before => some (join (dropIdle before))

/-- The path and the directories above it, up to the one that is spelled by
nothing; the first argument bounds their number. -/
def chain : Nat → String → List String
  | 0, _ => []
  | n + 1, path =>
    if path = "" then []
    else
      match parent? path with
      | none => [path]
      | some above => path :: chain n above

/-- The name that a path ends with; none when it ends at the root or in a
parent. -/
def fileName? (path : String) : Option String :=
  match (parts path).getLast? with
  | some (.name text) => some text
  | _ => none

/-- The text after the last dot of a name, unless the name starts with that dot. -/
def extension? (name : String) : Option String :=
  let (after, before) := name.toList.reverse.span (· != '.')
  match before with
  | [] => none
  | [_] => none
  | _ => some (String.ofList after.reverse)

/-- The path is that of a JSON file, by its name. -/
def isJson (path : String) : Bool :=
  ((fileName? path).bind extension?) == some "json"

/-- The path of an entry of a directory. -/
def child (directory name : String) : String :=
  if directory.toList.getLast? == some '/' then directory ++ name else directory ++ "/" ++ name

end HeaderSchema.Path
