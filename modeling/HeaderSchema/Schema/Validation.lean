import HeaderSchema.Schema.Package
import HeaderSchema.Text.Blank

/-!
# Judging packages

A package is sound when its version says something, the digest that it carries
is the digest of its containers, no two containers share a name, and every
container, property, method and type is named. Only the first problem is ever
reported. Members of one container may share a name.
-/

namespace HeaderSchema

/-- What is wrong with a package or a container. -/
inductive Problem where
  | emptyVersion
  | emptyContainerName
  | duplicateContainer (name : String)
  | emptyPropertyName (container : String)
  | emptyMethodName (container : String)
  | emptyTypeName (container member : String)
  | hashMismatch (stored computed : String)
deriving Repr, DecidableEq

def Problem.message : Problem → String
  | .emptyVersion => "package version cannot be empty"
  | .emptyContainerName => "container name cannot be empty"
  | .duplicateContainer name => s!"duplicate container in package: {name}"
  | .emptyPropertyName container => s!"property without a name in container: {container}"
  | .emptyMethodName container => s!"method without a selector in container: {container}"
  | .emptyTypeName container member => s!"empty type for {member} in container {container}"
  | .hashMismatch stored computed =>
    s!"bundle hash mismatch: expected {stored}, computed {computed}"

/-- The problem of a property: its name is looked at before its type. -/
def Property.problem? (container : String) (p : Property) : Option Problem :=
  if isBlank p.name then some (.emptyPropertyName container)
  else if isBlank p.type.name then some (.emptyTypeName container s!"property {p.name}")
  else none

/-- The problem of a parameter; its name may be blank. -/
def Param.problem? (container selector : String) (p : Param) : Option Problem :=
  if isBlank p.type.name then
    some (.emptyTypeName container s!"parameter {p.name} of {selector}")
  else
    none

/-- The first problem of a method: its selector, its return type, and then the
types of its parameters. -/
def Method.problem? (container : String) (m : Method) : Option Problem :=
  if isBlank m.name then some (.emptyMethodName container)
  else if isBlank m.returnType.name then
    some (.emptyTypeName container s!"return of {m.name}")
  else
    m.params.findSome? (·.problem? container m.name)

/-- The first problem of a container: its name, its properties, its methods. -/
def Container.problem? (c : Container) : Option Problem :=
  if isBlank c.name then some .emptyContainerName
  else
    match c.properties.findSome? (·.problem? c.name) with
    | some problem => some problem
    | none => c.methods.findSome? (·.problem? c.name)

/-- The first problem of a list of containers, given the names before it. A name
that was there before is reported before anything inside the container. -/
def firstProblem? (seen : List String) : List Container → Option Problem
  | [] => none
  | c :: cs =>
    if c.name ∈ seen then some (.duplicateContainer c.name)
    else
      match c.problem? with
      | some problem => some problem
      | none => firstProblem? (c.name :: seen) cs

/-- The problem with the digest that a package carries, if it carries one. -/
def Package.hashProblem? (p : Package) : Option Problem :=
  match p.bundleHash with
  | none => none
  | some stored =>
    if stored = p.computedHash then none else some (.hashMismatch stored p.computedHash)

/-- The first problem of a package: its version, its digest, its containers. -/
def Package.problem? (p : Package) : Option Problem :=
  if isBlank p.version then some .emptyVersion
  else
    match p.hashProblem? with
    | some problem => some problem
    | none => firstProblem? [] p.containers

end HeaderSchema
