import HeaderSchema.Schema.Report
import HeaderSchema.Syntax.Declaration

/-!
# Extraction

Builds a registry from the top-level declarations of a compilation unit. A
declaration is first turned into a `Contribution`, which may fail, and then
absorbed, which cannot: so a declaration that fails changes nothing. Converting
a root stops at the first declaration that fails and keeps what was absorbed
before it; a root of any other kind than a compilation unit contributes nothing.
-/

namespace HeaderSchema

/-- What an extraction leaves out. -/
structure ExtractOptions where
  /-- Leave out the members that the compiler made up, such as accessors. -/
  skipImplicit : Bool
deriving Repr, DecidableEq

/-- Puts a member before those that were collected. -/
def Members.cons : Member → Members → Members
  | .property p, members => ⟨p :: members.properties, members.methods⟩
  | .method m, members => ⟨members.properties, m :: members.methods⟩
  | .ignored, members => members

/-- The members among the children of a container declaration. Implicit children
are left out before their fields are looked at. -/
def Members.ofNodes (options : ExtractOptions) : List Node → Except MissingField Members
  | [] => .ok .empty
  | node :: nodes =>
    if options.skipImplicit && node.isImplicit then
      Members.ofNodes options nodes
    else do
      let member ← Member.ofNode node
      let members ← Members.ofNodes options nodes
      return .cons member members

/-- The members of a container declaration. -/
def Members.ofBody (options : ExtractOptions) (body : Node) : Except MissingField Members :=
  Members.ofNodes options body.inner

/-- What one top-level declaration adds. -/
inductive Contribution where
  | container (origin : Origin) (target : String) (members : Members)
  | unmodeled (tag : String)
  | ignored (tag : String)
deriving Repr, DecidableEq

/-- What a top-level declaration adds, unless a field is missing. -/
def Contribution.ofNode (options : ExtractOptions) (node : Node) :
    Except MissingField Contribution := do
  match ← Declaration.ofNode node with
  | .container decl =>
    let members ← Members.ofBody options decl.body
    return .container decl.origin decl.target members
  | .unmodeled _ => return .unmodeled node.kind
  | .ignored => return .ignored node.kind

/-- The registry and the counters that were built so far. -/
structure Extraction where
  registry : Registry
  counters : Counters
deriving DecidableEq

def Counters.countOrigin (c : Counters) : Origin → Counters
  | .interface => { c with interfaces := c.interfaces + 1 }
  | .category _ => { c with categories := c.categories + 1 }
  | .protocol => { c with protocols := c.protocols + 1 }

def Counters.countMembers (c : Counters) (members : Members) : Counters :=
  { c with
    properties := c.properties + members.properties.length
    methods := c.methods + members.methods.length }

/-- The change that the kind of a declaration makes to its container. -/
def Origin.edit : Origin → Edit
  | .interface => .markInterface
  | .category name => .addCategory name
  | .protocol => .touch

namespace Extraction

def empty : Extraction := ⟨.empty, .zero⟩

/-- Adds what one declaration contributes. -/
def absorb (e : Extraction) : Contribution → Extraction
  | .container origin target members =>
    ⟨(e.registry.edit target origin.edit).edit target (.append members),
      (e.counters.countMembers members).countOrigin origin⟩
  | .unmodeled tag =>
    ⟨e.registry, { e.counters with unmodeled := e.counters.unmodeled.count tag }⟩
  | .ignored tag =>
    ⟨e.registry, { e.counters with ignored := e.counters.ignored.count tag }⟩

/-- Absorbs declarations in their order up to the first that fails. -/
def absorbAll (options : ExtractOptions) (e : Extraction) :
    List Node → Extraction × Except MissingField Unit
  | [] => (e, .ok ())
  | node :: nodes =>
    match Contribution.ofNode options node with
    | .ok contribution => absorbAll options (e.absorb contribution) nodes
    | .error missing => (e, .error missing)

/-- Absorbs the declarations of a compilation unit. -/
def convert (options : ExtractOptions) (e : Extraction) (root : Node) :
    Extraction × Except MissingField Unit :=
  if root.declKind = .translationUnit then e.absorbAll options root.inner else (e, .ok ())

def report (e : Extraction) : Report :=
  .of e.registry e.counters

end Extraction

end HeaderSchema
