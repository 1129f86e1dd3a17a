import HeaderSchema.Digest.Sha256
import HeaderSchema.Json.Printer
import HeaderSchema.Schema.Report

/-!
# Packages

A package is a finished list of containers with what is known about it: the
versions of the format and of the extractor, a name, the input, the time, and a
digest of the containers. The digest is taken over the compact JSON text of the
containers alone, so it does not change with the rest.

Every value of the schema has one document, written by `toJson`. A member that
says nothing is left out: an absent format version, an empty list of categories,
an absent source of a report.
-/

namespace HeaderSchema

structure Package where
  schemaVersion : Option String
  version : String
  name : Option String
  source : Option String
  generatedAt : String
  bundleHash : Option String
  containers : List Container
deriving DecidableEq

/-! ## Documents -/

def TypeRef.toJson (t : TypeRef) : Json :=
  .object [("name", .string t.name)]

def Param.toJson (p : Param) : Json :=
  .object [("name", .string p.name), ("type", p.type.toJson)]

def Property.toJson (p : Property) : Json :=
  .object [("name", .string p.name), ("type", p.type.toJson)]

def MethodKind.toJson (k : MethodKind) : Json :=
  .string k.word

def ContainerKind.toJson (k : ContainerKind) : Json :=
  .string k.word

def Method.toJson (m : Method) : Json :=
  .object [("name", .string m.name), ("return_type", m.returnType.toJson),
    ("params", .array (m.params.map (·.toJson))), ("kind", m.kind.toJson)]

def Container.toJson (c : Container) : Json :=
  .object ([("name", .string c.name),
    ("properties", .array (c.properties.map (·.toJson))),
    ("methods", .array (c.methods.map (·.toJson))),
    ("is_interface", .boolean c.isInterface)] ++
    if c.categories.isEmpty then []
    else [("categories", .array (c.categories.map .string))])

def Container.listToJson (cs : List Container) : Json :=
  .array (cs.map (·.toJson))

def Package.toJson (p : Package) : Json :=
  .object ((match p.schemaVersion with
    | none => []
    | some version => [("schema_version", .string version)]) ++
    [("version", .string p.version), ("name", .optional p.name),
      ("source", .optional p.source), ("generated_at", .string p.generatedAt),
      ("bundle_hash", .optional p.bundleHash),
      ("containers", Container.listToJson p.containers)])

def Tally.toJson (t : Tally) : Json :=
  .object (t.entries.map fun (name, n) => (name, .count n))

def Counters.toJson (c : Counters) : Json :=
  .object [("interface_decls", .count c.interfaces), ("category_decls", .count c.categories),
    ("protocol_decls", .count c.protocols), ("properties", .count c.properties),
    ("methods", .count c.methods), ("unmodeled", c.unmodeled.toJson),
    ("ignored", c.ignored.toJson)]

def Report.toJson (r : Report) : Json :=
  .object ((match r.source with
    | none => []
    | some source => [("source", .string source)]) ++
    [("containers", .count r.containers), ("interfaces", .count r.interfaces),
      ("protocols", .count r.protocols), ("stats", r.counters.toJson)])

/-! ## Digest and queries -/

/-- The version of the package format. -/
def schemaVersion : String := "1.0.0"

/-- The version that every extracted package carries. -/
def extractorVersion : String := "0.1.0"

/-- The digest of a list of containers. -/
def bundleHash (containers : List Container) : String :=
  Sha256.hexDigest (.ofText (Container.listToJson containers).compact)

namespace Package

/-- The digest of the package's containers, whatever digest it carries. -/
def computedHash (p : Package) : String :=
  HeaderSchema.bundleHash p.containers

/-- The package with the digest of its containers. -/
def withHash (p : Package) : Package :=
  { p with bundleHash := some p.computedHash }

/-- The first container of that name. -/
def container? (p : Package) (name : String) : Option Container :=
  p.containers.find? (·.name == name)

/-- The containers of one kind. -/
def containersOf (p : Package) (kind : ContainerKind) : List Container :=
  p.containers.filter (·.kind == kind)

end Package

/-- The package of a registry, with its digest. -/
def Registry.toPackage (r : Registry) (version generatedAt : String) : Package :=
  let package : Package :=
    ⟨some schemaVersion, version, none, none, generatedAt, none, r.containers⟩
  package.withHash

end HeaderSchema
