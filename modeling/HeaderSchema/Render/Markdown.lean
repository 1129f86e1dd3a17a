import HeaderSchema.Schema.Package

/-!
# The Markdown format

A package is a document with a title, its source and number of containers, and
a section for each container: its categories, a table of its properties and a
list of its methods, each only if there are any. A class extension is shown as
such, since it has no name.
-/

namespace HeaderSchema

/-- A method as it is declared. -/
def Method.signature (m : Method) : String :=
  let params := ", ".intercalate (m.params.map fun p => s!"{p.name}: {p.type.name}")
  s!"{m.kind.sigil} ({m.returnType.name}) {m.name}({params})"

/-- The name of a category. -/
def categoryMark (name : String) : String :=
  if name.isEmpty then "(extension)" else s!"`{name}`"

namespace Container

def categoriesMarkdown (c : Container) : String :=
  if c.categories.isEmpty then ""
  else "Categories: " ++ ", ".intercalate (c.categories.map categoryMark) ++ "\n\n"

def propertiesMarkdown (c : Container) : String :=
  if c.properties.isEmpty then ""
  else
    "### Properties\n\n| Property | Type |\n|----------|------|\n" ++
      String.join (c.properties.map fun p => s!"| `{p.name}` | `{p.type.name}` |\n") ++ "\n"

def methodsMarkdown (c : Container) : String :=
  if c.methods.isEmpty then ""
  else
    "### Methods\n\n" ++ String.join (c.methods.map fun m => "- `" ++ m.signature ++ "`\n") ++ "\n"

def toMarkdown (c : Container) : String :=
  s!"## {c.kind.word} `{c.name}`\n\n" ++ c.categoriesMarkdown ++ c.propertiesMarkdown ++
    c.methodsMarkdown

end Container

/-- The line of the source. -/
def Package.sourceMarkdown (p : Package) : String :=
  match p.source with
  | none => ""
  | some source => s!"**Source:** {source}\n\n"

def Package.toMarkdown (p : Package) : String :=
  let title := p.name.getD "Objective-C schema"
  s!"# {title}\n\n" ++ p.sourceMarkdown ++ s!"**Containers:** {p.containers.length}\n\n" ++
    String.join (p.containers.map (·.toMarkdown))

/-- The list of the kinds of declarations that were left out. -/
def Counters.unmodeledMarkdown (c : Counters) : String :=
  if c.unmodeled.isEmpty then ""
  else
    "\n## Unmodeled declarations\n\n" ++
      String.join (c.unmodeled.entries.map fun (tag, n) => s!"- {tag}: {n}\n")

def Report.toMarkdown (r : Report) : String :=
  let source := r.source.getD "<unknown>"
  s!"# Extraction Report: {source}\n\n" ++ s!"- **Containers:** {r.containers}\n" ++
    s!"- **Interfaces:** {r.interfaces}\n" ++ s!"- **Protocols:** {r.protocols}\n" ++
    s!"- **Categories merged:** {r.counters.categories}\n" ++
    s!"- **Properties:** {r.counters.properties}\n" ++
    s!"- **Methods:** {r.counters.methods}\n" ++ r.counters.unmodeledMarkdown

end HeaderSchema
