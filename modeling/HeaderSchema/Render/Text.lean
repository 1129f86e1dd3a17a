import HeaderSchema.Schema.Package

/-!
# The plain text format

A container is a line with its kind and name, a line for each property and
method, indented by two, and a line for each parameter, indented by four.
Containers are separated by empty lines.
-/

namespace HeaderSchema

def Property.toText (p : Property) : String :=
  s!"  {p.name}: {p.type.name}\n"

def Param.toText (p : Param) : String :=
  s!"    {p.name}: {p.type.name}\n"

def Method.toText (m : Method) : String :=
  s!"  {m.name} -> {m.returnType.name}\n" ++ String.join (m.params.map (·.toText))

def Container.toText (c : Container) : String :=
  s!"{c.kind.word} {c.name}\n" ++ String.join (c.properties.map (·.toText)) ++
    String.join (c.methods.map (·.toText))

def Package.toText (p : Package) : String :=
  "\n".intercalate (p.containers.map (·.toText))

/-- The line that sums up an extraction. -/
def Report.toText (r : Report) : String :=
  let source := r.source.getD "<unknown>"
  let unmodeled := r.counters.unmodeled.total
  let ignored := r.counters.ignored.total
  let plural := if r.counters.properties = 1 then "y" else "ies"
  s!"{source}: {r.containers} container(s) ({r.interfaces} interface, {r.protocols} protocol), " ++
    s!"{r.counters.properties} propert{plural}, {r.counters.methods} method(s), " ++
    s!"{unmodeled} unmodeled, {ignored} ignored\n"

end HeaderSchema
