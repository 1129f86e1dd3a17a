import HeaderSchema.Render.Markdown
import HeaderSchema.Render.Text
import HeaderSchema.Yaml.Printer

/-!
# Output formats

The four formats of packages and reports. JSON is laid out and has no line end
after it. The plain text and Markdown end with one, unless they are empty, and so does
YAML, unless its last scalar is a literal block that ends with a break of another kind.
-/

namespace HeaderSchema

inductive Format where
  | text
  | json
  | yaml
  | markdown
deriving Repr, DecidableEq

namespace Format

def names : List (String × Format) :=
  [("text", .text), ("json", .json), ("yaml", .yaml), ("markdown", .markdown)]

def ofName? (name : String) : Option Format :=
  names.lookup name

end Format

def Json.toYaml (document : Json) : String :=
  Yaml.document (Yaml.topMembers document)

def Package.render (p : Package) : Format → String
  | .text => p.toText
  | .json => p.toJson.pretty
  | .yaml => p.toJson.toYaml
  | .markdown => p.toMarkdown

def Report.render (r : Report) : Format → String
  | .text => r.toText
  | .json => r.toJson.pretty
  | .yaml => r.toJson.toYaml
  | .markdown => r.toMarkdown

end HeaderSchema
