/-!
# Help pages

The pages that `help` and `--help` show. They list commands and options in the
order in which they are declared, with their texts in one column.
-/

namespace HeaderSchema

/-- What a help page is about. -/
inductive HelpTopic where
  | program
  | extract
  | validate
  | help
deriving Repr, DecidableEq

/-- Lines with their line ends. -/
def helpLines (lines : List String) : String :=
  String.join (lines.map fun line => line ++ "\n")

/-- The page of a topic. -/
def HelpTopic.page : HelpTopic → String
  | .program => helpLines [
      "Extract Objective-C interface schemas from clang JSON AST dumps",
      "",
      "Usage: objc-schema <COMMAND>",
      "",
      "Commands:",
      "  extract   Extract a schema from a `clang -Xclang -ast-dump=json` file",
      "  validate  Validate one or more exported schema package JSON files",
      "  help      Print this message or the help of the given subcommand(s)",
      "",
      "Options:",
      "  -h, --help  Print help"]
  | .extract => helpLines [
      "Extract a schema from a `clang -Xclang -ast-dump=json` file",
      "",
      "Usage: objc-schema extract [OPTIONS] --input <INPUT>",
      "",
      "Options:",
      "      --input <INPUT>    AST JSON file, or `-` for stdin",
      "      --format <FORMAT>  Output format [default: text] " ++
        "[possible values: text, json, yaml, markdown]",
      "      --output <OUTPUT>  Write the schema here instead of stdout",
      "      --with-report      Also print the extraction report " ++
        "(to stderr when writing to stdout)",
      "      --skip-implicit    Skip compiler-synthesized members such as property accessors",
      "      --name <NAME>      Optional package name metadata",
      "  -h, --help             Print help"]
  | .validate => helpLines [
      "Validate one or more exported schema package JSON files",
      "",
      "Usage: objc-schema validate <INPUTS>...",
      "",
      "Arguments:",
      "  <INPUTS>...  Package files and/or directories containing package JSON files",
      "",
      "Options:",
      "  -h, --help  Print help"]
  | .help => helpLines [
      "Print this message or the help of the given subcommand(s)",
      "",
      "Usage: objc-schema help [COMMAND]...",
      "",
      "Arguments:",
      "  [COMMAND]...  Print help for the subcommand(s)"]

end HeaderSchema
