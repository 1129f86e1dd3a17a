import HeaderSchema.Extraction.Basic
import HeaderSchema.Shape.Read

/-!
# From text to package

Reads a syntax dump and extracts a package with its report. An input of nothing
but white space has no root. What follows the root is never looked at. An input
that could not be read to its end is refused before anything else.
-/

namespace HeaderSchema

/-- Why nothing was extracted. -/
inductive ExtractError where
  | unreadable (reason : String)
  | emptyInput
  | malformed (message : String)
  | missing (field : MissingField)
deriving Repr, DecidableEq

def ExtractError.message : ExtractError → String
  | .unreadable reason => "I/O error: " ++ reason
  | .emptyInput => "malformed input: no AST root found"
  | .malformed message => "malformed input: " ++ message
  | .missing field => field.message

/-- The root of a syntax dump. -/
def Node.parse (input : Bytes) : Except ExtractError Node :=
  if input.all Reader.isBlankByte then .error .emptyInput
  else
    match (Shape.record .node).parse input with
    | .ok (root, _) => .ok root
    | .error fault => .error (.malformed (fault.message input))

/-- The root of a syntax dump that comes from a stream; a stream may fail, which
is known only once all that it delivers has been read. -/
def Node.parseStream (stream : Except String Bytes) : Except ExtractError Node :=
  match stream with
  | .ok input => Node.parse input
  | .error reason => .error (.unreadable reason)

/-- A package and the report about its extraction. -/
structure ExtractionRun where
  package : Package
  report : Report
deriving DecidableEq

/-- What the declarations below a root build; nothing if one of them fails. -/
def Extraction.ofRoot (options : ExtractOptions) (root : Node) :
    Except ExtractError Extraction :=
  match Extraction.empty.convert options root with
  | (e, .ok ()) => .ok e
  | (_, .error field) => .error (.missing field)

def ExtractionRun.ofRoot (options : ExtractOptions) (generatedAt : String) (root : Node) :
    Except ExtractError ExtractionRun := do
  let e ← Extraction.ofRoot options root
  return ⟨e.registry.toPackage extractorVersion generatedAt, e.report⟩

/-- The package of a syntax dump. -/
def extractSchema (options : ExtractOptions) (generatedAt : String) (input : Bytes) :
    Except ExtractError ExtractionRun := do
  ExtractionRun.ofRoot options generatedAt (← Node.parse input)

/-- The package of a syntax dump that comes from a stream. -/
def extractStream (options : ExtractOptions) (generatedAt : String)
    (stream : Except String Bytes) : Except ExtractError ExtractionRun := do
  ExtractionRun.ofRoot options generatedAt (← Node.parseStream stream)

end HeaderSchema
