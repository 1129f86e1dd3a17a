import HeaderSchema.Schema.Container
import HeaderSchema.Syntax.Node

/-!
# Declarations

Classifies nodes by their kind tag and checks that the fields which a kind needs
are there; a field that is there may be empty. What comes out has no optional
fields left. Kinds that a schema has no use for are no faults.
-/

namespace HeaderSchema

/-- The kinds of declarations that are told apart. -/
inductive DeclKind where
  | translationUnit
  | interface
  | category
  | protocol
  | property
  | method
  | parameter
  | enumeration
  | function
  | record
  | typeAlias
  | variable
  | other
deriving Repr, DecidableEq

def DeclKind.ofTag (tag : String) : DeclKind :=
  if tag = "TranslationUnitDecl" then .translationUnit
  else if tag = "ObjCInterfaceDecl" then .interface
  else if tag = "ObjCCategoryDecl" then .category
  else if tag = "ObjCProtocolDecl" then .protocol
  else if tag = "ObjCPropertyDecl" then .property
  else if tag = "ObjCMethodDecl" then .method
  else if tag = "ParmVarDecl" then .parameter
  else if tag = "EnumDecl" then .enumeration
  else if tag = "FunctionDecl" then .function
  else if tag = "RecordDecl" then .record
  else if tag = "TypedefDecl" then .typeAlias
  else if tag = "VarDecl" then .variable
  else .other

def Node.declKind (node : Node) : DeclKind :=
  .ofTag node.kind

/-- The kind is known at the top level but has no place in a schema. -/
def DeclKind.isUnmodeled : DeclKind → Bool
  | .enumeration | .function | .record | .typeAlias | .variable => true
  | _ => false

/-! ## Required fields -/

/-- The fields that some kind of node has to have. -/
inductive RequiredField where
  | name
  | interface
  | interfaceName
  | type
  | returnType
deriving Repr, DecidableEq

/-- The path of a field from its node. -/
def RequiredField.path : RequiredField → String
  | .name => "name"
  | .interface => "interface"
  | .interfaceName => "interface.name"
  | .type => "type"
  | .returnType => "returnType"

/-- A node lacks a field that its kind has to have. -/
structure MissingField where
  kind : String
  field : RequiredField
  id : String
deriving Repr, DecidableEq

/-- The fault of a node that lacks a field; a node with an empty identifier is
reported as having none. -/
def MissingField.of (node : Node) (field : RequiredField) : MissingField :=
  ⟨node.kind, field, if node.id.isEmpty then "<no id>" else node.id⟩

def MissingField.message (m : MissingField) : String :=
  "missing required field `" ++ m.field.path ++ s!"` on {m.kind} node {m.id}"

/-- A field of a node, or the fault that it is missing. -/
def Node.require {α : Type} (node : Node) (field : RequiredField) (value : Option α) :
    Except MissingField α :=
  match value with
  | some x => .ok x
  | none => .error (.of node field)

/-! ## Top-level declarations -/

/-- What kind of declaration contributes to a container. A class extension is a
category with an empty name. -/
inductive Origin where
  | interface
  | category (name : String)
  | protocol
deriving Repr, DecidableEq

/-- A declaration that contributes its members to the container named `target`. -/
structure ContainerDecl where
  origin : Origin
  target : String
  body : Node

inductive Declaration where
  | container (decl : ContainerDecl)
  | unmodeled (kind : DeclKind)
  | ignored

/-- Classifies a direct child of the compilation unit. -/
def Declaration.ofNode (node : Node) : Except MissingField Declaration :=
  match node.declKind with
  | .interface => do
    let target ← node.require .name node.name
    return .container ⟨.interface, target, node⟩
  | .protocol => do
    let target ← node.require .name node.name
    return .container ⟨.protocol, target, node⟩
  | .category => do
    let interface ← node.require .interface node.interface
    let target ← node.require .interfaceName interface.name
    return .container ⟨.category (node.name.getD ""), target, node⟩
  | kind => if kind.isUnmodeled then .ok (.unmodeled kind) else .ok .ignored

/-! ## Members -/

/-- The type that a schema keeps: the header's own spelling. -/
def QualType.toTypeRef (t : QualType) : TypeRef :=
  ⟨t.qualType⟩

inductive Member where
  | property (property : Property)
  | method (method : Method)
  | ignored
deriving Repr, DecidableEq

def Param.ofNode (node : Node) : Except MissingField Param := do
  let type ← node.require .type node.type
  return ⟨node.name.getD "", type.toTypeRef⟩

/-- The parameters among the children of a method. -/
def Param.listOfNodes : List Node → Except MissingField (List Param)
  | [] => .ok []
  | node :: nodes =>
    if node.declKind = .parameter then do
      let param ← Param.ofNode node
      let params ← Param.listOfNodes nodes
      return param :: params
    else
      Param.listOfNodes nodes

/-- A method belongs to the class exactly when the node says that it is none of
instances. -/
def MethodKind.ofNode (node : Node) : MethodKind :=
  if node.isInstance = some false then .classMethod else .instanceMethod

/-- Classifies a child of a container declaration. -/
def Member.ofNode (node : Node) : Except MissingField Member :=
  match node.declKind with
  | .property => do
    let type ← node.require .type node.type
    return .property ⟨node.name.getD "", type.toTypeRef⟩
  | .method => do
    let returnType ← node.require .returnType node.returnType
    let params ← Param.listOfNodes node.inner
    return .method ⟨node.name.getD "", returnType.toTypeRef, params, .ofNode node⟩
  | _ => .ok .ignored

end HeaderSchema
