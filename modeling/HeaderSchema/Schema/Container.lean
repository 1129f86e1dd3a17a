/-!
# Containers and their members

An interface, together with its categories, or a protocol is one container: a
name and the properties and methods declared for it, in the order in which they
were declared. Members are never merged, so a name may occur more than once.
-/

namespace HeaderSchema

/-- A type, as the header spells it. -/
structure TypeRef where
  name : String
deriving Repr, DecidableEq, Inhabited

structure Param where
  name : String
  type : TypeRef
deriving Repr, DecidableEq, Inhabited

structure Property where
  name : String
  type : TypeRef
deriving Repr, DecidableEq, Inhabited

/-- Whether a method is sent to instances or to the class itself. -/
inductive MethodKind where
  | instanceMethod
  | classMethod
deriving Repr, DecidableEq, Inhabited

/-- The word that documents use for the kind. -/
def MethodKind.word : MethodKind → String
  | .instanceMethod => "instance"
  | .classMethod => "class"

/-- The sign before a method's declaration. -/
def MethodKind.sigil : MethodKind → Char
  | .instanceMethod => '-'
  | .classMethod => '+'

/-- A method; `name` is its selector. -/
structure Method where
  name : String
  returnType : TypeRef
  params : List Param
  kind : MethodKind
deriving Repr, DecidableEq, Inhabited

/-- Whether a container was declared as an interface. -/
inductive ContainerKind where
  | interface
  | protocol
deriving Repr, DecidableEq, Inhabited

def ContainerKind.word : ContainerKind → String
  | .interface => "interface"
  | .protocol => "protocol"

/-- A container. `categories` names the categories that were merged into it; a
category without a name is a class extension. -/
structure Container where
  name : String
  properties : List Property
  methods : List Method
  isInterface : Bool
  categories : List String
deriving Repr, DecidableEq, Inhabited

/-- Properties and methods, each in the order of their declaration. -/
structure Members where
  properties : List Property
  methods : List Method
deriving Repr, DecidableEq, Inhabited

def Members.empty : Members := ⟨[], []⟩

namespace Container

/-- A container that was only named so far: no members, and no interface. -/
def ofName (name : String) : Container :=
  ⟨name, [], [], false, []⟩

/-- A container is a protocol until an interface declaration says otherwise. -/
def kind (c : Container) : ContainerKind :=
  if c.isInterface then .interface else .protocol

/-- The first property of that name. -/
def property? (c : Container) (name : String) : Option Property :=
  c.properties.find? (·.name == name)

/-- The first method of that selector. -/
def method? (c : Container) (name : String) : Option Method :=
  c.methods.find? (·.name == name)

/-- The container, known to be an interface. -/
def markInterface (c : Container) : Container :=
  { c with isInterface := true }

def addCategory (c : Container) (name : String) : Container :=
  { c with categories := c.categories ++ [name] }

/-- The container with further members after those that it has. -/
def append (c : Container) (members : Members) : Container :=
  { c with
    properties := c.properties ++ members.properties
    methods := c.methods ++ members.methods }

end Container

end HeaderSchema
