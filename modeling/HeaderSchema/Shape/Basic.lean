import HeaderSchema.Schema.Package
import HeaderSchema.Syntax.Node

/-!
# Shapes of documents

A shape says what a document has to look like to be read as a value: a text, a
list of some shape, one of a few words, or a record with named fields. Records
and choices are given by their tables (`Record.fields`, `Choice.words`), so one
reader serves all of them. `Shape.Val` is the type of the values of a shape.

A field is either required or has a default, and may be nullable, which means
that `null` stands for no value. A nullable field may be left out of an object
even if it has no default.
-/

namespace HeaderSchema

/-- The records that documents are made of. -/
inductive Record where
  | node
  | qualType
  | typeRef
  | param
  | property
  | method
  | container
  | package
  | counters
  | report
deriving Repr, DecidableEq

/-- The choices between words. -/
inductive Choice where
  | methodKind
  | containerKind
deriving Repr, DecidableEq

/-- What a document has to look like. -/
inductive Shape where
  | text
  | boolean
  | count
  | tally
  | list (item : Shape)
  | record (record : Record)
  | choice (choice : Choice)
deriving Repr, DecidableEq

abbrev Record.Val : Record → Type
  | .node => Node
  | .qualType => QualType
  | .typeRef => TypeRef
  | .param => Param
  | .property => Property
  | .method => Method
  | .container => Container
  | .package => Package
  | .counters => Counters
  | .report => Report

abbrev Choice.Val : Choice → Type
  | .methodKind => MethodKind
  | .containerKind => ContainerKind

abbrev Shape.Val : Shape → Type
  | .text => String
  | .boolean => Bool
  | .count => Nat
  | .tally => Tally
  | .list item => List item.Val
  | .record r => r.Val
  | .choice c => c.Val

/-- The place of a field's value: its shape, and whether `null` stands for no
value. -/
inductive Slot where
  | plain (shape : Shape)
  | nullable (shape : Shape)
deriving Repr, DecidableEq

abbrev Slot.Val : Slot → Type
  | .plain shape => shape.Val
  | .nullable shape => Option shape.Val

/-- A field of a record, with what it holds when it is left out. -/
structure Field where
  key : String
  slot : Slot
  default? : Option slot.Val

/-- A field that has to be there, or that is none when it is left out of an
object and its slot is nullable. -/
abbrev Field.required (key : String) (slot : Slot) : Field :=
  ⟨key, slot, none⟩

abbrev Field.withDefault (key : String) (slot : Slot) (value : slot.Val) : Field :=
  ⟨key, slot, some value⟩

/-- The values of some fields, in their order. -/
abbrev Values : List Field → Type
  | [] => Unit
  | field :: fields => field.slot.Val × Values fields

namespace Record

/-- The name that faults use. -/
def name : Record → String
  | .node => "Node"
  | .qualType => "QualType"
  | .typeRef => "Type"
  | .param => "Param"
  | .property => "Property"
  | .method => "Method"
  | .container => "Container"
  | .package => "SchemaPackage"
  | .counters => "ExtractionStats"
  | .report => "ExtractionReport"

/-- The fields in the order of their declaration, which is also their order when
a record is written as a list. -/
abbrev fields : Record → List Field
  | .node => [
      .withDefault "id" (.plain .text) "",
      .withDefault "kind" (.plain .text) "",
      .required "name" (.nullable .text),
      .required "type" (.nullable (.record .qualType)),
      .required "returnType" (.nullable (.record .qualType)),
      .required "interface" (.nullable (.record .node)),
      .required "instance" (.nullable .boolean),
      .withDefault "isImplicit" (.plain .boolean) false,
      .withDefault "inner" (.plain (.list (.record .node))) []]
  | .qualType => [
      .required "qualType" (.plain .text),
      .required "desugaredQualType" (.nullable .text)]
  | .typeRef => [
      .required "name" (.plain .text)]
  | .param => [
      .required "name" (.plain .text),
      .required "type" (.plain (.record .typeRef))]
  | .property => [
      .required "name" (.plain .text),
      .required "type" (.plain (.record .typeRef))]
  | .method => [
      .required "name" (.plain .text),
      .required "return_type" (.plain (.record .typeRef)),
      .required "params" (.plain (.list (.record .param))),
      .withDefault "kind" (.plain (.choice .methodKind)) MethodKind.instanceMethod]
  | .container => [
      .required "name" (.plain .text),
      .required "properties" (.plain (.list (.record .property))),
      .required "methods" (.plain (.list (.record .method))),
      .required "is_interface" (.plain .boolean),
      .withDefault "categories" (.plain (.list .text)) []]
  | .package => [
      .withDefault "schema_version" (.nullable .text) none,
      .required "version" (.plain .text),
      .withDefault "name" (.nullable .text) none,
      .withDefault "source" (.nullable .text) none,
      .required "generated_at" (.plain .text),
      .withDefault "bundle_hash" (.nullable .text) none,
      .required "containers" (.plain (.list (.record .container)))]
  | .counters => [
      .required "interface_decls" (.plain .count),
      .required "category_decls" (.plain .count),
      .required "protocol_decls" (.plain .count),
      .required "properties" (.plain .count),
      .required "methods" (.plain .count),
      .required "unmodeled" (.plain .tally),
      .required "ignored" (.plain .tally)]
  | .report => [
      .withDefault "source" (.nullable .text) none,
      .required "containers" (.plain .count),
      .required "interfaces" (.plain .count),
      .required "protocols" (.plain .count),
      .required "stats" (.plain (.record .counters))]

end Record

/-- The value that the values of all fields make up. -/
def Record.build : (r : Record) → Values r.fields → r.Val
  | .node, (id, kind, name, type, returnType, interface, isInstance, isImplicit, inner, ()) =>
    ⟨id, kind, name, type, returnType, interface, isInstance, isImplicit, inner⟩
  | .qualType, (spelling, desugared, ()) => ⟨spelling, desugared⟩
  | .typeRef, (name, ()) => ⟨name⟩
  | .param, (name, type, ()) => ⟨name, type⟩
  | .property, (name, type, ()) => ⟨name, type⟩
  | .method, (name, returnType, params, kind, ()) => ⟨name, returnType, params, kind⟩
  | .container, (name, properties, methods, isInterface, categories, ()) =>
    ⟨name, properties, methods, isInterface, categories⟩
  | .package, (format, version, name, source, generatedAt, bundleHash, containers, ()) =>
    ⟨format, version, name, source, generatedAt, bundleHash, containers⟩
  | .counters, (interfaces, categories, protocols, properties, methods, unmodeled, ignored, ()) =>
    ⟨interfaces, categories, protocols, properties, methods, unmodeled, ignored⟩
  | .report, (source, containers, interfaces, protocols, tallied, ()) =>
    ⟨source, containers, interfaces, protocols, tallied⟩

/-- The words of a choice, with what they stand for. -/
def Choice.words : (c : Choice) → List (String × c.Val)
  | .methodKind => [("instance", MethodKind.instanceMethod), ("class", MethodKind.classMethod)]
  | .containerKind => [("interface", ContainerKind.interface), ("protocol", ContainerKind.protocol)]

/-! ## Records that are being read -/

/-- Where a field stands in a list of fields. -/
inductive Place (field : Field) : List Field → Type where
  | here {fields : List Field} : Place field (field :: fields)
  | there {other : Field} {fields : List Field} : Place field fields → Place field (other :: fields)

/-- A field together with its place. -/
abbrev Placed (fields : List Field) := (field : Field) × Place field fields

/-- All fields with their places. -/
def Placed.all : (fields : List Field) → List (Placed fields)
  | [] => []
  | field :: fields =>
    ⟨field, .here⟩ :: (Placed.all fields).map fun ⟨field, place⟩ => ⟨field, .there place⟩

/-- The field with a key. -/
def Placed.find? (key : String) : (fields : List Field) → Option (Placed fields)
  | [] => none
  | field :: fields =>
    if field.key = key then some ⟨field, .here⟩
    else (Placed.find? key fields).map fun ⟨field, place⟩ => ⟨field, .there place⟩

/-- The values of those fields that have been read. -/
abbrev Partial : List Field → Type
  | [] => Unit
  | field :: fields => Option field.slot.Val × Partial fields

namespace Partial

/-- No field has been read. -/
def empty : (fields : List Field) → Partial fields
  | [] => ()
  | _ :: fields => (none, empty fields)

/-- The value of a field, if it has been read. -/
def get {field : Field} : {fields : List Field} → Place field fields → Partial fields →
    Option field.slot.Val
  | _, .here, (value, _) => value
  | _, .there place, (_, values) => get place values

/-- Sets the value of a field. -/
def set {field : Field} : {fields : List Field} → Place field fields → field.slot.Val →
    Partial fields → Partial fields
  | _, .here, value, (_, values) => (some value, values)
  | _, .there place, value, (other, values) => (other, set place value values)

/-- The values of all fields, those that were not read filled in by `absent`;
failing that, the number of the first field without a value. -/
def complete (absent : (field : Field) → Option field.slot.Val) :
    {fields : List Field} → Nat → Partial fields → Except (Nat × Field) (Values fields)
  | [], _, () => .ok ()
  | field :: _, index, (value, values) =>
    match value <|> absent field with
    | none => .error (index, field)
    | some value =>
      match complete absent (index + 1) values with
      | .ok values => .ok (value, values)
      | .error missing => .error missing

/-- The value that was set is the value that is read. -/
theorem get_set {field : Field} : {fields : List Field} → (place : Place field fields) →
    (value : field.slot.Val) → (values : Partial fields) →
    get place (set place value values) = some value
  | _, .here, _, _ => rfl
  | _, .there place, value, values => get_set place value values.2

/-- No field of the empty record has a value. -/
theorem get_empty {field : Field} : {fields : List Field} → (place : Place field fields) →
    get place (empty fields) = none
  | _, .here => rfl
  | _, .there place => get_empty place

end Partial

/-- What an object's field holds when it is left out. -/
def Field.absentMember (field : Field) : Option field.slot.Val :=
  match field with
  | ⟨_, _, some value⟩ => some value
  | ⟨_, .nullable _, none⟩ => some none
  | ⟨_, .plain _, none⟩ => none

/-- What a record's field holds when the record is written as a list that ends
before it. -/
def Field.absentItem (field : Field) : Option field.slot.Val :=
  field.default?

end HeaderSchema
