/-!
# Syntax nodes

A node of a compiler's syntax dump, with the fields that a schema needs. Every
node has an identifier and a kind tag, which may be empty; all else depends on
the kind.
-/

namespace HeaderSchema

/-- A type as the dump gives it: the header's own spelling, and the spelling
with type definitions expanded. -/
structure QualType where
  qualType : String
  desugared : Option String
deriving Repr, DecidableEq

/-- A node. `interface` names the container that a category extends, and
`isInstance` is false for methods of a class. -/
structure Node where
  id : String
  kind : String
  name : Option String
  type : Option QualType
  returnType : Option QualType
  interface : Option Node
  isInstance : Option Bool
  isImplicit : Bool
  inner : List Node

/-- Where a node stands below its parent. -/
inductive Role where
  | root
  | interface
  | inner
deriving Repr, DecidableEq

mutual

/-- Visits a node and all nodes below it, parents first and the `interface`
before the inner nodes, with their depth and role. -/
def Node.visit {σ : Type} (f : Nat → Role → Node → σ → σ) (depth : Nat) (role : Role)
    (node : Node) (s : σ) : σ :=
  match node with
  | ⟨_, _, _, _, _, interface, _, _, inner⟩ =>
    Node.visitList f (depth + 1) inner
      (Node.visitOption f (depth + 1) interface (f depth role node s))

/-- Visits the `interface` of a node. -/
def Node.visitOption {σ : Type} (f : Nat → Role → Node → σ → σ) (depth : Nat)
    (node : Option Node) (s : σ) : σ :=
  match node with
  | none => s
  | some node => Node.visit f depth .interface node s

/-- Visits inner nodes in their order. -/
def Node.visitList {σ : Type} (f : Nat → Role → Node → σ → σ) (depth : Nat)
    (nodes : List Node) (s : σ) : σ :=
  match nodes with
  | [] => s
  | node :: nodes => Node.visitList f depth nodes (Node.visit f depth .inner node s)

end

/-- The nodes of a tree in the order of their visit. -/
def Node.preorder (root : Node) : List (Nat × Role × Node) :=
  (root.visit (fun depth role node seen => (depth, role, node) :: seen) 0 .root []).reverse

end HeaderSchema
