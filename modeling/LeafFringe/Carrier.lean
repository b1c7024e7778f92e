import LeafFringe.Node

/-!
# What a list of nodes may hold

Operations on lists of nodes move most nodes as they are and build a few new ones. They are
written once for any carrier of nodes: for plain nodes, and for nodes that are followed
through a computation to see which of them are still the same (`LeafFringe.Sharing.Held`).
-/

namespace LeafFringe

variable {α : Type}

/-- Things that stand for a node in a list of nodes. -/
class Carrier (β : Type) (α : outParam Type) where
  node : β → Node α
  /-- What stands for a node that was just built. -/
  built : Node α → β
  node_built : ∀ n, node (built n) = n

attribute [simp] Carrier.node_built

instance : Carrier (Node α) α where
  node n := n
  built n := n
  node_built _ := rfl

namespace Carrier

@[simp] theorem node_node (n : Node α) : node n = n := rfl

@[simp] theorem built_node (n : Node α) : (built n : Node α) = n := rfl

/-! Elements from outside come in a new run, and so does what is made of the elements of one
leaf, also where these are the same. -/

section Run

variable {κ : Type} [Carrier κ α]

def leaf (elems : List α) : Except ArityError κ :=
  (fun l => built (.leaf l)) <$> Leaf.ofList elems

def part (elems : List α) : Except ArityError κ :=
  (fun p => built (.part p)) <$> PartialLeaf.ofList elems

def slice (l : Leaf α) (offset size : Nat) : Except Fault κ := built <$> l.slice offset size

def reverse (l : Leaf α) : κ := built (.leaf l.reverse)

def set (l : Leaf α) (pos : Nat) (val : α) : Except Fault κ :=
  (fun new => built (.leaf new)) <$> l.set pos val

end Run

end Carrier

end LeafFringe
