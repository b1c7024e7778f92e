import LeafFringe.Carrier

/-!
# Nodes that are followed through a computation

A node holds a run of elements, and copies of the node share that run. A `Held` node remembers
which run it holds. Since the operations on lists of nodes take any carrier, they carry the
mark along with every node they move, and what they build has none.
-/

namespace LeafFringe

variable {α : Type}

/-- A node with the number of the run it holds, or with none if the run was just built. -/
structure Held (α : Type) where
  run : Option Nat
  node : Node α
deriving DecidableEq, Repr

instance : Carrier (Held α) α where
  node h := h.node
  built n := ⟨none, n⟩
  node_built _ := rfl

namespace Held

@[simp] theorem carrier_node (h : Held α) : Carrier.node h = h.node := rfl

@[simp] theorem carrier_built (n : Node α) : (Carrier.built n : Held α) = ⟨none, n⟩ := rfl

end Held

end LeafFringe
