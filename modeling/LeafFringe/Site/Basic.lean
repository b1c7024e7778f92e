import LeafFringe.Carrier

/-!
# The site of an edit

A leaf knows no neighbours. Whoever edits one names the siblings that may take part in its
rebalancing; the three together are the site of the edit.
-/

namespace LeafFringe

variable {α β : Type}

/-- A leaf to edit, between the siblings that may take part in its rebalancing. -/
@[ext] structure Site (α : Type) where
  left : Option (Leaf α) := none
  node : Leaf α
  right : Option (Leaf α) := none
deriving DecidableEq, Repr

namespace Site

/-- The leaf and its siblings in order. -/
def leaves (s : Site α) : List (Leaf α) := s.left.toList ++ s.node :: s.right.toList

def map (f : α → β) (s : Site α) : Site β where
  left := s.left.map (Leaf.map f)
  node := s.node.map f
  right := s.right.map (Leaf.map f)

@[simp] theorem left_map (f : α → β) (s : Site α) :
    (s.map f).left = s.left.map (Leaf.map f) := rfl

@[simp] theorem node_map (f : α → β) (s : Site α) : (s.map f).node = s.node.map f := rfl

@[simp] theorem right_map (f : α → β) (s : Site α) :
    (s.map f).right = s.right.map (Leaf.map f) := rfl

/-- The same site read from right to left. -/
def reverse (s : Site α) : Site α where
  left := s.right.map Leaf.reverse
  node := s.node.reverse
  right := s.left.map Leaf.reverse

end Site

end LeafFringe
