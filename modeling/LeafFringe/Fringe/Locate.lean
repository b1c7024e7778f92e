import LeafFringe.Fringe.Basic
import LeafFringe.Site.Basic

/-!
# Finding the node for a position

`locate` splits a list of nodes at the one that takes a position. The nodes beside it are the
siblings of an edit there, and `Focus.splice` puts what the edit makes of the three in their
place.
-/

namespace LeafFringe

variable {α : Type}

/-- Which of two adjoining nodes takes an insertion between them. -/
inductive Bias where
  | left
  | right
deriving DecidableEq, Repr

/-- What a position points at. -/
inductive Aim where
  /-- An element that is there. -/
  | element
  /-- A place between two elements, or at either end. -/
  | gap (bias : Bias)
deriving DecidableEq, Repr

/-- Whether a node of the given size takes a position counted from its first element. The last
node also takes the place behind all elements. -/
def Aim.accepts : Aim → (pos size : Nat) → (isLast : Bool) → Bool
  | element, pos, size, _ => pos < size
  | gap .left, pos, size, _ => pos ≤ size
  | gap .right, pos, size, isLast => pos < size || (isLast && pos == size)

/-- One node of a list, with what stands before and after it and a position inside of it. -/
structure Focus (α : Type) where
  before : List (Node α)
  node : Node α
  after : List (Node α)
  offset : Nat

namespace Focus

def nodes (f : Focus α) : List (Node α) := f.before ++ f.node :: f.after

def left? (f : Focus α) : Option (Node α) := f.before.getLast?

def right? (f : Focus α) : Option (Node α) := f.after.head?

/-- The site of an edit at the focus. -/
def site (f : Focus α) : Except Fault (Site α) := do
  let left ← f.left?.mapM Node.asLeaf
  let node ← f.node.asLeaf
  let right ← f.right?.mapM Node.asLeaf
  return { left, node, right }

/-- Replaces the node and its two neighbours. -/
def splice (f : Focus α) (replacement : List (Node α)) : List (Node α) :=
  f.before.dropLast ++ replacement ++ f.after.tail

end Focus

/-- The first node that takes a position counted from the start of the list. -/
def locate (aim : Aim) : List (Node α) → Nat → Option (Focus α)
  | [], _ => none
  | n :: rest, pos =>
    if aim.accepts pos n.size rest.isEmpty then
      some { before := [], node := n, after := rest, offset := pos }
    else
      (locate aim rest (pos - n.size)).map fun f => { f with before := n :: f.before }

theorem nodes_of_locate {aim : Aim} {nodes : List (Node α)} {pos : Nat} {f : Focus α}
    (h : locate aim nodes pos = some f) : f.nodes = nodes := by
  induction nodes generalizing pos f with
  | nil => simp [locate] at h
  | cons n rest ih =>
    simp only [locate] at h
    split at h
    · cases h
      rfl
    · obtain ⟨g, hg, rfl⟩ := Option.map_eq_some_iff.1 h
      simp only [Focus.nodes, List.cons_append, List.cons.injEq, true_and]
      exact ih hg

end LeafFringe
