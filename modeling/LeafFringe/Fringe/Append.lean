import LeafFringe.Event
import LeafFringe.Carrier

/-!
# Appending nodes to an output

The bottom of a tree is a list of nodes. Lists are joined by appending nodes one by one to an
output: two leaves may stand side by side, and a seam with a partial leaf on either side is
merged into one run, which is packed again. A partial leaf that is merged with a predecessor
is reported; a leaf that follows a partial leaf is not.
-/

namespace LeafFringe

variable {α κ : Type} [Carrier κ α]

/-- The joined run of two adjoining nodes, if they have to be merged. -/
def Node.seam? : Node α → Node α → Option {run : List α // run.length ≤ bufferCapacity}
  | .leaf _, .leaf _ => none
  | .part p, next => some ⟨p.toList ++ next.toList, by
      have := p.size_lt_minLeaf
      have := p.length_toList
      have := next.size_le_maxLeaf
      have := next.length_toList
      have := minLeaf_eq
      have := maxLeaf_eq
      have := bufferCapacity_eq
      rw [List.length_append]
      omega⟩
  | .leaf l, .part p => some ⟨l.toList ++ p.toList, by
      have := l.size_le_maxLeaf
      have := l.length_toList
      have := p.size_lt_minLeaf
      have := p.length_toList
      have := minLeaf_eq
      have := maxLeaf_eq
      have := bufferCapacity_eq
      rw [List.length_append]
      omega⟩

/-- What is reported when `next` is merged with the node before it. -/
def Node.absorption (prev next : Node α) : List Event :=
  if next.isPart then [.absorbed next.size (prev.size + next.size)] else []

/-- What takes the place of the last node of an output when `next` is appended. -/
def join (last next : κ) : Logged (List κ) :=
  match (Carrier.node last).seam? (Carrier.node next) with
  | none => pure [last, next]
  | some run =>
    ⟨(Node.pack run.val run.property).map Carrier.built,
      (Carrier.node last).absorption (Carrier.node next)⟩

/-- Appends a node to an output that is kept with its last node in front. -/
def push (stack : List κ) (next : κ) : Logged (List κ) :=
  match stack with
  | [] => pure [next]
  | last :: settled => (fun new => new.reverse ++ settled) <$> join last next

/-- Appends one node to an output. The position that the next node will take is the length of
the new output. -/
def append (out : List κ) (next : κ) : Logged (List κ) := List.reverse <$> push out.reverse next

/-- Appends the nodes of `right` to `left`, one after the other. -/
def concat (left right : List κ) : Logged (List κ) :=
  List.reverse <$> right.foldlM push left.reverse

@[simp] theorem append_nil (next : κ) : append [] next = pure [next] := by
  simp [append, push]

/-- Only the last node of an output has a part in what is appended. -/
@[simp] theorem append_snoc (settled : List κ) (last next : κ) :
    append (settled ++ [last]) next = (settled ++ ·) <$> join last next := by
  simp [append, push]

@[simp] theorem concat_nil (left : List κ) : concat left [] = pure left := by
  simp [concat]

@[simp] theorem concat_cons (left right : List κ) (next : κ) :
    concat left (next :: right) = append left next >>= fun out => concat out right := by
  simp [concat, append]

end LeafFringe
