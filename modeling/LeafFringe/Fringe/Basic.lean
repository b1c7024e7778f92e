import LeafFringe.Fringe.Append

/-!
# Lists of nodes

`flatten` is the sequence that a list of nodes stands for. A list is a fringe if `check`
accepts it: a partial leaf may only stand alone. `chop` cuts a run of elements into nodes and
`ofElems` appends these to an empty output, which makes a fringe of them.
-/

namespace LeafFringe

variable {α κ : Type}

/-- All elements of a list of nodes, in order. -/
def flatten (nodes : List (Node α)) : List α := nodes.flatMap Node.toList

@[simp] theorem flatten_nil : flatten ([] : List (Node α)) = [] := rfl

@[simp] theorem flatten_cons (n : Node α) (nodes : List (Node α)) :
    flatten (n :: nodes) = n.toList ++ flatten nodes := rfl

@[simp] theorem flatten_append (nodes more : List (Node α)) :
    flatten (nodes ++ more) = flatten nodes ++ flatten more := by
  simp [flatten]

/-- The number of elements of a list of nodes. -/
def totalSize (nodes : List (Node α)) : Nat := nodes.foldr (fun n count => n.size + count) 0

theorem length_flatten (nodes : List (Node α)) : (flatten nodes).length = totalSize nodes := by
  induction nodes with
  | nil => rfl
  | cons n nodes ih => simp [totalSize, Node.length_toList, ih]

/-- The number of elements of a fringe. Blames the first partial leaf of a list that is none. -/
def check (nodes : List (Node α)) : Except Fault Nat :=
  match nodes with
  | [.part p] => .ok p.size
  | _ =>
    match nodes.find? Node.isPart with
    | some stray => .error (.violation (.strayPart stray.size))
    | none => .ok (totalSize nodes)

/-- Cuts a run into full leaves and one last node for what remains. -/
def chop (run : List α) : List (Node α) :=
  if run.isEmpty then []
  else Node.ofRun (run.take maxLeaf) (List.length_take_le _ _) :: chop (run.drop maxLeaf)
termination_by run.length
decreasing_by
  rename_i h
  have := maxLeaf_eq
  have := List.length_pos_iff.2 (mt List.isEmpty_iff.2 h)
  rw [List.length_drop]
  omega

/-- The fringe of a run of elements. -/
def ofElems [Carrier κ α] (run : List α) : Logged (List κ) :=
  concat [] ((chop run).map Carrier.built)

end LeafFringe
