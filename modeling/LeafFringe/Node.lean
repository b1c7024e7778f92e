import LeafFringe.Leaf

/-!
# Nodes at the bottom of a tree

A node is a leaf or a partial leaf. Where a run becomes a node, its length alone decides the
kind (`Node.ofRun`); a run too long for one leaf becomes two of about the same size
(`Node.pack`).
-/

namespace LeafFringe

variable {α β : Type}

/-- A leaf, or a run that is too short for one. -/
inductive Node (α : Type) where
  | leaf (l : Leaf α)
  | part (p : PartialLeaf α)
deriving DecidableEq, Repr

namespace Node

def toList : Node α → List α
  | leaf l => l.toList
  | part p => p.toList

@[simp] theorem toList_leaf (l : Leaf α) : (leaf l).toList = l.toList := rfl

@[simp] theorem toList_part (p : PartialLeaf α) : (part p).toList = p.toList := rfl

def size (n : Node α) : Nat := n.toList.length

theorem length_toList (n : Node α) : n.toList.length = n.size := rfl

@[simp] theorem size_leaf (l : Leaf α) : (leaf l).size = l.size := rfl

@[simp] theorem size_part (p : PartialLeaf α) : (part p).size = p.size := rfl

def isPart : Node α → Bool
  | leaf _ => false
  | part _ => true

/-- The node as a leaf. A partial leaf is out of place where this is asked for. -/
def asLeaf : Node α → Except Fault (Leaf α)
  | leaf l => .ok l
  | part p => .error (.violation (.strayPart p.size))

def map (f : α → β) : Node α → Node β
  | leaf l => leaf (l.map f)
  | part p => part (p.map f)

@[simp] theorem toList_map (f : α → β) (n : Node α) : (n.map f).toList = n.toList.map f := by
  cases n <;> rfl

@[simp] theorem size_map (f : α → β) (n : Node α) : (n.map f).size = n.size := by
  simp [size]

@[simp] theorem isPart_map (f : α → β) (n : Node α) : (n.map f).isPart = n.isPart := by
  cases n <;> rfl

/-- The same kind of node with its elements in reverse. -/
def reverse : Node α → Node α
  | leaf l => leaf l.reverse
  | part p => part p.reverse

@[simp] theorem toList_reverse (n : Node α) : n.reverse.toList = n.toList.reverse := by
  cases n <;> rfl

@[simp] theorem size_reverse (n : Node α) : n.reverse.size = n.size := by
  simp [size]

@[simp] theorem isPart_reverse (n : Node α) : n.reverse.isPart = n.isPart := by
  cases n <;> rfl

theorem isPart_iff (n : Node α) : n.isPart = true ↔ n.size < minLeaf := by
  cases n with
  | leaf l =>
    have := l.minLeaf_le_size
    simp only [isPart, size_leaf, Bool.false_eq_true, false_iff]
    omega
  | part p => simpa [isPart] using p.size_lt_minLeaf

theorem size_le_maxLeaf (n : Node α) : n.size ≤ maxLeaf := by
  cases n with
  | leaf l => exact l.size_le_maxLeaf
  | part p =>
    have := p.size_lt_minLeaf
    have := minLeaf_eq
    have := maxLeaf_eq
    rw [size_part]
    omega

/-- Nodes with the same elements are of the same kind. -/
@[ext] theorem ext {m n : Node α} (h : m.toList = n.toList) : m = n := by
  have hs : m.size = n.size := congrArg List.length h
  cases m with
  | leaf l =>
    cases n with
    | leaf k => rw [Leaf.ext h]
    | part p =>
      have := l.minLeaf_le_size
      have := p.size_lt_minLeaf
      rw [size_leaf, size_part] at hs
      omega
  | part p =>
    cases n with
    | leaf k =>
      have := k.minLeaf_le_size
      have := p.size_lt_minLeaf
      rw [size_leaf, size_part] at hs
      omega
    | part q => rw [PartialLeaf.ext h]

/-- The node that holds a run, of the kind that fits its length. -/
def ofRun (run : List α) (h : run.length ≤ maxLeaf) : Node α :=
  if short : run.length < minLeaf then part ⟨run, short⟩
  else leaf ⟨run, Nat.le_of_not_lt short, h⟩

@[simp] theorem toList_ofRun (run : List α) (h : run.length ≤ maxLeaf) :
    (ofRun run h).toList = run := by
  unfold ofRun
  split <;> rfl

/-- The nodes that take the place of a joined run: one, or two halves of a run that is too long
for a leaf. -/
def pack (run : List α) (h : run.length ≤ bufferCapacity) : List (Node α) :=
  if fits : run.length ≤ maxLeaf then [ofRun run fits]
  else
    have := minLeaf_eq
    have := maxLeaf_eq
    have := bufferCapacity_eq
    let halves := Leaf.cut run (run.length / 2) (by omega) (by omega) (by omega) (by omega)
    [leaf halves.1, leaf halves.2]

/-- Builds a node from elements that come from outside. What is too long for a partial leaf is
meant as a leaf. -/
def ofList (run : List α) : Except ArityError (Node α) :=
  if run.length < minLeaf then part <$> PartialLeaf.ofList run else leaf <$> Leaf.ofList run

instance [BEq α] : BEq (Node α) where
  beq
    | leaf a, leaf b => a == b
    | part a, part b => a == b
    | _, _ => false

end Node

/-- The elements in `[offset, offset + size)`, as a node of the kind that fits their number. -/
def Leaf.slice (l : Leaf α) (offset size : Nat) : Except Fault (Node α) :=
  if h : offset + size ≤ l.size then
    .ok (Node.ofRun ((l.toList.drop offset).take size) (by
      have := l.size_le_maxLeaf
      have := l.length_toList
      rw [List.length_take, List.length_drop]
      omega))
  else .error .outOfRange

end LeafFringe
