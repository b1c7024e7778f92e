import LeafFringe.Fringe.Locate
import LeafFringe.Site.Insertion
import LeafFringe.Site.Removal

/-!
# Editing a sequence that is kept as a fringe

An `Edit` is an edit of a sequence. `Edit.onList` says what it does to a plain list, and
`Edit.apply` carries it out on a fringe: by one leaf and its neighbours where that is enough,
by slicing and appending where it is not, and from scratch where there is no leaf to edit.
Positions are reduced to the range that the edit admits.
-/

namespace LeafFringe

variable {α : Type}

/-- An edit of a sequence. -/
inductive Edit (α : Type) where
  | insert (pos : Nat) (val : α) (bias : Bias)
  | remove (pos : Nat)
  | set (pos : Nat) (val : α)
  /-- Keeps at most `size` elements from `pos` on. -/
  | slice (pos size : Nat)
  | reverse
  | append (elems : List α)
  | prepend (elems : List α)
deriving DecidableEq, Repr

/-- The edit of a plain list. -/
def Edit.onList : Edit α → List α → List α
  | insert pos val _, l => l.insertIdx (pos % (l.length + 1)) val
  | remove pos, l => l.eraseIdx (pos % l.length)
  | set pos val, l => l.set (pos % l.length) val
  | slice pos size, l => (l.drop (pos % l.length)).take size
  | reverse, l => l.reverse
  | append elems, l => l ++ elems
  | prepend elems, l => elems ++ l

/-- What became of the leaf that an edit went to. -/
inductive Change (α : Type) where
  | inserted (how : Insertion α)
  | removed (how : Removal α)

def Change.label : Change α → String
  | inserted how => how.label
  | removed how => how.label

/-- The nodes after an edit, and what happened to the leaf it went to if there was one. -/
structure Edited (α : Type) where
  nodes : List (Node α)
  change : Option (Change α) := none

namespace Fringe

/-- Nothing, or a partial leaf alone: there is no leaf to edit. -/
def isTiny : List (Node α) → Bool
  | [] => true
  | [.part _] => true
  | _ => false

def insert (nodes : List (Node α)) (pos : Nat) (val : α) (bias : Bias) :
    Outcome (Edited α) := do
  let some f := locate (.gap bias) nodes pos | .error (pure .outOfRange)
  let site ← f.site
  let how ← site.insert f.offset val
  return ⟨f.splice (how.rebuild f.left? f.right?), some (.inserted how)⟩

def remove (nodes : List (Node α)) (pos : Nat) : Outcome (Edited α) := do
  let some f := locate .element nodes pos | .error (pure .outOfRange)
  let site ← f.site
  let how ← site.remove f.offset
  return ⟨f.splice (how.rebuild f.left? f.right?), some (.removed how)⟩

def set (nodes : List (Node α)) (pos : Nat) (val : α) : Except Fault (List (Node α)) := do
  let some f := locate .element nodes pos | throw .outOfRange
  let leaf ← f.node.asLeaf
  let leaf ← leaf.set f.offset val
  return f.before ++ .leaf leaf :: f.after

/-- The slices of all nodes that have elements in `[start, stop)`. -/
def pieces : List (Node α) → (start stop : Nat) → Except Fault (List (Node α))
  | [], _, _ => return []
  | n :: rest, start, stop => do
    let more := pieces rest (start - n.size) (stop - n.size)
    if start < min stop n.size then
      let leaf ← n.asLeaf
      let piece ← leaf.slice start (min stop n.size - start)
      return piece :: (← more)
    else more

/-- The elements in `[start, stop)`, stitched together from the slices of the nodes. -/
def slice (nodes : List (Node α)) (start stop : Nat) : Outcome (List (Node α)) := do
  let pieces ← pieces nodes start stop
  concat [] pieces

def reverse (nodes : List (Node α)) : List (Node α) := nodes.reverse.map Node.reverse

end Fringe

/-- Carries out an edit on a fringe. -/
def Edit.apply (e : Edit α) (nodes : List (Node α)) : Outcome (Edited α) :=
  let len := totalSize nodes
  let afresh : Logged (Edited α) :=
    (fun nodes => { nodes }) <$> ofElems (e.onList (flatten nodes))
  match e with
  | insert pos val bias =>
    if Fringe.isTiny nodes then .ok afresh
    else Fringe.insert nodes (pos % (len + 1)) val bias
  | remove pos =>
    if Fringe.isTiny nodes then .ok afresh else Fringe.remove nodes (pos % len)
  | set pos val =>
    if Fringe.isTiny nodes then .ok afresh
    else do return { nodes := ← Fringe.set nodes (pos % len) val }
  | slice pos size =>
    if Fringe.isTiny nodes then .ok afresh
    else do
      let start := pos % len
      return { nodes := ← Fringe.slice nodes start (start + min size (len - start)) }
  | reverse => .ok (pure { nodes := Fringe.reverse nodes })
  | append elems =>
    .ok ((fun nodes => { nodes }) <$> (ofElems elems >>= fun tail => concat nodes tail))
  | prepend elems =>
    .ok ((fun nodes => { nodes }) <$> (ofElems elems >>= fun head => concat head nodes))

end LeafFringe
