import LeafFringe.Outcome
import LeafFringe.Site.Basic

/-!
# Inserting one element into a leaf

A leaf with room grows. A full one hands elements to a sibling with room, the left one first,
and is split in two if there is no such sibling. Every redistribution cuts the joined run of
the two leaves so that half of the sibling's spare room is used, rounded up.
-/

namespace LeafFringe

variable {α β : Type}

/-- How an insertion changed a leaf and its siblings. -/
inductive Insertion (α : Type) where
  /-- The leaf had room and is longer by one. -/
  | replaced (node : Leaf α)
  | shiftedLeft (left node : Leaf α)
  | shiftedRight (node right : Leaf α)
  /-- No leaf had room, and one more is needed. -/
  | split (left right : Leaf α)
deriving DecidableEq, Repr

namespace Insertion

def isSplit : Insertion α → Bool
  | split _ _ => true
  | _ => false

def map (f : α → β) : Insertion α → Insertion β
  | replaced n => replaced (n.map f)
  | shiftedLeft l n => shiftedLeft (l.map f) (n.map f)
  | shiftedRight n r => shiftedRight (n.map f) (r.map f)
  | split l r => split (l.map f) (r.map f)

def label : Insertion α → String
  | replaced _ => "Replaced"
  | shiftedLeft _ _ => "ShiftedLeft"
  | shiftedRight _ _ => "ShiftedRight"
  | split _ _ => "Split"

variable {κ : Type} [Carrier κ α]

/-- What replaces the leaf and the siblings that were named: new leaves are built, and a sibling
that the insertion did not touch is handed back. -/
def rebuild (left right : Option κ) : Insertion α → List κ
  | replaced n => left.toList ++ Carrier.built (.leaf n) :: right.toList
  | shiftedLeft l n =>
    Carrier.built (.leaf l) :: Carrier.built (.leaf n) :: right.toList
  | shiftedRight n r => left.toList ++ [Carrier.built (.leaf n), Carrier.built (.leaf r)]
  | split l r =>
    left.toList ++ Carrier.built (.leaf l) :: Carrier.built (.leaf r) :: right.toList

end Insertion

namespace Site

/-- Pushes the front of an overfull run into the left sibling, if that has room. -/
def shiftLeft? (left : Option (Leaf α)) (run : List α) (h : run.length = maxLeaf + 1) :
    Option (Logged (Insertion α)) :=
  left.bind fun l =>
    if room : l.size < maxLeaf then
      have := l.length_toList
      have := l.minLeaf_le_size
      have := minLeaf_eq
      have := maxLeaf_eq
      let moved := (maxLeaf - l.size + 1) / 2
      let parts := Leaf.cut (l.toList ++ run) (l.size + moved)
        (by omega) (by omega) (by rw [List.length_append]; omega)
        (by rw [List.length_append]; omega)
      some ⟨.shiftedLeft parts.1 parts.2, [.shiftedLeft moved]⟩
    else none

/-- Pushes the back of an overfull run into the right sibling, if that has room. -/
def shiftRight? (right : Option (Leaf α)) (run : List α) (h : run.length = maxLeaf + 1) :
    Option (Logged (Insertion α)) :=
  right.bind fun r =>
    if room : r.size < maxLeaf then
      have := r.length_toList
      have := r.minLeaf_le_size
      have := minLeaf_eq
      have := maxLeaf_eq
      let moved := (maxLeaf - r.size + 1) / 2
      let parts := Leaf.cut (run ++ r.toList) (run.length - moved)
        (by omega) (by omega) (by rw [List.length_append]; omega)
        (by rw [List.length_append]; omega)
      some ⟨.shiftedRight parts.1 parts.2, [.shiftedRight moved]⟩
    else none

/-- Splits an overfull run in two. -/
def split (run : List α) (h : run.length = maxLeaf + 1) : Logged (Insertion α) :=
  have := minLeaf_eq
  have := maxLeaf_eq
  let front := run.length / 2
  let parts := Leaf.cut run front (by omega) (by omega) (by omega) (by omega)
  ⟨.split parts.1 parts.2, [.split front]⟩

/-- Finds a place for the run of the leaf after it has grown by one element. -/
def settle (s : Site α) (run : List α) (h : run.length = s.node.size + 1) :
    Logged (Insertion α) :=
  if room : s.node.size < maxLeaf then
    have := s.node.minLeaf_le_size
    ⟨.replaced ⟨run, by omega, by omega⟩, []⟩
  else
    have full : run.length = maxLeaf + 1 := by
      have := s.node.size_le_maxLeaf
      omega
    (shiftLeft? s.left run full <|> shiftRight? s.right run full).getD (split run full)

/-- Inserts `val` before the element at `pos`, or at the end if `pos` is the size of the leaf. The
run is put together before anything is reported, so that a refused insertion reports nothing. -/
def insert (s : Site α) (pos : Nat) (val : α) : Outcome (Insertion α) :=
  if h : pos ≤ s.node.size then
    .ok (s.settle (s.node.toList.insertIdx pos val) (List.length_insertIdx_of_le_length h val))
  else .error (pure .outOfRange)

end Site

end LeafFringe
