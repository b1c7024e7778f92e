import LeafFringe.Outcome
import LeafFringe.Site.Basic

/-!
# Removing one element from a leaf

A leaf with elements to spare shrinks. A leaf of the least size first takes elements from a
sibling that can spare some, then merges with a sibling; the left one comes first each time.
A leaf without siblings is left too short and becomes a partial leaf. What is done is chosen,
and reported, by the sizes alone; only then is the position looked at.
-/

namespace LeafFringe

variable {α β : Type}

/-- How a removal changed a leaf and its siblings. -/
inductive Removal (α : Type) where
  /-- The leaf had elements to spare and is shorter by one. -/
  | shrunk (node : Leaf α)
  | borrowedLeft (left node : Leaf α)
  | borrowedRight (node right : Leaf α)
  /-- The leaf and its left sibling are one leaf now. -/
  | mergedLeft (node : Leaf α)
  | mergedRight (node : Leaf α)
  /-- There was no sibling to turn to. -/
  | underflow (rest : PartialLeaf α)
deriving DecidableEq, Repr

namespace Removal

def isMerge : Removal α → Bool
  | mergedLeft _ | mergedRight _ => true
  | _ => false

def map (f : α → β) : Removal α → Removal β
  | shrunk n => shrunk (n.map f)
  | borrowedLeft l n => borrowedLeft (l.map f) (n.map f)
  | borrowedRight n r => borrowedRight (n.map f) (r.map f)
  | mergedLeft n => mergedLeft (n.map f)
  | mergedRight n => mergedRight (n.map f)
  | underflow p => underflow (p.map f)

def label : Removal α → String
  | shrunk _ => "Shrunk"
  | borrowedLeft _ _ => "BorrowedLeft"
  | borrowedRight _ _ => "BorrowedRight"
  | mergedLeft _ => "MergedLeft"
  | mergedRight _ => "MergedRight"
  | underflow _ => "Underflow"

variable {κ : Type} [Carrier κ α]

/-- What replaces the leaf and the siblings that were named: new nodes are built, and a sibling
that the removal did not touch is handed back. -/
def rebuild (left right : Option κ) : Removal α → List κ
  | shrunk n => left.toList ++ Carrier.built (.leaf n) :: right.toList
  | borrowedLeft l n =>
    Carrier.built (.leaf l) :: Carrier.built (.leaf n) :: right.toList
  | borrowedRight n r => left.toList ++ [Carrier.built (.leaf n), Carrier.built (.leaf r)]
  | mergedLeft n => Carrier.built (.leaf n) :: right.toList
  | mergedRight n => left.toList ++ [Carrier.built (.leaf n)]
  | underflow p => [Carrier.built (.part p)]

end Removal

namespace Site

/-- Takes elements from the end of the left sibling, if it has some to spare. -/
def borrowLeft? (left : Option (Leaf α)) (rest : List α) (h : rest.length + 1 = minLeaf) :
    Option (Logged (Removal α)) :=
  left.bind fun l =>
    if spare : minLeaf < l.size then
      have := l.length_toList
      have := l.size_le_maxLeaf
      have := minLeaf_eq
      have := maxLeaf_eq
      let moved := (l.size - minLeaf + 1) / 2
      let parts := Leaf.cut (l.toList ++ rest) (l.size - moved)
        (by omega) (by omega) (by rw [List.length_append]; omega)
        (by rw [List.length_append]; omega)
      some ⟨.borrowedLeft parts.1 parts.2, [.borrowedLeft moved]⟩
    else none

/-- Takes elements from the front of the right sibling, if it has some to spare. -/
def borrowRight? (right : Option (Leaf α)) (rest : List α) (h : rest.length + 1 = minLeaf) :
    Option (Logged (Removal α)) :=
  right.bind fun r =>
    if spare : minLeaf < r.size then
      have := r.length_toList
      have := r.size_le_maxLeaf
      have := minLeaf_eq
      have := maxLeaf_eq
      let moved := (r.size - minLeaf + 1) / 2
      let parts := Leaf.cut (rest ++ r.toList) (rest.length + moved)
        (by omega) (by omega) (by rw [List.length_append]; omega)
        (by rw [List.length_append]; omega)
      some ⟨.borrowedRight parts.1 parts.2, [.borrowedRight moved]⟩
    else none

/-- Joins what is left to a left sibling that has nothing to spare. -/
def mergeLeft? (left : Option (Leaf α)) (rest : List α) : Option (Logged (Removal α)) :=
  left.bind fun l =>
    if fits : l.size + rest.length ≤ maxLeaf then
      have := l.length_toList
      have := l.minLeaf_le_size
      some ⟨.mergedLeft ⟨l.toList ++ rest, by rw [List.length_append]; omega,
        by rw [List.length_append]; omega⟩, [.mergedLeft]⟩
    else none

/-- Joins what is left to a right sibling that has nothing to spare. -/
def mergeRight? (right : Option (Leaf α)) (rest : List α) : Option (Logged (Removal α)) :=
  right.bind fun r =>
    if fits : rest.length + r.size ≤ maxLeaf then
      have := r.length_toList
      have := r.minLeaf_le_size
      some ⟨.mergedRight ⟨rest ++ r.toList, by rw [List.length_append]; omega,
        by rw [List.length_append]; omega⟩, [.mergedRight]⟩
    else none

/-- Makes up for the element that the leaf has lost. -/
def makeGood (s : Site α) (rest : List α) (h : rest.length + 1 = s.node.size) :
    Logged (Removal α) :=
  if spare : minLeaf < s.node.size then
    have := s.node.size_le_maxLeaf
    ⟨.shrunk ⟨rest, by omega, by omega⟩, []⟩
  else
    have least : rest.length + 1 = minLeaf := by
      have := s.node.minLeaf_le_size
      omega
    (borrowLeft? s.left rest least <|> borrowRight? s.right rest least <|>
      mergeLeft? s.left rest <|> mergeRight? s.right rest).getD
        ⟨.underflow ⟨rest, by omega⟩, [.underflow]⟩

/-- What a removal reports before it looks for the element. -/
def forewarning (s : Site α) : List Event :=
  if minLeaf < s.node.size then []
  else
    match s.left.filter fun l => minLeaf < l.size with
    | some l => [.borrowedLeft ((l.size - minLeaf + 1) / 2)]
    | none =>
      match s.right.filter fun r => minLeaf < r.size with
      | some r => [.borrowedRight ((r.size - minLeaf + 1) / 2)]
      | none =>
        match s.left, s.right with
        | some _, _ => [.mergedLeft]
        | none, some _ => [.mergedRight]
        | none, none => [.underflow]

/-- Removes the element at `pos`. A refused removal has reported what it was about to do. -/
def remove (s : Site α) (pos : Nat) : Outcome (Removal α) :=
  if h : pos < s.node.size then
    .ok (s.makeGood (s.node.toList.eraseIdx pos) (by
      have := s.node.length_toList
      rw [List.length_eraseIdx_of_lt (by omega)]
      omega))
  else .error ⟨.outOfRange, s.forewarning⟩

end Site

end LeafFringe
