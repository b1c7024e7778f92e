import LeafFringe.Fault

/-!
# Leaves and partial leaves

A leaf is an immutable run of `minLeaf` to `maxLeaf` elements, a partial leaf a shorter run.
The bounds are part of the types: an operation that returns a leaf has shown that its run
fits. Both are seen through `toList`.
-/

namespace LeafFringe

variable {α β : Type}

/-- A run of `minLeaf` to `maxLeaf` elements. -/
@[ext] structure Leaf (α : Type) where
  toList : List α
  minLeaf_le : minLeaf ≤ toList.length
  le_maxLeaf : toList.length ≤ maxLeaf
deriving DecidableEq, Repr

/-- A run of fewer than `minLeaf` elements. -/
@[ext] structure PartialLeaf (α : Type) where
  toList : List α
  lt_minLeaf : toList.length < minLeaf
deriving DecidableEq, Repr

namespace Leaf

def size (l : Leaf α) : Nat := l.toList.length

theorem length_toList (l : Leaf α) : l.toList.length = l.size := rfl

theorem minLeaf_le_size (l : Leaf α) : minLeaf ≤ l.size := l.minLeaf_le

theorem size_le_maxLeaf (l : Leaf α) : l.size ≤ maxLeaf := l.le_maxLeaf

/-- Builds a leaf from elements that come from outside. -/
def ofList (run : List α) : Except ArityError (Leaf α) :=
  if h : minLeaf ≤ run.length ∧ run.length ≤ maxLeaf then .ok ⟨run, h.1, h.2⟩
  else .error (.leaf run.length)

/-- Wraps a buffer whose length its caller vouches for. -/
def ofBuffer (run : List α) : Except Fault (Leaf α) :=
  if h : minLeaf ≤ run.length ∧ run.length ≤ maxLeaf then .ok ⟨run, h.1, h.2⟩
  else .error (.violation (.leafSize run.length))

def map (f : α → β) (l : Leaf α) : Leaf β where
  toList := l.toList.map f
  minLeaf_le := by rw [List.length_map]; exact l.minLeaf_le
  le_maxLeaf := by rw [List.length_map]; exact l.le_maxLeaf

@[simp] theorem toList_map (f : α → β) (l : Leaf α) : (l.map f).toList = l.toList.map f := rfl

@[simp] theorem size_map (f : α → β) (l : Leaf α) : (l.map f).size = l.size := by
  simp [size]

/-- The element at `pos`, if there is one. -/
def get? (l : Leaf α) (pos : Nat) : Option α := l.toList[pos]?

/-- The element at `pos`. -/
def get (l : Leaf α) (pos : Nat) : Except Fault α :=
  if h : pos < l.toList.length then .ok l.toList[pos] else .error .outOfRange

/-- Replaces the element at `pos`. -/
def set (l : Leaf α) (pos : Nat) (val : α) : Except Fault (Leaf α) :=
  if pos < l.size then
    .ok ⟨l.toList.set pos val,
      by rw [List.length_set]; exact l.minLeaf_le,
      by rw [List.length_set]; exact l.le_maxLeaf⟩
  else .error .outOfRange

def reverse (l : Leaf α) : Leaf α where
  toList := l.toList.reverse
  minLeaf_le := by rw [List.length_reverse]; exact l.minLeaf_le
  le_maxLeaf := by rw [List.length_reverse]; exact l.le_maxLeaf

@[simp] theorem toList_reverse (l : Leaf α) : l.reverse.toList = l.toList.reverse := rfl

@[simp] theorem size_reverse (l : Leaf α) : l.reverse.size = l.size := by
  simp [size]

/-- Two leaves that share out a run, the first of them with `front` elements. -/
def cut (run : List α) (front : Nat) (h₁ : minLeaf ≤ front) (h₂ : front ≤ maxLeaf)
    (h₃ : minLeaf + front ≤ run.length) (h₄ : run.length ≤ maxLeaf + front) :
    Leaf α × Leaf α :=
  (⟨run.take front, by rw [List.length_take]; omega, by rw [List.length_take]; omega⟩,
    ⟨run.drop front, by rw [List.length_drop]; omega, by rw [List.length_drop]; omega⟩)

instance [BEq α] : BEq (Leaf α) where
  beq a b := a.toList == b.toList

theorem beq_eq [BEq α] (a b : Leaf α) : (a == b) = (a.toList == b.toList) := rfl

end Leaf

namespace PartialLeaf

def size (p : PartialLeaf α) : Nat := p.toList.length

theorem length_toList (p : PartialLeaf α) : p.toList.length = p.size := rfl

theorem size_lt_minLeaf (p : PartialLeaf α) : p.size < minLeaf := p.lt_minLeaf

def isEmpty (p : PartialLeaf α) : Bool := p.toList.isEmpty

/-- Builds a partial leaf from elements that come from outside. -/
def ofList (run : List α) : Except ArityError (PartialLeaf α) :=
  if h : run.length < minLeaf then .ok ⟨run, h⟩ else .error (.part run.length)

/-- Wraps a buffer whose length its caller vouches for. -/
def ofBuffer (run : List α) : Except Fault (PartialLeaf α) :=
  if h : run.length < minLeaf then .ok ⟨run, h⟩
  else .error (.violation (.partSize run.length))

def map (f : α → β) (p : PartialLeaf α) : PartialLeaf β where
  toList := p.toList.map f
  lt_minLeaf := by rw [List.length_map]; exact p.lt_minLeaf

@[simp] theorem toList_map (f : α → β) (p : PartialLeaf α) :
    (p.map f).toList = p.toList.map f := rfl

@[simp] theorem size_map (f : α → β) (p : PartialLeaf α) : (p.map f).size = p.size := by
  simp [size]

def reverse (p : PartialLeaf α) : PartialLeaf α where
  toList := p.toList.reverse
  lt_minLeaf := by rw [List.length_reverse]; exact p.lt_minLeaf

@[simp] theorem toList_reverse (p : PartialLeaf α) : p.reverse.toList = p.toList.reverse := rfl

@[simp] theorem size_reverse (p : PartialLeaf α) : p.reverse.size = p.size := by
  simp [size]

instance [BEq α] : BEq (PartialLeaf α) where
  beq a b := a.toList == b.toList

theorem beq_eq [BEq α] (a b : PartialLeaf α) : (a == b) = (a.toList == b.toList) := rfl

end PartialLeaf

end LeafFringe
