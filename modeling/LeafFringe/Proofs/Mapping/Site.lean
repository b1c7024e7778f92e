import LeafFringe.Node
import LeafFringe.Site.Insertion
import LeafFringe.Site.Removal
import Mathlib.Data.List.InsertIdx

/-!
# Edits of a leaf do not look at its elements

A function of the elements may be applied before an edit of a leaf or after it: every function
that takes part in an insertion or a removal commutes with `map`, in each of its branches. The
bounds of a run are stated of the mapped run, so that its length settles them for both.
-/

namespace LeafFringe

variable {α β : Type} (f : α → β)

theorem Leaf.cut_map {run : List α} {front : Nat} (h₁ : minLeaf ≤ front)
    (h₂ : front ≤ maxLeaf) (h₃ : minLeaf + front ≤ (run.map f).length)
    (h₄ : (run.map f).length ≤ maxLeaf + front) :
    Leaf.cut (run.map f) front h₁ h₂ h₃ h₄ =
      Prod.map (Leaf.map f) (Leaf.map f)
        (Leaf.cut run front h₁ h₂ (by rwa [List.length_map] at h₃)
          (by rwa [List.length_map] at h₄)) :=
  Prod.ext (Leaf.ext List.map_take.symm) (Leaf.ext List.map_drop.symm)

theorem Insertion.label_map (how : Insertion α) : (how.map f).label = how.label := by
  cases how <;> rfl

theorem Removal.label_map (how : Removal α) : (how.map f).label = how.label := by
  cases how <;> rfl

theorem Insertion.rebuild_map (left right : Option (Node α)) (how : Insertion α) :
    (how.map f).rebuild (left.map (Node.map f)) (right.map (Node.map f)) =
      (how.rebuild left right).map (Node.map f) := by
  cases how <;> simp [Insertion.map, Insertion.rebuild, Node.map, Option.toList_map]

theorem Removal.rebuild_map (left right : Option (Node α)) (how : Removal α) :
    (how.map f).rebuild (left.map (Node.map f)) (right.map (Node.map f)) =
      (how.rebuild left right).map (Node.map f) := by
  cases how <;> simp [Removal.map, Removal.rebuild, Node.map, Option.toList_map]

namespace Site

section Insertion

variable {run : List α} (h : (run.map f).length = maxLeaf + 1)

theorem shiftLeft?_map (left : Option (Leaf α)) :
    shiftLeft? (left.map (Leaf.map f)) (run.map f) h =
      (shiftLeft? left run (by rwa [List.length_map] at h)).map (Insertion.map f <$> ·) := by
  cases left with
  | none => rfl
  | some l =>
    by_cases room : l.size < maxLeaf
    · simp [shiftLeft?, room, ← List.map_append, Leaf.cut_map, Logged.map_mk, Insertion.map]
    · simp [shiftLeft?, room]

theorem shiftRight?_map (right : Option (Leaf α)) :
    shiftRight? (right.map (Leaf.map f)) (run.map f) h =
      (shiftRight? right run (by rwa [List.length_map] at h)).map (Insertion.map f <$> ·) := by
  cases right with
  | none => rfl
  | some r =>
    by_cases room : r.size < maxLeaf
    · simp [shiftRight?, room, ← List.map_append, Leaf.cut_map, Logged.map_mk, Insertion.map]
    · simp [shiftRight?, room]

theorem split_map :
    split (run.map f) h =
      Insertion.map f <$> split run (by rwa [List.length_map] at h) := by
  simp [split, Leaf.cut_map, Logged.map_mk, Insertion.map]

end Insertion

theorem settle_map (s : Site α) {run : List α}
    (h : (run.map f).length = (s.map f).node.size + 1) :
    (s.map f).settle (run.map f) h =
      Insertion.map f <$> s.settle run (by simpa using h) := by
  by_cases room : s.node.size < maxLeaf
  · simp [settle, room, Logged.map_mk, Insertion.map, Leaf.ext_iff]
  · simp [settle, room, shiftLeft?_map, shiftRight?_map, split_map]

theorem insert_map (s : Site α) (pos : Nat) (val : α) :
    (s.map f).insert pos (f val) = Insertion.map f <$> s.insert pos val := by
  by_cases h : pos ≤ s.node.size
  · simp [insert, h, ← List.map_insertIdx, settle_map]
  · simp [insert, h]

section Removal

variable {rest : List α} (h : (rest.map f).length + 1 = minLeaf)

theorem borrowLeft?_map (left : Option (Leaf α)) :
    borrowLeft? (left.map (Leaf.map f)) (rest.map f) h =
      (borrowLeft? left rest (by rwa [List.length_map] at h)).map (Removal.map f <$> ·) := by
  cases left with
  | none => rfl
  | some l =>
    by_cases spare : minLeaf < l.size
    · simp [borrowLeft?, spare, ← List.map_append, Leaf.cut_map, Logged.map_mk, Removal.map]
    · simp [borrowLeft?, spare]

theorem borrowRight?_map (right : Option (Leaf α)) :
    borrowRight? (right.map (Leaf.map f)) (rest.map f) h =
      (borrowRight? right rest (by rwa [List.length_map] at h)).map (Removal.map f <$> ·) := by
  cases right with
  | none => rfl
  | some r =>
    by_cases spare : minLeaf < r.size
    · simp [borrowRight?, spare, ← List.map_append, Leaf.cut_map, Logged.map_mk, Removal.map]
    · simp [borrowRight?, spare]

end Removal

theorem mergeLeft?_map (left : Option (Leaf α)) (rest : List α) :
    mergeLeft? (left.map (Leaf.map f)) (rest.map f) =
      (mergeLeft? left rest).map (Removal.map f <$> ·) := by
  cases left with
  | none => rfl
  | some l =>
    by_cases fits : l.size + rest.length ≤ maxLeaf
    · simp [mergeLeft?, fits, Logged.map_mk, Removal.map, Leaf.ext_iff]
    · simp [mergeLeft?, fits]

theorem mergeRight?_map (right : Option (Leaf α)) (rest : List α) :
    mergeRight? (right.map (Leaf.map f)) (rest.map f) =
      (mergeRight? right rest).map (Removal.map f <$> ·) := by
  cases right with
  | none => rfl
  | some r =>
    by_cases fits : rest.length + r.size ≤ maxLeaf
    · simp [mergeRight?, fits, Logged.map_mk, Removal.map, Leaf.ext_iff]
    · simp [mergeRight?, fits]

theorem makeGood_map (s : Site α) {rest : List α}
    (h : (rest.map f).length + 1 = (s.map f).node.size) :
    (s.map f).makeGood (rest.map f) h =
      Removal.map f <$> s.makeGood rest (by simpa using h) := by
  by_cases spare : minLeaf < s.node.size
  · simp [makeGood, spare, Logged.map_mk, Removal.map, Leaf.ext_iff]
  · -- the last resort is built in place, and is no call that has a lemma of its own
    have hunderflow (short : (rest.map f).length < minLeaf) :
        (⟨.underflow ⟨rest.map f, short⟩, [.underflow]⟩ : Logged (Removal β)) =
          Removal.map f <$>
            ⟨.underflow ⟨rest, by rwa [List.length_map] at short⟩, [.underflow]⟩ := by
      simp [Logged.map_mk, Removal.map, PartialLeaf.ext_iff]
    simp [makeGood, spare, borrowLeft?_map, borrowRight?_map,
      mergeLeft?_map, mergeRight?_map, hunderflow]

theorem filter_size_map (side : Option (Leaf α)) :
    (side.map (Leaf.map f)).filter (fun l => minLeaf < l.size) =
      (side.filter fun l => minLeaf < l.size).map (Leaf.map f) := by
  cases side with
  | none => rfl
  | some l => by_cases spare : minLeaf < l.size <;> simp [Option.filter_some, spare]

theorem forewarning_map (s : Site α) : (s.map f).forewarning = s.forewarning := by
  simp only [forewarning, left_map, node_map, right_map, filter_size_map, Leaf.size_map]
  cases s.left.filter fun l => minLeaf < l.size with
  | some l => simp
  | none =>
    cases s.right.filter fun r => minLeaf < r.size with
    | some r => simp
    | none => cases s.left <;> cases s.right <;> rfl

/-- A removal that is refused has reported as much. -/
theorem remove_map (s : Site α) (pos : Nat) :
    (s.map f).remove pos = Removal.map f <$> s.remove pos := by
  by_cases h : pos < s.node.size
  · simp [remove, h, List.eraseIdx_map, makeGood_map]
  · simp [remove, h, forewarning_map]

end Site

end LeafFringe
