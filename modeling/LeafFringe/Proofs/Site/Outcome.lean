import LeafFringe.Proofs.Site.Insertion
import LeafFringe.Proofs.Site.Removal
import Mathlib.Data.List.Basic

/-!
# What an edit of a leaf comes to

The sizes of a leaf and of the siblings that were named decide the branch of an edit, and no
branch loses an element, changes the order or leaves the bounds. A new leaf is made when there
is no room anywhere, a leaf is given up when there is nothing to spare, and a leaf becomes a
partial leaf when it stands alone.
-/

namespace LeafFringe

variable {α : Type}

namespace Site

theorem no_room_of_full {side : Option (Leaf α)} (full : ∀ l ∈ side, l.size = maxLeaf) :
    (side.any fun l => l.size < maxLeaf) = false := by
  rw [Option.any_eq_false]
  intro l hl
  simp [full l hl]

theorem nothing_to_spare_of_least {side : Option (Leaf α)}
    (least : ∀ l ∈ side, l.size = minLeaf) :
    (side.any fun l => minLeaf < l.size) = false := by
  rw [Option.any_eq_false]
  intro l hl
  simp [least l hl]

theorem mem_leaves (s : Site α) (l : Leaf α) :
    l ∈ s.leaves ↔ l ∈ s.left ∨ l = s.node ∨ l ∈ s.right := by
  simp [leaves]

/-- The siblings and the leaf between them, counted as the nodes they are. -/
theorem length_leaves (s : Site α) :
    s.leaves.length =
      (s.left.map Node.leaf).toList.length + ((s.right.map Node.leaf).toList.length + 1) := by
  simp [leaves, Option.toList_map]

end Site

/-- What an insertion has come to when the run of the leaf has become `run` and `rebuilt` is to
take the place of the leaf and its siblings. -/
structure Insertion.Outcome (s : Site α) (run : List α) (how : Insertion α)
    (rebuilt : List (Node α)) : Prop where
  elements : flatten rebuilt =
    flatten (s.left.map Node.leaf).toList ++ run ++ flatten (s.right.map Node.leaf).toList
  bounds : ∀ n ∈ rebuilt, n.isPart = false ∧ minLeaf ≤ n.size ∧ n.size ≤ maxLeaf
  count : rebuilt.length = s.leaves.length + how.isSplit.toNat
  branch : how.label =
    if s.node.size < maxLeaf then "Replaced"
    else if s.left.any fun l => l.size < maxLeaf then "ShiftedLeft"
    else if s.right.any fun r => r.size < maxLeaf then "ShiftedRight"
    else "Split"
  /-- One more leaf is needed only where all of them are full. -/
  full : how.isSplit = true ↔ ∀ l ∈ s.leaves, l.size = maxLeaf

/-- What a removal has come to when `rest` is left of the run of the leaf and `rebuilt` is to
take the place of the leaf and its siblings. -/
structure Removal.Outcome (s : Site α) (rest : List α) (how : Removal α)
    (rebuilt : List (Node α)) : Prop where
  elements : flatten rebuilt =
    flatten (s.left.map Node.leaf).toList ++ rest ++ flatten (s.right.map Node.leaf).toList
  accepted : check rebuilt = .ok (totalSize rebuilt)
  count : rebuilt.length + how.isMerge.toNat = s.leaves.length
  part : (∃ n ∈ rebuilt, n.isPart = true) ↔ ∃ p, how = .underflow p
  /-- Only a leaf of the least size without siblings becomes a partial leaf. -/
  lone : (∃ p, how = .underflow p) ↔ s.node.size = minLeaf ∧ s.left = none ∧ s.right = none
  alone : ∀ p, how = .underflow p → rebuilt = [.part p] ∧ p.size = minLeaf - 1
  branch : how.label =
    if minLeaf < s.node.size then "Shrunk"
    else if s.left.any fun l => minLeaf < l.size then "BorrowedLeft"
    else if s.right.any fun r => minLeaf < r.size then "BorrowedRight"
    else if s.left.isSome then "MergedLeft"
    else if s.right.isSome then "MergedRight"
    else "Underflow"
  merged : ∀ n, how = .mergedLeft n ∨ how = .mergedRight n → n.size = maxLeaf

namespace Site

namespace Settles

variable {s : Site α} {run : List α} {done : Logged (Insertion α)}

theorem length_rebuild (h : Settles s run done) :
    (done.value.rebuild (s.left.map Node.leaf) (s.right.map Node.leaf)).length =
      s.leaves.length + done.value.isSplit.toNat := by
  rw [length_leaves]
  cases h with
  | replaced n room hn => simp [Insertion.rebuild, Insertion.isSplit]
  | shiftedLeft l a b full hl room ha hb =>
    simp +arith [Insertion.rebuild, Insertion.isSplit, hl]
  | shiftedRight r a b full noLeft hr room ha hb =>
    simp [Insertion.rebuild, Insertion.isSplit, hr]
  | split a b full noLeft noRight ha hb =>
    simp +arith [Insertion.rebuild, Insertion.isSplit]

theorem label_eq (h : Settles s run done) :
    done.value.label =
      if s.node.size < maxLeaf then "Replaced"
      else if s.left.any fun l => l.size < maxLeaf then "ShiftedLeft"
      else if s.right.any fun r => r.size < maxLeaf then "ShiftedRight"
      else "Split" := by
  cases h with
  | replaced n room hn => rw [if_pos room, Insertion.label]
  | shiftedLeft l a b full hl room ha hb => simp [Insertion.label, full, hl, room]
  | shiftedRight r a b full noLeft hr room ha hb =>
    simp [Insertion.label, full, no_room_of_full noLeft, hr, room]
  | split a b full noLeft noRight ha hb =>
    simp [Insertion.label, full, no_room_of_full noLeft, no_room_of_full noRight]

theorem isSplit_iff (h : Settles s run done) :
    done.value.isSplit = true ↔ ∀ l ∈ s.leaves, l.size = maxLeaf := by
  simp only [mem_leaves]
  cases h with
  | replaced n room hn =>
    have hnode : ¬ s.node.size = maxLeaf := Nat.ne_of_lt room
    simpa [Insertion.isSplit] using ⟨s.node, .inr (.inl rfl), hnode⟩
  | shiftedLeft l a b full hl room ha hb =>
    simpa [Insertion.isSplit] using ⟨l, .inl hl, Nat.ne_of_lt room⟩
  | shiftedRight r a b full noLeft hr room ha hb =>
    simpa [Insertion.isSplit] using ⟨r, .inr (.inr hr), Nat.ne_of_lt room⟩
  | split a b full noLeft noRight ha hb =>
    simp only [Insertion.isSplit, true_iff]
    rintro l (hl | rfl | hr)
    · exact noLeft l hl
    · exact full
    · exact noRight l hr

end Settles

namespace Recovers

variable {s : Site α} {rest : List α} {done : Logged (Removal α)}

theorem length_rebuild (h : Recovers s rest done) :
    (done.value.rebuild (s.left.map Node.leaf) (s.right.map Node.leaf)).length +
      done.value.isMerge.toNat = s.leaves.length := by
  rw [length_leaves]
  cases h with
  | shrunk n spare hn => simp [Removal.rebuild, Removal.isMerge]
  | borrowedLeft l a b least hl spare ha hb =>
    simp +arith [Removal.rebuild, Removal.isMerge, hl]
  | borrowedRight r a b least noLeft hr spare ha hb =>
    simp [Removal.rebuild, Removal.isMerge, hr]
  | mergedLeft l n least hl leftLeast noRight hn =>
    simp +arith [Removal.rebuild, Removal.isMerge, hl]
  | mergedRight r n least hl hr rightLeast hn =>
    simp [Removal.rebuild, Removal.isMerge, hl, hr]
  | underflow p least hl hr hp => simp [Removal.rebuild, Removal.isMerge, hl, hr]

theorem label_eq (h : Recovers s rest done) :
    done.value.label =
      if minLeaf < s.node.size then "Shrunk"
      else if s.left.any fun l => minLeaf < l.size then "BorrowedLeft"
      else if s.right.any fun r => minLeaf < r.size then "BorrowedRight"
      else if s.left.isSome then "MergedLeft"
      else if s.right.isSome then "MergedRight"
      else "Underflow" := by
  cases h with
  | shrunk n spare hn => rw [if_pos spare, Removal.label]
  | borrowedLeft l a b least hl spare ha hb => simp [Removal.label, least, hl, spare]
  | borrowedRight r a b least noLeft hr spare ha hb =>
    simp [Removal.label, least, nothing_to_spare_of_least noLeft, hr, spare]
  | mergedLeft l n least hl leftLeast noRight hn =>
    simp [Removal.label, least, hl, leftLeast, nothing_to_spare_of_least noRight]
  | mergedRight r n least hl hr rightLeast hn =>
    simp [Removal.label, least, hl, hr, rightLeast]
  | underflow p least hl hr hp => simp [Removal.label, least, hl, hr]

theorem isFringe_rebuild (h : Recovers s rest done) :
    IsFringe (done.value.rebuild (s.left.map Node.leaf) (s.right.map Node.leaf)) := by
  rcases h.rebuild_shape with hleaves | ⟨-, -, p, hp⟩
  · exact .leaves hleaves
  · rw [hp]
    exact .tiny p

theorem allLeaves_rebuild_iff (h : Recovers s rest done) :
    AllLeaves (done.value.rebuild (s.left.map Node.leaf) (s.right.map Node.leaf)) ↔
      ∀ p, done.value ≠ .underflow p := by
  cases h with
  | underflow p least hl hr hp => simp [Removal.rebuild, Node.isPart]
  | _ => simp [Removal.rebuild, Node.isPart]

theorem exists_part_iff (h : Recovers s rest done) :
    (∃ n ∈ done.value.rebuild (s.left.map Node.leaf) (s.right.map Node.leaf),
      n.isPart = true) ↔ ∃ p, done.value = .underflow p := by
  rw [← not_iff_not]
  simpa [AllLeaves] using h.allLeaves_rebuild_iff

theorem underflow_iff (h : Recovers s rest done) :
    (∃ p, done.value = .underflow p) ↔
      s.node.size = minLeaf ∧ s.left = none ∧ s.right = none := by
  cases h with
  | shrunk n spare hn => simp [Nat.ne_of_gt spare]
  | borrowedLeft l a b least hl spare ha hb => simp [hl]
  | borrowedRight r a b least noLeft hr spare ha hb => simp [hr]
  | mergedLeft l n least hl leftLeast noRight hn => simp [hl]
  | mergedRight r n least hl hr rightLeast hn => simp [hr]
  | underflow p least hl hr hp => simp [least, hl, hr]

theorem size_underflow (h : Recovers s rest done) (hrest : rest.length + 1 = s.node.size)
    {p : PartialLeaf α} (hdone : done.value = .underflow p) :
    done.value.rebuild (s.left.map Node.leaf) (s.right.map Node.leaf) = [.part p] ∧
      p.size = minLeaf - 1 := by
  cases h with
  | underflow q least hl hr hq =>
    cases hdone
    refine ⟨rfl, ?_⟩
    rw [← p.length_toList, hq]
    omega
  | _ => cases hdone

/-- A merged leaf is full: it holds all that two leaves of the least size had, less one. -/
theorem size_merged (h : Recovers s rest done) (hrest : rest.length + 1 = s.node.size)
    {n : Leaf α} (hdone : done.value = .mergedLeft n ∨ done.value = .mergedRight n) :
    n.size = maxLeaf := by
  have hmin := minLeaf_eq
  have hmax := maxLeaf_eq
  cases h with
  | mergedLeft l m least hl leftLeast noRight hm =>
    obtain rfl : m = n := by simpa using hdone
    rw [← m.length_toList, hm, List.length_append, l.length_toList]
    omega
  | mergedRight r m least hl hr rightLeast hm =>
    obtain rfl : m = n := by simpa using hdone
    rw [← m.length_toList, hm, List.length_append, r.length_toList]
    omega
  | _ => simp at hdone

end Recovers

/-- An insertion puts the element in its place, keeps all leaves within their bounds, and makes
a new leaf only if there is no room in any of the leaves that were named. -/
theorem insertion_outcome (s : Site α) (pos : Nat) (val : α) (h : pos ≤ s.node.size) :
    ∃ done, s.insert pos val = .ok done ∧
      Insertion.Outcome s (s.node.toList.insertIdx pos val) done.value
        (done.value.rebuild (s.left.map Node.leaf) (s.right.map Node.leaf)) := by
  obtain ⟨done, hdone, hsettles⟩ := s.insert_of_le val h
  refine ⟨done, hdone, ?_⟩
  constructor
  case elements => exact hsettles.flatten_rebuild
  case bounds =>
    intro n hn
    have hleaf := hsettles.allLeaves_rebuild n hn
    exact ⟨hleaf, n.isPart_eq_false_iff.mp hleaf, n.size_le_maxLeaf⟩
  case count => exact hsettles.length_rebuild
  case branch => exact hsettles.label_eq
  case full => exact hsettles.isSplit_iff

/-- A full leaf beside a full one hands elements to the other side. -/
theorem insertion_outcome_beside_a_full_leaf :
    let full : Leaf Nat := ⟨List.range 15, by decide, by decide⟩
    let s : Site Nat := ⟨some full, full, some ⟨List.range 12, by decide, by decide⟩⟩
    7 ≤ s.node.size ∧ ∃ done, s.insert 7 99 = .ok done ∧ done.value.label = "ShiftedRight" ∧
      Insertion.Outcome s (s.node.toList.insertIdx 7 99) done.value
        (done.value.rebuild (s.left.map Node.leaf) (s.right.map Node.leaf)) := by
  intro full s
  have h : 7 ≤ s.node.size := by decide
  obtain ⟨done, hdone, houtcome⟩ := s.insertion_outcome 7 99 h
  exact ⟨h, done, hdone, houtcome.branch, houtcome⟩

/-- A removal takes the element out, leaves a fringe, and gives up a leaf only if it merges two
of the least size. -/
theorem removal_outcome (s : Site α) (pos : Nat) (h : pos < s.node.size) :
    ∃ done, s.remove pos = .ok done ∧
      Removal.Outcome s (s.node.toList.eraseIdx pos) done.value
        (done.value.rebuild (s.left.map Node.leaf) (s.right.map Node.leaf)) := by
  obtain ⟨done, hdone, hrecovers⟩ := s.remove_of_lt h
  have hrest : (s.node.toList.eraseIdx pos).length + 1 = s.node.size :=
    List.length_eraseIdx_add_one h
  refine ⟨done, hdone, ?_⟩
  constructor
  case elements => exact hrecovers.flatten_rebuild
  case accepted => exact hrecovers.isFringe_rebuild.check_eq
  case count => exact hrecovers.length_rebuild
  case part => exact hrecovers.exists_part_iff
  case lone => exact hrecovers.underflow_iff
  case alone => exact fun p hp => hrecovers.size_underflow hrest hp
  case branch => exact hrecovers.label_eq
  case merged => exact fun n hn => hrecovers.size_merged hrest hn

/-- Of three leaves of the least size the first two become one. -/
theorem removal_outcome_among_least_leaves :
    let least : Leaf Nat := ⟨List.range 8, by decide, by decide⟩
    let s : Site Nat := ⟨some least, least, some least⟩
    7 < s.node.size ∧ ∃ done, s.remove 7 = .ok done ∧ done.value.label = "MergedLeft" ∧
      Removal.Outcome s (s.node.toList.eraseIdx 7) done.value
        (done.value.rebuild (s.left.map Node.leaf) (s.right.map Node.leaf)) := by
  intro least s
  have h : 7 < s.node.size := by decide
  obtain ⟨done, hdone, houtcome⟩ := s.removal_outcome 7 h
  exact ⟨h, done, hdone, houtcome.branch, houtcome⟩

end Site

end LeafFringe
