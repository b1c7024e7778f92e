import LeafFringe.Node
import LeafFringe.Proofs.Runs

/-!
# Windows of a leaf

A slice is a window on a leaf: as a node it is known by its elements alone, so that two windows
are compared by comparing lists. A window can be taken of a window, of a leaf that is read from
its other end, and of a leaf with one element replaced; each is a window of the leaf itself, at
an offset that is moved, mirrored or kept.
-/

namespace LeafFringe

variable {α : Type}

namespace Leaf

variable {l m new : Leaf α} {n : Node α} {offset size pos : Nat} {val : α}

theorem slice_eq_ok_iff :
    l.slice offset size = .ok n ↔
      offset + size ≤ l.size ∧ n.toList = (l.toList.drop offset).take size := by
  unfold slice
  split
  · rename_i h
    simp [h, Node.ext_iff, eq_comm]
  · rename_i h
    simp [h]

theorem set_eq_ok_iff :
    l.set pos val = .ok new ↔ pos < l.size ∧ new.toList = l.toList.set pos val := by
  unfold set
  split
  · rename_i h
    simp [h, Leaf.ext_iff, eq_comm]
  · rename_i h
    simp [h]

theorem slice_of_le (l : Leaf α) (h : offset + size ≤ l.size) :
    ∃ n, l.slice offset size = .ok n ∧ n.toList = (l.toList.drop offset).take size :=
  ⟨_, dif_pos h, Node.toList_ofRun _ _⟩

theorem set_of_lt (l : Leaf α) (val : α) (h : pos < l.size) :
    ∃ new, l.set pos val = .ok new ∧ new.toList = l.toList.set pos val :=
  ⟨_, if_pos h, rfl⟩

theorem size_of_set (h : l.set pos val = .ok new) : new.size = l.size := by
  rw [← new.length_toList, (set_eq_ok_iff.mp h).2, List.length_set, l.length_toList]

/-- A slice has as many elements as were asked for. -/
theorem size_of_slice (h : l.slice offset size = .ok n) : n.size = size := by
  obtain ⟨hle, hlist⟩ := slice_eq_ok_iff.mp h
  rw [← n.length_toList, hlist, List.length_take, List.length_drop, l.length_toList]
  omega

theorem isPart_of_slice (h : l.slice offset size = .ok n) :
    n.isPart = true ↔ size < minLeaf := by
  rw [n.isPart_iff, size_of_slice h]

/-- Slices of one size are of one kind. -/
theorem isPart_eq_of_slices {k : Leaf α} {piece other : Node α} {start : Nat}
    (h : l.slice offset size = .ok piece) (hk : k.slice start size = .ok other) :
    piece.isPart = other.isPart :=
  Bool.eq_iff_iff.mpr ((isPart_of_slice h).trans (isPart_of_slice hk).symm)

theorem slice_slice {inner width : Nat} (hm : l.slice offset size = .ok (.leaf m))
    (h : inner + width ≤ size) :
    ∃ n, m.slice inner width = .ok n ∧ l.slice (offset + inner) width = .ok n := by
  obtain ⟨hle, hlist⟩ := slice_eq_ok_iff.mp hm
  have hsize : m.size = size := size_of_slice hm
  obtain ⟨n, hn, helems⟩ := m.slice_of_le (Nat.le_trans h (Nat.le_of_eq hsize.symm))
  refine ⟨n, hn, slice_eq_ok_iff.mpr ⟨by omega, ?_⟩⟩
  rw [helems, ← Node.toList_leaf, hlist, window_of_window l.toList offset h]

/-- Seen from its other end, a window stands as far from the first element as it stood from the
last one. -/
theorem slice_reverse (l : Leaf α) (h : offset + size ≤ l.size) :
    ∃ n, l.slice (l.size - offset - size) size = .ok n ∧
      l.reverse.slice offset size = .ok n.reverse := by
  obtain ⟨n, hn, helems⟩ := l.slice_of_le
    (show l.size - offset - size + size ≤ l.size by omega)
  refine ⟨n, hn, slice_eq_ok_iff.mpr ⟨by rwa [size_reverse], ?_⟩⟩
  rw [Node.toList_reverse, helems, toList_reverse, window_reverse h, l.length_toList]

/-- An element that was replaced is seen through the windows that it stands in. -/
theorem slice_of_set (hnew : l.set pos val = .ok new) (h : offset + size ≤ l.size) :
    ∃ piece other, l.slice offset size = .ok piece ∧ new.slice offset size = .ok other ∧
      (¬ (offset ≤ pos ∧ pos < offset + size) → other = piece) ∧
      (offset ≤ pos ∧ pos < offset + size →
        other.toList = piece.toList.set (pos - offset) val) := by
  obtain ⟨-, hset⟩ := set_eq_ok_iff.mp hnew
  obtain ⟨piece, hpiece, hold⟩ := l.slice_of_le h
  obtain ⟨other, hother, helems⟩ := new.slice_of_le
    (Nat.le_trans h (Nat.le_of_eq (size_of_set hnew).symm))
  rw [hset] at helems
  refine ⟨piece, other, hpiece, hother, ?_, ?_⟩
  · intro outside
    ext1
    rw [helems, hold, window_set_outside l.toList val outside]
  · intro inside
    rw [helems, hold, window_set_inside l.toList val inside.1]

theorem set_reverse (l : Leaf α) (val : α) (h : pos < l.size) :
    ∃ new, l.set pos val = .ok new ∧
      l.reverse.set (l.size - 1 - pos) val = .ok new.reverse := by
  obtain ⟨new, hnew, helems⟩ := l.set_of_lt val h
  refine ⟨new, hnew, set_eq_ok_iff.mpr ⟨?_, ?_⟩⟩
  · rw [size_reverse]
    omega
  · rw [toList_reverse, toList_reverse, helems, reverse_set val h, l.length_toList]

theorem set_set (hnew : l.set pos val = .ok new) (other : α) :
    new.set pos other = l.set pos other := by
  obtain ⟨hpos, helems⟩ := set_eq_ok_iff.mp hnew
  obtain ⟨last, hlast, hset⟩ := l.set_of_lt other hpos
  rw [hlast, set_eq_ok_iff]
  refine ⟨by rwa [size_of_set hnew], ?_⟩
  rw [hset, helems, List.set_set]

theorem set_comm {place : Nat} {other : α} (hne : pos ≠ place)
    (hnew : l.set pos val = .ok new) (hm : l.set place other = .ok m) :
    ∃ last, new.set place other = .ok last ∧ m.set pos val = .ok last := by
  obtain ⟨hpos, helems⟩ := set_eq_ok_iff.mp hnew
  obtain ⟨hplace, hset⟩ := set_eq_ok_iff.mp hm
  obtain ⟨last, hlast, hlist⟩ := new.set_of_lt other (by rwa [size_of_set hnew])
  refine ⟨last, hlast, set_eq_ok_iff.mpr ⟨by rwa [size_of_set hm], ?_⟩⟩
  rw [hlist, helems, hset, List.set_comm _ _ hne]

end Leaf

/-- Inside of its bounds, every window of a leaf can be had, and is a partial leaf if it is short.
A window of a window is a window of the leaf; in a leaf that is reversed the windows are
reversed, and a new element is seen in the windows around its place and in no other. Of two
elements put in one place the last one stays, and in two places their order does not matter. -/
theorem windows_follow_the_leaf :
    (∀ (l : Leaf α) (offset size : Nat), offset + size ≤ l.size →
      ∃ n, l.slice offset size = .ok n ∧ n.toList = (l.toList.drop offset).take size ∧
        (n.isPart = true ↔ size < minLeaf)) ∧
    (∀ (l m : Leaf α) (offset size inner width : Nat),
      l.slice offset size = .ok (.leaf m) → inner + width ≤ size →
      ∃ n, m.slice inner width = .ok n ∧ l.slice (offset + inner) width = .ok n) ∧
    (∀ (l : Leaf α) (offset size : Nat), offset + size ≤ l.size →
      ∃ n mirrored, l.slice (l.size - offset - size) size = .ok n ∧
        l.reverse.slice offset size = .ok mirrored ∧
        mirrored.isPart = n.isPart ∧ mirrored.toList = n.toList.reverse) ∧
    (∀ (l : Leaf α) (pos : Nat) (val : α) (offset size : Nat), pos < l.size →
      offset + size ≤ l.size →
      ∃ new piece other, l.set pos val = .ok new ∧ l.slice offset size = .ok piece ∧
        new.slice offset size = .ok other ∧
        (¬ (offset ≤ pos ∧ pos < offset + size) → other = piece) ∧
        (offset ≤ pos ∧ pos < offset + size → other.isPart = piece.isPart ∧
          other.toList = piece.toList.set (pos - offset) val)) ∧
    (∀ (l : Leaf α) (pos : Nat) (val : α), pos < l.size →
      ∃ new, l.set pos val = .ok new ∧
        l.reverse.set (l.size - 1 - pos) val = .ok new.reverse) ∧
    (∀ (l : Leaf α) (pos : Nat) (val other : α), pos < l.size →
      ∃ new last, l.set pos val = .ok new ∧ l.set pos other = .ok last ∧
        new.set pos other = .ok last) ∧
    (∀ (l : Leaf α) (pos place : Nat) (val other : α), pos ≠ place → pos < l.size →
      place < l.size →
      ∃ new m last, l.set pos val = .ok new ∧ l.set place other = .ok m ∧
        new.set place other = .ok last ∧ m.set pos val = .ok last) := by
  refine ⟨?_, ?_, ?_, ?_, ?_, ?_, ?_⟩
  · intro l offset size h
    obtain ⟨n, hn, helems⟩ := l.slice_of_le h
    exact ⟨n, hn, helems, Leaf.isPart_of_slice hn⟩
  · intro l m offset size inner width hm h
    exact Leaf.slice_slice hm h
  · intro l offset size h
    obtain ⟨n, hn, hreverse⟩ := l.slice_reverse h
    exact ⟨n, n.reverse, hn, hreverse, n.isPart_reverse, n.toList_reverse⟩
  · intro l pos val offset size hpos h
    obtain ⟨new, hnew, -⟩ := l.set_of_lt val hpos
    obtain ⟨piece, other, hpiece, hother, outside, inside⟩ := Leaf.slice_of_set hnew h
    refine ⟨new, piece, other, hnew, hpiece, hother, outside, ?_⟩
    intro hin
    exact ⟨Leaf.isPart_eq_of_slices hother hpiece, inside hin⟩
  · intro l pos val hpos
    exact l.set_reverse val hpos
  · intro l pos val other hpos
    obtain ⟨new, hnew, -⟩ := l.set_of_lt val hpos
    obtain ⟨last, hlast, -⟩ := l.set_of_lt other hpos
    exact ⟨new, last, hnew, hlast, (Leaf.set_set hnew other).trans hlast⟩
  · intro l pos place val other hne hpos hplace
    obtain ⟨new, hnew, -⟩ := l.set_of_lt val hpos
    obtain ⟨m, hm, -⟩ := l.set_of_lt other hplace
    obtain ⟨last, hlast, hback⟩ := Leaf.set_comm hne hnew hm
    exact ⟨new, m, last, hnew, hm, hlast, hback⟩

/-- A leaf of thirteen elements and a window of nine of them, on either side of the bound: seven
elements of that window are a partial leaf. The element in place 4 is put at the start of one
window, and just before the start of another. -/
theorem windows_follow_a_leaf_of_thirteen :
    let l : Leaf Nat := ⟨List.range 13, by decide, by decide⟩
    let m : Leaf Nat := ⟨List.range' 2 9, by decide, by decide⟩
    l.slice 2 9 = .ok (.leaf m) ∧ 1 + 7 ≤ 9 ∧ 4 + 9 ≤ l.size ∧ 5 + 8 ≤ l.size ∧ 4 < l.size ∧
      12 < l.size ∧ 4 ≠ 12 ∧
      (∃ n, m.slice 1 7 = .ok n ∧ l.slice 3 7 = .ok n ∧ n.isPart = true) ∧
      (∃ mirrored, l.reverse.slice 4 9 = .ok mirrored ∧ mirrored.isPart = false ∧
        mirrored.toList = (List.range 9).reverse) ∧
      (∃ new other, l.set 4 99 = .ok new ∧ new.slice 4 9 = .ok other ∧
        other.toList = 99 :: List.range' 5 8) ∧
      (∃ new piece, l.set 4 99 = .ok new ∧ l.slice 5 8 = .ok piece ∧ new.slice 5 8 = .ok piece) ∧
      (∃ new, l.set 4 99 = .ok new ∧ l.reverse.set 8 99 = .ok new.reverse) ∧
      (∃ new last, l.set 4 99 = .ok new ∧ l.set 4 0 = .ok last ∧ new.set 4 0 = .ok last) ∧
      ∃ new m last, l.set 4 99 = .ok new ∧ l.set 12 0 = .ok m ∧ new.set 12 0 = .ok last ∧
        m.set 4 99 = .ok last := by
  intro l m
  have hm : l.slice 2 9 = .ok (.leaf m) := rfl
  obtain ⟨hslice, hwindow, hreverse, hset, hmirror, htwice, hcomm⟩ := @windows_follow_the_leaf Nat
  refine ⟨hm, by decide, by decide, by decide, by decide, by decide, by decide, ?_, ?_, ?_, ?_,
    hmirror l 4 99 (by decide), htwice l 4 99 0 (by decide),
    hcomm l 4 12 99 0 (by decide) (by decide) (by decide)⟩
  · obtain ⟨n, hn, hwhole⟩ := hwindow l m 2 9 1 7 hm (by decide)
    obtain ⟨k, hk, -, hpart⟩ := hslice l 3 7 (by decide)
    cases hwhole.symm.trans hk
    exact ⟨n, hn, hwhole, hpart.mpr (by decide)⟩
  · obtain ⟨n, mirrored, hn, hmirrored, hkind, helems⟩ := hreverse l 4 9 (by decide)
    cases hn
    exact ⟨mirrored, hmirrored, hkind, helems⟩
  · obtain ⟨new, piece, other, hnew, hpiece, hother, -, inside⟩ :=
      hset l 4 99 4 9 (by decide) (by decide)
    cases hpiece
    exact ⟨new, other, hnew, hother, (inside (by decide)).2⟩
  · obtain ⟨new, piece, other, hnew, hpiece, hother, outside, -⟩ :=
      hset l 4 99 5 8 (by decide) (by decide)
    cases outside (by decide)
    exact ⟨new, piece, hnew, hpiece, hother⟩

end LeafFringe
