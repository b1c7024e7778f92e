import LeafFringe.Proofs.Editing
import Mathlib.Algebra.Order.BigOperators.Group.List
import Mathlib.Algebra.Order.Ring.Nat

/-!
# Stitching a leaf back together

However a leaf is cut into slices, no more elements come together again than fit one leaf. A
fringe of so few elements is a single node, and since appending makes a fringe of whatever is
appended, the slices grow into one node and end as the leaf they were cut from.
-/

namespace LeafFringe

variable {α : Type}

/-- The slices of a leaf for ranges of the given sizes, one behind the other from `offset` on. -/
def Leaf.slices (l : Leaf α) : (offset : Nat) → (sizes : List Nat) → Except Fault (List (Node α))
  | _, [] => return []
  | offset, size :: sizes => do
    let piece ← l.slice offset size
    let more ← l.slices (offset + size) sizes
    return piece :: more

/-- The output is one node, and that holds the first `count` elements of the leaf. -/
def Leaf.GrownTo (l : Leaf α) (count : Nat) (out : List (Node α)) : Prop :=
  ∃ n, out = [n] ∧ n.toList = l.toList.take count ∧ (n.isPart = true ↔ count < minLeaf)

/-- A fringe whose elements fit one leaf is one node: two leaves have more of them. -/
theorem IsFringe.eq_single {nodes : List (Node α)} (h : IsFringe nodes) (hne : nodes ≠ [])
    (fits : totalSize nodes ≤ maxLeaf) : ∃ n, nodes = [n] := by
  cases h with
  | tiny p => exact ⟨_, rfl⟩
  | leaves ha =>
    have hle := ha.le_totalSize
    have hpos := List.length_pos_iff.mpr hne
    have hmin := minLeaf_eq
    have hmax := maxLeaf_eq
    rw [← List.length_eq_one_iff]
    rw [hmin] at hle
    omega

theorem concat_nil_ne_nil {pieces : List (Node α)} (hne : pieces ≠ []) :
    (concat [] pieces).value ≠ [] := by
  obtain ⟨first, rest, rfl⟩ := List.exists_cons_of_ne_nil hne
  rw [value_concat_cons]
  exact concat_value_ne_nil rest (append_value_ne_nil [] first)

/-- Nodes that fit one leaf together become one node, of whatever kinds and sizes they are. -/
theorem concat_of_fits {pieces : List (Node α)} (hne : pieces ≠ [])
    (fits : totalSize pieces ≤ maxLeaf) :
    ∃ n, (concat [] pieces).value = [n] ∧ n.toList = flatten pieces := by
  have hfringe : IsFringe (concat [] pieces).value := isFringe_concat (.leaves allLeaves_nil) pieces
  have htotal : totalSize (concat [] pieces).value ≤ maxLeaf := by
    rw [totalSize_concat, totalSize_nil, Nat.zero_add]
    exact fits
  obtain ⟨n, hn⟩ := hfringe.eq_single (concat_nil_ne_nil hne) htotal
  have hflat := flatten_concat [] pieces
  rw [hn] at hflat
  exact ⟨n, hn, by simpa using hflat⟩

/-- Ranges inside of a leaf have slices, and the first of these hold what the first ranges
cover. -/
theorem Leaf.exists_slices (l : Leaf α) {offset : Nat} {sizes : List Nat}
    (h : offset + sizes.sum ≤ l.size) :
    ∃ pieces, l.slices offset sizes = .ok pieces ∧ pieces.length = sizes.length ∧
      ∀ k, flatten (pieces.take k) = (l.toList.drop offset).take (sizes.take k).sum := by
  induction sizes generalizing offset with
  | nil => exact ⟨[], rfl, rfl, by simp⟩
  | cons size sizes ih =>
    rw [List.sum_cons, ← Nat.add_assoc] at h
    obtain ⟨piece, hpiece, hlist⟩ := l.slice_of_le (Nat.le_trans (Nat.le_add_right _ _) h)
    obtain ⟨more, hmore, hlen, hflat⟩ := ih h
    refine ⟨piece :: more, by rw [slices, hpiece, ok_bind, hmore]; rfl, by simp [hlen], ?_⟩
    intro k
    cases k with
    | zero => simp
    | succ k =>
      rw [List.take_succ_cons, flatten_cons, hlist, hflat, List.take_succ_cons, List.sum_cons,
        List.take_add, List.drop_drop]

/-- Nodes with the first elements of a leaf become one node of these. -/
theorem Leaf.grownTo_concat (l : Leaf α) {pieces : List (Node α)} (hne : pieces ≠ [])
    {count : Nat} (hcount : count ≤ l.size) (h : flatten pieces = l.toList.take count) :
    l.GrownTo count (concat [] pieces).value := by
  have hlen : (l.toList.take count).length = count := List.length_take_of_le hcount
  have fits : totalSize pieces ≤ maxLeaf := by
    rw [← length_flatten, h, hlen]
    exact Nat.le_trans hcount l.size_le_maxLeaf
  obtain ⟨n, hn, hlist⟩ := concat_of_fits hne fits
  rw [h] at hlist
  refine ⟨n, hn, hlist, ?_⟩
  rw [n.isPart_iff, ← n.length_toList, hlist, hlen]

/-- After every slice the output is one node of the elements so far, and after the last slice it
is the leaf itself. -/
theorem slices_stitch_back (l : Leaf α) (sizes : List Nat) (hne : sizes ≠ [])
    (h : sizes.sum = l.size) :
    ∃ pieces, l.slices 0 sizes = .ok pieces ∧ pieces.length = sizes.length ∧
      (concat [] pieces).value = [.leaf l] ∧
      ∀ k, 0 < k → l.GrownTo (sizes.take k).sum (concat [] (pieces.take k)).value := by
  have hzero : 0 + sizes.sum ≤ l.size := by
    rw [Nat.zero_add]
    exact Nat.le_of_eq h
  obtain ⟨pieces, hpieces, hlen, hflat⟩ := l.exists_slices hzero
  have hpieces_ne : pieces ≠ [] := by
    rwa [Ne, ← List.length_eq_zero_iff, hlen, List.length_eq_zero_iff]
  -- No step from one slice to the next is needed: whatever the slices so far are, they fit a leaf.
  have hgrown : ∀ k, 0 < k → l.GrownTo (sizes.take k).sum (concat [] (pieces.take k)).value := by
    intro k hk
    apply l.grownTo_concat
    · rw [Ne, List.take_eq_nil_iff]
      rintro (rfl | hnil)
      · exact Nat.lt_irrefl 0 hk
      · exact hpieces_ne hnil
    · rw [← h]
      exact (List.take_sublist k sizes).sum_le_sum fun _ _ => Nat.zero_le _
    · exact hflat k
  refine ⟨pieces, hpieces, hlen, ?_, hgrown⟩
  obtain ⟨n, hn, hlist, -⟩ := hgrown sizes.length (List.length_pos_iff.mpr hne)
  rw [List.take_length, h, ← l.length_toList, List.take_length] at hlist
  rw [← hlen, List.take_length] at hn
  rw [hn, Node.ext (n := .leaf l) hlist]

/-- Five slices, two of them empty: a partial leaf of six grows past the least size of a leaf. -/
theorem slices_stitch_back_five :
    let l : Leaf Nat := ⟨List.range 13, by decide, by decide⟩
    let sizes : List Nat := [0, 6, 4, 0, 3]
    sizes ≠ [] ∧ sizes.sum = l.size ∧
      ∃ pieces, l.slices 0 sizes = .ok pieces ∧ (concat [] pieces).value = [.leaf l] ∧
        (concat [] (pieces.take 2)).value = [.part ⟨List.range 6, by decide⟩] := by
  intro l sizes
  have hne : sizes ≠ [] := by decide
  have hsum : sizes.sum = l.size := by decide
  obtain ⟨pieces, hpieces, -, hwhole, hgrown⟩ := slices_stitch_back l sizes hne hsum
  obtain ⟨n, hn, hlist, -⟩ := hgrown 2 (by decide)
  refine ⟨hne, hsum, pieces, hpieces, hwhole, ?_⟩
  rw [hn]
  congr 1
  exact Node.ext hlist

end LeafFringe
