import Mathlib.Tactic.Common

/-!
# Edits in the middle of a run

A run that stands between two others is edited at an offset of its own; seen from the start of
the joined run, the same edit happens at the offset plus the length of what comes before. Seen
from its other end, a run is edited at a place that is counted from there.
-/

namespace LeafFringe

variable {α : Type}

theorem insertIdx_eq_take_cons_drop {run : List α} {pos : Nat} (val : α)
    (h : pos ≤ run.length) : run.insertIdx pos val = run.take pos ++ val :: run.drop pos := by
  induction run generalizing pos with
  | nil =>
    obtain rfl : pos = 0 := Nat.le_zero.mp h
    rfl
  | cons a run ih =>
    cases pos with
    | zero => rfl
    | succ pos => simpa using ih (Nat.le_of_succ_le_succ h)

theorem insertIdx_between (before after : List α) {run : List α} {offset : Nat} (val : α)
    (h : offset ≤ run.length) :
    (before ++ run ++ after).insertIdx (before.length + offset) val =
      before ++ run.insertIdx offset val ++ after := by
  have hle : before.length + offset ≤ (before ++ run ++ after).length := by
    simp only [List.length_append]
    omega
  rw [insertIdx_eq_take_cons_drop val hle, insertIdx_eq_take_cons_drop val h, List.append_assoc,
    List.take_length_add_append, List.drop_length_add_append,
    List.take_append_of_le_length h, List.drop_append_of_le_length h]
  simp

theorem eraseIdx_between (before after : List α) {run : List α} {offset : Nat}
    (h : offset < run.length) :
    (before ++ run ++ after).eraseIdx (before.length + offset) =
      before ++ run.eraseIdx offset ++ after := by
  rw [List.append_assoc, List.eraseIdx_append_of_length_le (Nat.le_add_right _ _),
    Nat.add_sub_cancel_left, List.eraseIdx_append_of_lt_length h, List.append_assoc]

theorem set_between (before after : List α) {run : List α} {offset : Nat} (val : α)
    (h : offset < run.length) :
    (before ++ run ++ after).set (before.length + offset) val =
      before ++ run.set offset val ++ after := by
  rw [List.append_assoc, List.set_append_right _ _ (Nat.le_add_right _ _),
    Nat.add_sub_cancel_left, List.set_append_left _ _ h, List.append_assoc]

/-- From the other end, the new element stands behind as many elements as it was put before. -/
theorem reverse_insertIdx {run : List α} {pos : Nat} (val : α) (h : pos ≤ run.length) :
    (run.insertIdx pos val).reverse = run.reverse.insertIdx (run.length - pos) val := by
  have hle : run.length - pos ≤ run.reverse.length := by
    rw [List.length_reverse]
    exact Nat.sub_le _ _
  rw [insertIdx_eq_take_cons_drop val h, insertIdx_eq_take_cons_drop val hle,
    ← List.reverse_drop, ← List.reverse_take]
  simp

theorem reverse_eraseIdx {run : List α} {pos : Nat} (h : pos < run.length) :
    (run.eraseIdx pos).reverse = run.reverse.eraseIdx (run.length - 1 - pos) := by
  have hbefore : run.length - 1 - pos = run.length - (pos + 1) := by omega
  have hbehind : run.length - (pos + 1) + 1 = run.length - pos := by omega
  rw [List.eraseIdx_eq_take_drop_succ, List.eraseIdx_eq_take_drop_succ, hbefore, hbehind,
    List.reverse_append, List.reverse_drop, List.reverse_take]

theorem reverse_set {run : List α} {pos : Nat} (val : α) (h : pos < run.length) :
    (run.set pos val).reverse = run.reverse.set (run.length - 1 - pos) val := by
  have hbefore : run.length - 1 - pos = run.length - (pos + 1) := by omega
  have hlen : run.length - (pos + 1) < run.reverse.length := by
    rw [List.length_reverse]
    omega
  have hbehind : run.length - (pos + 1) + 1 = run.length - pos := by omega
  rw [hbefore, List.set_eq_take_append_cons_drop, if_pos h, List.set_eq_take_append_cons_drop,
    if_pos hlen, hbehind, ← List.reverse_drop, ← List.reverse_take]
  simp

/-- A range inside of a range is a range. -/
theorem window_of_window (run : List α) (offset : Nat) {size inner width : Nat}
    (h : inner + width ≤ size) :
    (((run.drop offset).take size).drop inner).take width =
      (run.drop (offset + inner)).take width := by
  have hwidth : width ≤ size - inner := by omega
  rw [List.drop_take, List.drop_drop, List.take_take, Nat.min_eq_left hwidth]

/-- From the other end, a range stands behind as many elements as stood behind it. -/
theorem window_reverse {run : List α} {offset size : Nat} (h : offset + size ≤ run.length) :
    (run.reverse.drop offset).take size =
      ((run.drop (run.length - offset - size)).take size).reverse := by
  have hlen : (run.take (run.length - offset)).length = run.length - offset :=
    List.length_take_of_le (Nat.sub_le _ _)
  have hsize : run.length - offset - (run.length - offset - size) = size := by omega
  rw [List.drop_reverse, List.take_reverse, hlen, List.drop_take, hsize]

/-- A range that starts at the place of an element or before it. -/
theorem window_set_inside (run : List α) (val : α) {offset size pos : Nat} (h : offset ≤ pos) :
    ((run.set pos val).drop offset).take size =
      ((run.drop offset).take size).set (pos - offset) val := by
  rw [List.drop_set, if_neg (Nat.not_lt.mpr h), List.take_set]

theorem window_set_outside (run : List α) (val : α) {offset size pos : Nat}
    (h : ¬ (offset ≤ pos ∧ pos < offset + size)) :
    ((run.set pos val).drop offset).take size = (run.drop offset).take size := by
  rcases Nat.lt_or_ge pos offset with before | behind
  · rw [List.drop_set, if_pos before]
  · rw [window_set_inside run val behind, List.set_eq_of_length_le]
    have := List.length_take_le size (run.drop offset)
    omega

/-- The elements in a range of a joined run are those in the range of either part. -/
theorem drop_take_append (run after : List α) (start stop : Nat) :
    ((run ++ after).take stop).drop start =
      (run.take stop).drop start ++
        (after.take (stop - run.length)).drop (start - run.length) := by
  rw [List.take_append, List.drop_append, List.length_take]
  congr 1
  rcases Nat.le_total stop run.length with h | h
  · simp [Nat.sub_eq_zero_of_le h]
  · rw [Nat.min_eq_right h]

end LeafFringe
