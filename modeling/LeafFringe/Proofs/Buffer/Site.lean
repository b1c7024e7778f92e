import LeafFringe.Proofs.Buffer.Basic
import LeafFringe.Proofs.Runs
import LeafFringe.Proofs.Site.Insertion
import LeafFringe.Proofs.Site.Removal

/-!
# Edits of a leaf in checked buffers

An insertion and a removal, written branch by branch with the events, the reads and the buffers
of each branch in their order. A position is never compared with the size of the leaf as such:
it is only ever used as the end of a range. Both programs agree with the checked-once operations
at every position, so no branch accepts a position that another one refuses, and a branch that
refuses one has reported what it was about to do.
-/

namespace LeafFringe.Buffer

open Outcome (report)

variable {α : Type}

/-- Finds a place for a run that has grown by one element. -/
def settle (s : Site α) (run : List α) : Outcome (Insertion α) := do
  if s.node.size < maxLeaf then
    return .replaced (← Leaf.ofBuffer run)
  else match s.left.filter fun l => l.size < maxLeaf with
  | some l =>
    let moved := (maxLeaf - l.size + 1) / 2
    report (.shiftedLeft moved)
    let front ← upTo run moved
    let rest ← onward run moved
    let left ← Leaf.ofBuffer (l.toList ++ front)
    return .shiftedLeft left (← Leaf.ofBuffer rest)
  | none => match s.right.filter fun r => r.size < maxLeaf with
    | some r =>
      let moved := (maxLeaf - r.size + 1) / 2
      let kept := s.node.size + 1 - moved
      report (.shiftedRight moved)
      let rest ← upTo run kept
      let back ← onward run kept
      let node ← Leaf.ofBuffer rest
      return .shiftedRight node (← Leaf.ofBuffer (back ++ r.toList))
    | none =>
      report (.split (run.length / 2))
      let (left, right) ← halves run (run.length / 2)
      return .split left right

/-- Inserts `val` before the element at `pos`. -/
def insert (s : Site α) (pos : UInt64) (val : α) : Outcome (Insertion α) := do
  let front ← upTo s.node.toList pos.toNat
  let back ← onward s.node.toList pos.toNat
  settle s (front ++ val :: back)

/-- All elements but the one at `pos`. -/
def without (run : List α) (pos : UInt64) : Except Fault (List α) := do
  let front ← upTo run pos.toNat
  let back ← onward run (pos + 1).toNat
  return front ++ back

/-- Removes the element at `pos`. -/
def remove (s : Site α) (pos : UInt64) : Outcome (Removal α) := do
  let run := s.node.toList
  if minLeaf < s.node.size then
    return .shrunk (← Leaf.ofBuffer (← without run pos))
  else match s.left.filter fun l => minLeaf < l.size with
  | some l =>
    let moved := (l.size - minLeaf + 1) / 2
    report (.borrowedLeft moved)
    let kept ← upTo l.toList (l.size - moved)
    let taken ← onward l.toList (l.size - moved)
    let rest ← without run pos
    let left ← Leaf.ofBuffer kept
    return .borrowedLeft left (← Leaf.ofBuffer (taken ++ rest))
  | none => match s.right.filter fun r => minLeaf < r.size with
    | some r =>
      let moved := (r.size - minLeaf + 1) / 2
      report (.borrowedRight moved)
      let rest ← without run pos
      let taken ← upTo r.toList moved
      let kept ← onward r.toList moved
      let node ← Leaf.ofBuffer (rest ++ taken)
      return .borrowedRight node (← Leaf.ofBuffer kept)
    | none => match s.left, s.right with
      | some l, _ =>
        report .mergedLeft
        return .mergedLeft (← Leaf.ofBuffer (l.toList ++ (← without run pos)))
      | none, some r =>
        report .mergedRight
        return .mergedRight (← Leaf.ofBuffer ((← without run pos) ++ r.toList))
      | none, none =>
        report .underflow
        return .underflow (← PartialLeaf.ofBuffer (← without run pos))

/-- Every buffer has the size its branch promises. -/
theorem settle_of_settles {s : Site α} {run : List α} {done : Logged (Insertion α)}
    (h : s.Settles run done) (hlen : run.length = s.node.size + 1) :
    settle s run = .ok done := by
  cases h with
  | replaced n room hn => simp [settle, room, Leaf.ofBuffer_eq_ok hn]
  | shiftedLeft l a b full hl room ha hb =>
    simp only [Site.handedOver] at ha hb ⊢
    have hle : (maxLeaf - l.size + 1) / 2 ≤ run.length := by omega
    have hfilter : s.left.filter (fun l => l.size < maxLeaf) = some l := by simp [hl, room]
    simp [settle, full, hfilter, upTo_of_le hle, onward_of_le hle, Leaf.ofBuffer_eq_ok ha,
      Leaf.ofBuffer_eq_ok hb]
  | shiftedRight r a b full noLeft hr room ha hb =>
    simp only [Site.handedOver] at ha hb ⊢
    have hle : maxLeaf + 1 - (maxLeaf - r.size + 1) / 2 ≤ run.length := by omega
    have hnone := Site.filter_room_of_full noLeft
    have hfilter : s.right.filter (fun r => r.size < maxLeaf) = some r := by simp [hr, room]
    simp [settle, full, hnone, hfilter, upTo_of_le hle, onward_of_le hle,
      Leaf.ofBuffer_eq_ok ha, Leaf.ofBuffer_eq_ok hb]
  | split a b full noLeft noRight ha hb =>
    have hhalf : run.length / 2 = minLeaf := by rw [hlen, full]; rfl
    have hnoLeft := Site.filter_room_of_full noLeft
    have hnoRight := Site.filter_room_of_full noRight
    have hhalves := halves_eq_ok (hhalf ▸ Nat.div_le_self _ _) ha hb
    simp [settle, full, hnoLeft, hnoRight, hhalf, hhalves]

theorem insert_eq (s : Site α) (pos : UInt64) (val : α) :
    insert s pos val = s.insert pos.toNat val := by
  rcases Nat.lt_or_ge s.node.size pos.toNat with h | h
  · have hout : upTo s.node.toList pos.toNat = .error .outOfRange := if_neg (Nat.not_le.mpr h)
    rw [s.insert_of_lt val h, insert, hout, Outcome.lift_error, Outcome.error_bind]
  · obtain ⟨done, hdone, hs⟩ := s.insert_of_le val h
    simp only [insert, upTo_of_le h, onward_of_le h, Outcome.lift_ok, Outcome.ok_bind,
      Logged.value_pure, Logged.events_pure, Outcome.after_nil]
    rw [hdone, ← insertIdx_eq_take_cons_drop val h]
    exact settle_of_settles hs (List.length_insertIdx_of_le_length h val)

theorem toNat_next {pos : UInt64} (h : pos.toNat ≤ maxLeaf) :
    (pos + 1).toNat = pos.toNat + 1 := by
  have hone : (1 : UInt64).toNat = 1 := rfl
  have := maxLeaf_eq
  rw [UInt64.toNat_add]
  omega

theorem without_of_lt (l : Leaf α) {pos : UInt64} (h : pos.toNat < l.size) :
    without l.toList pos = .ok (l.toList.eraseIdx pos.toNat) := by
  have hle : pos.toNat ≤ l.size := Nat.le_of_lt h
  have hnext := toNat_next (Nat.le_trans hle l.size_le_maxLeaf)
  rw [without, upTo_of_le hle, hnext, onward_of_le h, ok_bind, ok_bind, pure_eq_ok,
    List.eraseIdx_eq_take_drop_succ]

/-- At the very end the first range is still there, and the second one is not. -/
theorem without_of_le (l : Leaf α) {pos : UInt64} (h : l.size ≤ pos.toNat) :
    without l.toList pos = .error .outOfRange := by
  rcases Nat.eq_or_lt_of_le h with heq | hlt
  · have hle : pos.toNat ≤ l.size := Nat.le_of_eq heq.symm
    have hnext := toNat_next (Nat.le_trans hle l.size_le_maxLeaf)
    have hout : onward l.toList (pos.toNat + 1) = .error .outOfRange :=
      if_neg (by rw [l.length_toList]; omega)
    rw [without, upTo_of_le hle, hnext, hout, ok_bind, error_bind]
  · have hout : upTo l.toList pos.toNat = .error .outOfRange := if_neg (Nat.not_le.mpr hlt)
    rw [without, hout, error_bind]

/-- In every branch, all that is read before the run of the leaf itself is there. -/
theorem remove_of_without {s : Site α} {pos : UInt64}
    (h : without s.node.toList pos = .error .outOfRange) :
    remove s pos = .error ⟨.outOfRange, s.forewarning⟩ := by
  by_cases spare : minLeaf < s.node.size
  · simp only [remove, Site.forewarning, spare, ↓reduceIte, h, Outcome.lift_error,
      Outcome.error_bind]
    rfl
  · cases hl : s.left.filter fun l => minLeaf < l.size with
    | some l =>
      have hle : l.size - (l.size - minLeaf + 1) / 2 ≤ l.toList.length := Nat.sub_le _ _
      simp [remove, Site.forewarning, spare, hl, h, upTo_of_le hle, onward_of_le hle]
    | none =>
      cases hr : s.right.filter fun r => minLeaf < r.size with
      | some r => simp [remove, Site.forewarning, spare, hl, hr, h]
      | none =>
        simp only [remove, Site.forewarning, spare, ↓reduceIte, hl, hr, h]
        cases s.left with
        | some l => simp
        | none => cases s.right <;> simp

theorem remove_of_recovers {s : Site α} {pos : UInt64} {rest : List α}
    {done : Logged (Removal α)} (h : s.Recovers rest done)
    (hrest : without s.node.toList pos = .ok rest) : remove s pos = .ok done := by
  cases h with
  | shrunk n spare hn => simp [remove, spare, hrest, Leaf.ofBuffer_eq_ok hn]
  | borrowedLeft l a b least hl spare ha hb =>
    simp only [Site.lent] at ha hb ⊢
    have hle : l.size - (l.size - minLeaf + 1) / 2 ≤ l.toList.length := Nat.sub_le _ _
    have hfilter : s.left.filter (fun l => minLeaf < l.size) = some l := by simp [hl, spare]
    simp [remove, least, hfilter, hrest, upTo_of_le hle, onward_of_le hle,
      Leaf.ofBuffer_eq_ok ha, Leaf.ofBuffer_eq_ok hb]
  | borrowedRight r a b least noLeft hr spare ha hb =>
    simp only [Site.lent] at ha hb ⊢
    have hle : (r.size - minLeaf + 1) / 2 ≤ r.toList.length := by
      rw [r.length_toList]
      omega
    have hnone := Site.filter_spare_of_least noLeft
    have hfilter : s.right.filter (fun r => minLeaf < r.size) = some r := by simp [hr, spare]
    simp [remove, least, hnone, hfilter, hrest, upTo_of_le hle, onward_of_le hle,
      Leaf.ofBuffer_eq_ok ha, Leaf.ofBuffer_eq_ok hb]
  | mergedLeft l n least hl leftLeast noRight hn =>
    have hnoRight := Site.filter_spare_of_least noRight
    simp [remove, least, hl, Option.filter_some, leftLeast, hnoRight, hrest,
      Leaf.ofBuffer_eq_ok hn]
  | mergedRight r n least hl hr rightLeast hn =>
    simp [remove, least, hl, hr, Option.filter_some, rightLeast, hrest, Leaf.ofBuffer_eq_ok hn]
  | underflow p least hl hr hp =>
    simp [remove, least, hl, hr, hrest, PartialLeaf.ofBuffer_eq_ok hp]

theorem remove_eq (s : Site α) (pos : UInt64) : remove s pos = s.remove pos.toNat := by
  rcases Nat.lt_or_ge pos.toNat s.node.size with h | h
  · obtain ⟨done, hdone, hr⟩ := s.remove_of_lt h
    rw [hdone]
    exact remove_of_recovers hr (without_of_lt s.node h)
  · rw [s.remove_of_le h]
    exact remove_of_without (without_of_le s.node h)

end LeafFringe.Buffer
