import LeafFringe.Fringe.Locate
import LeafFringe.Proofs.Fringe.Seam
import LeafFringe.Proofs.Site.Insertion
import LeafFringe.Proofs.Site.Removal

/-!
# Runs that are shared out evenly

Wherever two leaves are made of a joined run, they hold one half of it each. Each branch has a
formula of its own for the place of the cut: half of the room of a sibling, half of what a
sibling can spare, half of the run. They come to the same, up to the leaf that gets the middle
element of an odd run.
-/

namespace LeafFringe

variable {α : Type}

/-- How many of `total` elements the two leaves get, the middle one going to the side named. -/
def Bias.halves : Bias → (total : Nat) → Nat × Nat
  | left, total => ((total + 1) / 2, total / 2)
  | right, total => (total / 2, (total + 1) / 2)

/-- Two leaves hold a run in order, one half of it each. The middle element of an odd run is in
the leaf on the side named. -/
structure Halved (run : List α) (middle : Bias) (first second : Leaf α) : Prop where
  elements : first.toList ++ second.toList = run
  sizes : (first.size, second.size) = middle.halves run.length

/-- What is not in the first leaf is in the second, so it is enough to count the first. -/
theorem Halved.of_first {run : List α} {middle : Bias} {first second : Leaf α}
    (elements : first.toList ++ second.toList = run)
    (hfirst : first.size = (middle.halves run.length).1) : Halved run middle first second := by
  refine ⟨elements, ?_⟩
  have htotal : first.size + second.size = run.length := by
    rw [← elements, List.length_append, first.length_toList, second.length_toList]
  cases middle <;> simp only [Bias.halves, Prod.mk.injEq] at hfirst ⊢ <;> omega

/-- If an insertion has shared out a joined run, it was cut in half, and the leaf that was edited
holds the larger half. -/
def Insertion.CutsInHalf (s : Site α) (run : List α) : Insertion α → Prop
  | replaced _ => True
  | shiftedLeft left node => ∃ l ∈ s.left, Halved (l.toList ++ run) .right left node
  | shiftedRight node right => ∃ r ∈ s.right, Halved (run ++ r.toList) .left node right
  -- a split run has an even number of elements
  | split left right => ∀ middle, Halved run middle left right

/-- If a removal has shared out a joined run, it was cut in half, and the sibling that has lent
elements holds the larger half. -/
def Removal.CutsInHalf (s : Site α) (rest : List α) : Removal α → Prop
  | borrowedLeft left node => ∃ l ∈ s.left, Halved (l.toList ++ rest) .left left node
  | borrowedRight node right => ∃ r ∈ s.right, Halved (rest ++ r.toList) .right node right
  | shrunk _ | mergedLeft _ | mergedRight _ | underflow _ => True

namespace Site

theorem Settles.cutsInHalf {s : Site α} {run : List α} {done : Logged (Insertion α)}
    (h : s.Settles run done) (hrun : run.length = s.node.size + 1) :
    done.value.CutsInHalf s run := by
  have hmin := minLeaf_eq
  have hmax := maxLeaf_eq
  cases h with
  | replaced n room hn => trivial
  | shiftedLeft l a b full hl room ha hb =>
    refine ⟨l, hl, .of_first (by simp [ha, hb]) ?_⟩
    rw [Leaf.size_of_append ha, List.length_append, l.length_toList, List.length_take,
      handedOver, Bias.halves]
    omega
  | shiftedRight r a b full noLeft hr room ha hb =>
    refine ⟨r, hr, .of_first (by simp [ha, hb, ← List.append_assoc]) ?_⟩
    rw [← a.length_toList, ha, List.length_append, r.length_toList, List.length_take,
      handedOver, Bias.halves]
    omega
  | split a b full noLeft noRight ha hb =>
    intro middle
    refine .of_first (by rw [ha, hb, List.take_append_drop]) ?_
    rw [← a.length_toList, ha, List.length_take]
    cases middle <;> simp only [Bias.halves] <;> omega

theorem Recovers.cutsInHalf {s : Site α} {rest : List α} {done : Logged (Removal α)}
    (h : s.Recovers rest done) (hrest : rest.length + 1 = s.node.size) :
    done.value.CutsInHalf s rest := by
  have hmin := minLeaf_eq
  cases h with
  | borrowedLeft l a b least hl spare ha hb =>
    refine ⟨l, hl, .of_first (by simp [ha, hb, ← List.append_assoc]) ?_⟩
    rw [← a.length_toList, ha, List.length_append, List.length_take, l.length_toList, lent,
      Bias.halves]
    omega
  | borrowedRight r a b least noLeft hr spare ha hb =>
    refine ⟨r, hr, .of_first (by simp [ha, hb]) ?_⟩
    rw [Leaf.size_of_append ha, List.length_append, List.length_take, r.length_toList, lent,
      Bias.halves]
    omega
  | _ => trivial

end Site

theorem Joined.exists_halved {last next : Node α} {new : List (Node α)}
    (h : Joined last next new) (seam : last.isPart ∨ next.isPart)
    (long : maxLeaf < last.size + next.size) :
    ∃ a b : Leaf α, new = [.leaf a, .leaf b] ∧
      Halved (last.toList ++ next.toList) .right a b := by
  obtain ⟨a, b, rfl, ha, -⟩ := h.exists_halves seam long
  refine ⟨a, b, rfl, .of_first (by simpa using h.flatten_eq) ?_⟩
  rw [ha, List.length_append, last.length_toList, next.length_toList, Bias.halves]

/-- Every redistribution is even. The middle element of an odd run goes to the leaf that was
edited if a sibling takes elements over, to the sibling if it lends some, and to the leaf behind
if nodes are appended. -/
theorem redistribution_is_even :
    (∀ (s : Site α) (pos : Nat) (val : α) (done : Logged (Insertion α)),
      s.insert pos val = .ok done →
        done.value.CutsInHalf s (s.node.toList.insertIdx pos val)) ∧
    (∀ (s : Site α) (pos : Nat) (done : Logged (Removal α)), s.remove pos = .ok done →
      done.value.CutsInHalf s (s.node.toList.eraseIdx pos)) ∧
    (∀ (settled : List (Node α)) (last next : Node α), last.isPart ∨ next.isPart →
      maxLeaf < last.size + next.size →
        ∃ a b : Leaf α, (append (settled ++ [last]) next).value =
            settled ++ [.leaf a, .leaf b] ∧
          Halved (last.toList ++ next.toList) .right a b) := by
  refine ⟨?_, ?_, ?_⟩
  · intro s pos val done hdone
    obtain ⟨hpos, hsettles⟩ := Site.settles_of_insert hdone
    exact hsettles.cutsInHalf (List.length_insertIdx_of_le_length hpos val)
  · intro s pos done hdone
    obtain ⟨hpos, hrecovers⟩ := Site.recovers_of_remove hdone
    exact hrecovers.cutsInHalf (List.length_eraseIdx_add_one hpos)
  · intro settled last next seam long
    obtain ⟨a, b, hnew, hhalved⟩ := (joined_join last next).exists_halved seam long
    exact ⟨a, b, by rw [value_append_snoc, hnew], hhalved⟩

/-- Runs of 25, 17 and 19 elements: the larger half is in the leaf that was edited, in the sibling
that has lent an element, and in the leaf behind. -/
theorem redistribution_is_even_for_odd_runs :
    let nine : Leaf Nat := ⟨List.range 9, by decide, by decide⟩
    let ten : Leaf Nat := ⟨List.range 10, by decide, by decide⟩
    let full : Leaf Nat := ⟨List.range 15, by decide, by decide⟩
    let least : Leaf Nat := ⟨List.range 8, by decide, by decide⟩
    let four : Node Nat := .part ⟨List.range 4, by decide⟩
    (∃ done left node, ({ left := some nine, node := full } : Site Nat).insert 3 99 = .ok done ∧
      done.value = .shiftedLeft left node ∧
      Halved (nine.toList ++ full.toList.insertIdx 3 99) .right left node ∧
      (left.size, node.size) = (12, 13)) ∧
    (∃ done left node, ({ left := some ten, node := least } : Site Nat).remove 7 = .ok done ∧
      done.value = .borrowedLeft left node ∧
      Halved (ten.toList ++ least.toList.eraseIdx 7) .left left node ∧
      (left.size, node.size) = (9, 8)) ∧
    ((Node.leaf full).isPart ∨ four.isPart) ∧ maxLeaf < (Node.leaf full).size + four.size ∧
      ∃ a b : Leaf Nat, (append [four, .leaf full] four).value = [four, .leaf a, .leaf b] ∧
        Halved (full.toList ++ four.toList) .right a b ∧ (a.size, b.size) = (9, 10) := by
  intro nine ten full least four
  obtain ⟨hinsert, hremove, happend⟩ := @redistribution_is_even Nat
  have seam : (Node.leaf full).isPart ∨ four.isPart := .inr rfl
  have long : maxLeaf < (Node.leaf full).size + four.size := by decide
  refine ⟨⟨_, _, _, rfl, rfl, ?_, by decide⟩, ⟨_, _, _, rfl, rfl, ?_, by decide⟩, seam, long, ?_⟩
  · obtain ⟨l, hl, hhalved⟩ := hinsert { left := some nine, node := full } 3 99 _ rfl
    cases hl
    exact hhalved
  · obtain ⟨l, hl, hhalved⟩ := hremove { left := some ten, node := least } 7 _ rfl
    cases hl
    exact hhalved
  · obtain ⟨a, b, hnew, hhalved⟩ := happend [four] (.leaf full) four seam long
    exact ⟨a, b, hnew, hhalved, hhalved.sizes.trans (by decide)⟩

end LeafFringe
