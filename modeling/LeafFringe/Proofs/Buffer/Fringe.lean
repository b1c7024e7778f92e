import LeafFringe.Outcome
import LeafFringe.Proofs.Buffer.Basic
import LeafFringe.Proofs.Fringe.Shape

/-!
# Outputs put together in checked buffers

Appending takes the last node off the output, joins the two runs in a buffer and wraps the
buffer as one node or two. Chopping a run collects its elements one by one, and wraps and
appends a leaf each time the buffer is full. Both agree with the operations of the library on
all inputs, and neither ever meets a buffer of the wrong size.
-/

namespace LeafFringe.Buffer

open Outcome (report)

variable {α : Type}

/-- Wraps a joined run and puts it behind the settled nodes. -/
def pushMerged (settled : List (Node α)) (run : List α) : Except Fault (List (Node α)) := do
  if run.length < minLeaf then
    return settled ++ [.part (← PartialLeaf.ofBuffer run)]
  else if run.length ≤ maxLeaf then
    return settled ++ [.leaf (← Leaf.ofBuffer run)]
  else
    let (left, right) ← halves run (run.length / 2)
    return settled ++ [.leaf left, .leaf right]

/-- Puts one node behind an output. -/
def place (out : List (Node α)) (next : Node α) : Outcome (List (Node α)) := do
  match out.getLast?, next with
  | none, _ => return [next]
  | some (.leaf _), .leaf _ => return out ++ [next]
  | some (.part p), .leaf l => pushMerged out.dropLast (p.toList ++ l.toList)
  | some last, .part p =>
    report (.absorbed p.size (last.size + p.size))
    pushMerged out.dropLast (last.toList ++ p.toList)

/-- Appends one node to an output, and answers with the new output and the position that the next
node will take in it. -/
def append (out : List (Node α)) (next : Node α) : Outcome (List (Node α) × Nat) := do
  let out ← place out next
  return (out, out.length)

/-- Appends the nodes of `right` to `left`, one after the other. -/
def concat (left : List (Node α)) : List (Node α) → Outcome (List (Node α))
  | [] => return left
  | next :: right => do
    let made ← append left next
    concat made.1 right

/-- Puts the nodes of a run behind an output, of which `pending` elements are in the buffer. -/
def collect (out : List (Node α)) (pending : List α) : List α → Outcome (List (Node α))
  | [] => do
    if minLeaf ≤ pending.length then
      let made ← append out (.leaf (← Leaf.ofBuffer pending))
      return made.1
    else if pending.isEmpty then return out
    else
      let made ← append out (.part (← PartialLeaf.ofBuffer pending))
      return made.1
  | a :: rest => do
    if (pending ++ [a]).length = maxLeaf then
      let made ← append out (.leaf (← Leaf.ofBuffer (pending ++ [a])))
      collect made.1 [] rest
    else collect out (pending ++ [a]) rest

/-- The fringe of a run of elements. -/
def ofElems (run : List α) : Outcome (List (Node α)) := collect [] [] run

theorem pushMerged_eq (settled : List (Node α)) {run : List α}
    (h : run.length ≤ bufferCapacity) :
    pushMerged settled run = .ok (settled ++ Node.pack run h) := by
  have hmin := minLeaf_eq
  have hmax := maxLeaf_eq
  unfold pushMerged
  by_cases short : run.length < minLeaf
  · rw [if_pos short, PartialLeaf.ofBuffer_of_lt short, Node.pack, dif_pos (by omega),
      Node.ofRun_of_lt _ short]
    rfl
  · rw [if_neg short]
    by_cases fits : run.length ≤ maxLeaf
    · rw [if_pos fits, Leaf.ofBuffer_of_le (by omega) fits, Node.pack, dif_pos fits,
        Node.ofRun_of_le _ (by omega)]
      rfl
    · have := bufferCapacity_eq
      rw [if_neg fits, Node.pack, dif_neg fits, halves_eq_cut (by omega) (by omega) (by omega)
        (by omega)]
      rfl

theorem length_seam_le (last next : Node α) (seam : last.isPart ∨ next.isPart) :
    (last.toList ++ next.toList).length ≤ bufferCapacity := by
  have hcap : bufferCapacity + 1 = maxLeaf + minLeaf := rfl
  have hlast := last.size_le_maxLeaf
  have hnext := next.size_le_maxLeaf
  rw [last.isPart_iff, next.isPart_iff] at seam
  rw [List.length_append, Node.length_toList, Node.length_toList]
  omega

theorem place_eq (out : List (Node α)) (next : Node α) :
    place out next = .ok (LeafFringe.append out next) := by
  rcases List.eq_nil_or_concat out with rfl | ⟨settled, last, rfl⟩
  · rfl
  · rw [List.concat_eq_append, append_snoc]
    unfold place
    rw [List.getLast?_concat, List.dropLast_concat]
    cases last with
    | part p =>
      have hpush := pushMerged_eq settled (length_seam_le (.part p) next (.inl rfl))
      cases next with
      | leaf l =>
        simp only [Node.toList_part, Node.toList_leaf] at hpush
        simp [hpush, join, Node.seam?, Node.absorption, Node.isPart]
        rfl
      | part q =>
        simp only [Node.toList_part] at hpush
        simp [hpush, join, Node.seam?, Node.absorption, Node.isPart]
        rfl
    | leaf l =>
      cases next with
      | leaf k => simp [join, Node.seam?]
      | part q =>
        have hpush := pushMerged_eq settled (length_seam_le (.leaf l) (.part q) (.inr rfl))
        simp only [Node.toList_part, Node.toList_leaf] at hpush
        simp [hpush, join, Node.seam?, Node.absorption, Node.isPart]
        rfl

theorem append_eq (out : List (Node α)) (next : Node α) :
    append out next = .ok ((fun new => (new, new.length)) <$> LeafFringe.append out next) := by
  rw [append, place_eq]
  exact Outcome.ok_bind_eq rfl

/-- What follows an append makes use of the output alone. -/
theorem append_bind {out : List (Node α)} {next : Node α}
    {f : List (Node α) → Outcome (List (Node α))} {g : List (Node α) → Logged (List (Node α))}
    (h : ∀ new, f new = .ok (g new)) :
    (append out next >>= fun made => f made.1) = .ok (LeafFringe.append out next >>= g) := by
  rw [append_eq]
  exact (Outcome.ok_bind_eq (g := fun made => g made.1) (h _)).trans (by simp)

theorem concat_eq (left right : List (Node α)) :
    concat left right = .ok (LeafFringe.concat left right) := by
  induction right generalizing left with
  | nil =>
    rw [concat, concat_nil]
    rfl
  | cons next right ih =>
    rw [concat, concat_cons]
    exact append_bind ih

theorem chop_of_length_eq {run rest : List α} (h : run.length = maxLeaf) :
    chop (run ++ rest) = .leaf ⟨run, by rw [h]; decide, Nat.le_of_eq h⟩ :: chop rest := by
  have hne : (run ++ rest).isEmpty = false := by
    cases run with
    | nil => cases h
    | cons a run => rfl
  have htake : (run ++ rest).take maxLeaf = run := by rw [← h, List.take_left]
  have hdrop : (run ++ rest).drop maxLeaf = rest := by rw [← h, List.drop_left]
  rw [chop, hne]
  simp only [htake, hdrop]
  rw [Node.ofRun_of_le]
  rfl

theorem chop_of_length_lt {run : List α} (h : run.length < maxLeaf) (hne : run.isEmpty = false) :
    chop run = [Node.ofRun run (Nat.le_of_lt h)] := by
  have htake : run.take maxLeaf = run := List.take_of_length_le (Nat.le_of_lt h)
  have hdrop : run.drop maxLeaf = [] := List.drop_eq_nil_of_le (Nat.le_of_lt h)
  rw [chop, hne]
  simp only [htake, hdrop]
  rw [chop]
  rfl

theorem maxLeaf_pos : 0 < maxLeaf := by decide

/-- What is in the buffer and what is still to come are chopped as one run. -/
theorem collect_eq (out : List (Node α)) (pending rest : List α)
    (h : pending.length < maxLeaf) :
    collect out pending rest = .ok (LeafFringe.concat out (chop (pending ++ rest))) := by
  induction rest generalizing out pending with
  | nil =>
    rw [List.append_nil, collect]
    by_cases enough : minLeaf ≤ pending.length
    · have hne : pending.isEmpty = false := by
        cases pending with
        | nil => cases enough
        | cons a pending => rfl
      rw [if_pos enough, Leaf.ofBuffer_of_le enough (Nat.le_of_lt h), Outcome.lift_ok,
        Outcome.ok_pure_bind, chop_of_length_lt h hne, Node.ofRun_of_le _ enough, concat_cons]
      exact append_bind fun new => congrArg Outcome.ok (concat_nil new).symm
    · rw [if_neg enough]
      cases hne : pending.isEmpty with
      | true =>
        rw [if_pos rfl, chop, hne, if_pos rfl, concat_nil, Outcome.pure_eq_ok]
      | false =>
        have short : pending.length < minLeaf := Nat.not_le.mp enough
        rw [if_neg (by simp), PartialLeaf.ofBuffer_of_lt short, Outcome.lift_ok,
          Outcome.ok_pure_bind, chop_of_length_lt h hne, Node.ofRun_of_lt _ short, concat_cons]
        exact append_bind fun new => congrArg Outcome.ok (concat_nil new).symm
  | cons a rest ih =>
    have hsnoc : pending ++ a :: rest = (pending ++ [a]) ++ rest := by simp
    have hlen : (pending ++ [a]).length = pending.length + 1 := List.length_append
    rw [collect, hsnoc]
    split
    · rename_i full
      rw [chop_of_length_eq full, concat_cons,
        Leaf.ofBuffer_of_le (by rw [full]; decide) (Nat.le_of_eq full), Outcome.lift_ok,
        Outcome.ok_pure_bind]
      exact append_bind fun new => ih new [] maxLeaf_pos
    · exact ih out (pending ++ [a]) (by omega)

theorem ofElems_eq (run : List α) : ofElems run = .ok (LeafFringe.ofElems run) := by
  have h := collect_eq [] [] run maxLeaf_pos
  simpa [ofElems, LeafFringe.ofElems] using h

end LeafFringe.Buffer
