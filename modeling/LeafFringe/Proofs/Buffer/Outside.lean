import LeafFringe.Proofs.Buffer.Basic

/-!
# Elements from outside

How many elements come from outside is not known beforehand. They are counted one by one, and
only those that fit are stored; the others are counted all the same, so that a refusal names
the length of the whole run. Whoever has the elements in a buffer already only measures it. Both
ways lead to the same nodes, and a run of any length fits one kind of node or none.
-/

namespace LeafFringe

variable {α : Type}

section Bounds

variable {run : List α}

theorem Leaf.ofList_of_fits (h : minLeaf ≤ run.length ∧ run.length ≤ maxLeaf) :
    Leaf.ofList run = .ok ⟨run, h.1, h.2⟩ :=
  dif_pos h

theorem Leaf.ofList_of_not_fits (h : ¬ (minLeaf ≤ run.length ∧ run.length ≤ maxLeaf)) :
    Leaf.ofList run = .error (.leaf run.length) :=
  dif_neg h

theorem Leaf.ofBuffer_of_not_fits (h : ¬ (minLeaf ≤ run.length ∧ run.length ≤ maxLeaf)) :
    Leaf.ofBuffer run = .error (.violation (.leafSize run.length)) :=
  dif_neg h

theorem PartialLeaf.ofList_of_lt (h : run.length < minLeaf) :
    PartialLeaf.ofList run = .ok ⟨run, h⟩ :=
  dif_pos h

theorem PartialLeaf.ofList_of_le (h : minLeaf ≤ run.length) :
    PartialLeaf.ofList run = .error (.part run.length) :=
  dif_neg (Nat.not_lt.mpr h)

theorem PartialLeaf.ofBuffer_of_le (h : minLeaf ≤ run.length) :
    PartialLeaf.ofBuffer run = .error (.violation (.partSize run.length)) :=
  dif_neg (Nat.not_lt.mpr h)

end Bounds

namespace Buffer

/-- How many elements have come, and those of them that were stored. -/
structure Tally (α : Type) where
  found : Nat := 0
  stored : List α := []

/-- Counts one more element, and stores it if it is among the first `room` ones. -/
def Tally.add (room : Nat) (t : Tally α) (a : α) : Tally α where
  found := t.found + 1
  stored := if t.found + 1 ≤ room then t.stored ++ [a] else t.stored

def tally (room : Nat) (run : List α) : Tally α := run.foldl (Tally.add room) {}

/-- A leaf of the elements, or the reason why there is none. What was stored is measured once
more when it is wrapped. -/
def leafOf (run : List α) : Except Fault (Except ArityError (Leaf α)) :=
  let t := tally maxLeaf run
  if minLeaf ≤ t.found ∧ t.found ≤ maxLeaf then .ok <$> Leaf.ofBuffer t.stored
  else .ok (.error (.leaf t.found))

/-- A partial leaf of the elements, or the reason why there is none. -/
def partOf (run : List α) : Except Fault (Except ArityError (PartialLeaf α)) :=
  let t := tally (minLeaf - 1) run
  if t.found < minLeaf then .ok <$> PartialLeaf.ofBuffer t.stored
  else .ok (.error (.part t.found))

theorem foldl_add (room : Nat) (t : Tally α) (run : List α) :
    run.foldl (Tally.add room) t =
      ⟨t.found + run.length, t.stored ++ run.take (room - t.found)⟩ := by
  induction run generalizing t with
  | nil => simp
  | cons a run ih =>
    rw [List.foldl_cons, ih, Tally.add]
    by_cases h : t.found + 1 ≤ room
    · have hroom : room - t.found = room - (t.found + 1) + 1 := by omega
      simp [h, hroom, Nat.add_assoc, Nat.add_comm 1]
    · have hfull : room - t.found = 0 := by omega
      have hfull' : room - (t.found + 1) = 0 := by omega
      simp [h, hfull, hfull', Nat.add_assoc, Nat.add_comm 1]

/-- All elements are counted, and the first ones are stored. -/
theorem tally_eq (room : Nat) (run : List α) : tally room run = ⟨run.length, run.take room⟩ := by
  rw [tally, foldl_add]
  simp

theorem leafOf_eq (run : List α) : leafOf run = .ok (Leaf.ofList run) := by
  rw [leafOf, tally_eq]
  by_cases h : minLeaf ≤ run.length ∧ run.length ≤ maxLeaf
  · have hstored : run.take maxLeaf = run := List.take_of_length_le h.2
    rw [if_pos h, Leaf.ofList_of_fits h]
    simp only [hstored]
    rw [Leaf.ofBuffer_of_le h.1 h.2, ok_map]
  · rw [if_neg h, Leaf.ofList_of_not_fits h]

theorem partOf_eq (run : List α) : partOf run = .ok (PartialLeaf.ofList run) := by
  rw [partOf, tally_eq]
  by_cases h : run.length < minLeaf
  · have hstored : run.take (minLeaf - 1) = run := List.take_of_length_le (by omega)
    rw [if_pos h, PartialLeaf.ofList_of_lt h]
    simp only [hstored]
    rw [PartialLeaf.ofBuffer_of_lt h, ok_map]
  · rw [if_neg h, PartialLeaf.ofList_of_le (Nat.not_lt.mp h)]

end Buffer

/-- What becomes of a run that is meant as one kind of node, where its elements are `counted` as
they come and where a buffer of them is `measured`. -/
structure Admitted {β : Type} (toList : β → List α) (run : List α) (fits : Prop)
    (counted : Except ArityError β) (measured : Except Fault β) (refusal : ArityError)
    (violation : Violation) : Prop where
  accepted_iff : (∃ node, counted = .ok node) ↔ fits
  /-- The node holds the run, and is the same in both ways. -/
  accepted (node : β) : counted = .ok node → toList node = run ∧ measured = .ok node
  refused : ¬ fits → counted = .error refusal ∧ measured = .error (.violation violation)
  found_eq : refusal.found = run.length

namespace Admitted

variable {β : Type} {toList : β → List α} {run : List α} {fits : Prop}
  {counted : Except ArityError β} {measured : Except Fault β} {refusal : ArityError}
  {violation : Violation}

theorem of_fits (h : fits) {node : β} (hcounted : counted = .ok node)
    (hmeasured : measured = .ok node) (hlist : toList node = run)
    (hfound : refusal.found = run.length) :
    Admitted toList run fits counted measured refusal violation where
  accepted_iff := by simp [hcounted, h]
  accepted other hother := by
    rw [hcounted] at hother
    cases hother
    exact ⟨hlist, hmeasured⟩
  refused hnot := absurd h hnot
  found_eq := hfound

theorem of_not_fits (h : ¬ fits) (hcounted : counted = .error refusal)
    (hmeasured : measured = .error (.violation violation))
    (hfound : refusal.found = run.length) :
    Admitted toList run fits counted measured refusal violation where
  accepted_iff := by simp [hcounted, h]
  accepted other hother := by
    rw [hcounted] at hother
    cases hother
  refused _ := ⟨hcounted, hmeasured⟩
  found_eq := hfound

end Admitted

theorem admitted_leaf (run : List α) :
    Admitted Leaf.toList run (minLeaf ≤ run.length ∧ run.length ≤ maxLeaf) (Leaf.ofList run)
      (Leaf.ofBuffer run) (.leaf run.length) (.leafSize run.length) := by
  by_cases h : minLeaf ≤ run.length ∧ run.length ≤ maxLeaf
  · exact .of_fits h (Leaf.ofList_of_fits h) (Leaf.ofBuffer_of_le h.1 h.2) rfl rfl
  · exact .of_not_fits h (Leaf.ofList_of_not_fits h) (Leaf.ofBuffer_of_not_fits h) rfl

theorem admitted_part (run : List α) :
    Admitted PartialLeaf.toList run (run.length < minLeaf) (PartialLeaf.ofList run)
      (PartialLeaf.ofBuffer run) (.part run.length) (.partSize run.length) := by
  by_cases h : run.length < minLeaf
  · exact .of_fits h (PartialLeaf.ofList_of_lt h) (PartialLeaf.ofBuffer_of_lt h) rfl rfl
  · have hle := Nat.not_lt.mp h
    exact .of_not_fits h (PartialLeaf.ofList_of_le hle) (PartialLeaf.ofBuffer_of_le hle) rfl

/-- A run of any length is admitted as the one kind of node that it fits, and what is too long for
a leaf as none. To count the elements one by one while some of them are stored comes to the
same, and so does measuring a buffer of them; a refusal names the length of the whole run. -/
theorem outside_runs_fit_one_kind (run : List α) :
    Admitted Leaf.toList run (minLeaf ≤ run.length ∧ run.length ≤ maxLeaf) (Leaf.ofList run)
      (Leaf.ofBuffer run) (.leaf run.length) (.leafSize run.length) ∧
    Admitted PartialLeaf.toList run (run.length < minLeaf) (PartialLeaf.ofList run)
      (PartialLeaf.ofBuffer run) (.part run.length) (.partSize run.length) ∧
    Buffer.leafOf run = .ok (Leaf.ofList run) ∧
    Buffer.partOf run = .ok (PartialLeaf.ofList run) ∧
    ¬ ((∃ l, Leaf.ofList run = .ok l) ∧ ∃ p, PartialLeaf.ofList run = .ok p) ∧
    ((¬ ∃ l, Leaf.ofList run = .ok l) ∧ (¬ ∃ p, PartialLeaf.ofList run = .ok p) ↔
      maxLeaf < run.length) ∧
    ∀ name, (Violation.leafSize run.length).message name =
        "wrong " ++ name ++ " size: " ++ toString run.length ∧
      (Violation.partSize run.length).message name =
        "wrong partial " ++ name ++ " size: " ++ toString run.length := by
  have hleaf := admitted_leaf run
  have hpart := admitted_part run
  have := minLeaf_eq
  have := maxLeaf_eq
  refine ⟨hleaf, hpart, Buffer.leafOf_eq run, Buffer.partOf_eq run, ?_, ?_, fun _ => ⟨rfl, rfl⟩⟩
  · rw [hleaf.accepted_iff, hpart.accepted_iff]
    omega
  · rw [hleaf.accepted_iff, hpart.accepted_iff]
    omega

/-- Of twenty elements fifteen are stored, and all of them are counted. -/
example : Buffer.tally maxLeaf (List.range 20) = ⟨20, List.range 15⟩ ∧
    Buffer.leafOf (List.range 20) = .ok (.error (.leaf 20)) := ⟨rfl, rfl⟩

end LeafFringe
