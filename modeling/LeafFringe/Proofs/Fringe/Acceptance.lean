import LeafFringe.Proofs.Buffer.Fringe
import LeafFringe.Proofs.Fringe.Seam

/-!
# Which lists of nodes are accepted

A list is checked from its front: every leaf is measured once more, and the first partial leaf
that is met is blamed. Since no leaf was ever built with a wrong size, measuring finds nothing,
and a list is refused for its first partial leaf or not at all. Of a list that is accepted the
number of nodes is known up to the bounds of a leaf.
-/

namespace LeafFringe

variable {α : Type}

namespace Buffer

/-- Measures the nodes one after the other, up to the first partial leaf. -/
def checkAll : List (Node α) → Except Fault Nat
  | [] => .ok 0
  | .part p :: _ => .error (.violation (.strayPart p.size))
  | .leaf l :: rest => do
    let size ← (Node.leaf l).remeasure
    let count ← checkAll rest
    return size + count

/-- The number of elements of a list of nodes. A partial leaf alone is measured, too. -/
def check : List (Node α) → Except Fault Nat
  | [.part p] => (Node.part p).remeasure
  | nodes => checkAll nodes

/-- A leaf is never refused, so that the nodes behind it decide. -/
theorem checkAll_leaf (l : Leaf α) (rest : List (Node α)) :
    checkAll (.leaf l :: rest) = (l.size + ·) <$> checkAll rest := by
  rw [checkAll, Node.remeasure_eq, ok_bind, Node.size_leaf]
  cases checkAll rest <;> rfl

theorem checkAll_of_allLeaves {nodes : List (Node α)} (h : AllLeaves nodes) :
    checkAll nodes = .ok (totalSize nodes) := by
  induction nodes with
  | nil => rfl
  | cons n nodes ih =>
    obtain ⟨hn, hnodes⟩ := (allLeaves_cons n nodes).mp h
    obtain ⟨l, rfl⟩ := Node.exists_leaf hn
    rw [checkAll_leaf, ih hnodes, ok_map, totalSize_cons, Node.size_leaf]

/-- What stands behind the first partial leaf is not looked at. -/
theorem checkAll_of_first_part {before : List (Node α)} (h : AllLeaves before)
    (p : PartialLeaf α) (after : List (Node α)) :
    checkAll (before ++ .part p :: after) = .error (.violation (.strayPart p.size)) := by
  induction before with
  | nil => rfl
  | cons n before ih =>
    obtain ⟨hn, hbefore⟩ := (allLeaves_cons n before).mp h
    obtain ⟨l, rfl⟩ := Node.exists_leaf hn
    rw [List.cons_append, checkAll_leaf, ih hbefore]
    rfl

end Buffer

/-- In a list that is not of leaves only there is a first partial leaf. -/
theorem exists_first_part {nodes : List (Node α)} (h : ¬ AllLeaves nodes) :
    ∃ before p after, nodes = before ++ .part p :: after ∧ AllLeaves before := by
  induction nodes with
  | nil => exact absurd allLeaves_nil h
  | cons n nodes ih =>
    cases n with
    | part p => exact ⟨[], p, nodes, rfl, allLeaves_nil⟩
    | leaf l =>
      have hnodes : ¬ AllLeaves nodes := by
        intro hall
        exact h ((allLeaves_cons _ nodes).mpr ⟨rfl, hall⟩)
      obtain ⟨before, p, after, rfl, hbefore⟩ := ih hnodes
      exact ⟨.leaf l :: before, p, after, rfl, (allLeaves_cons _ before).mpr ⟨rfl, hbefore⟩⟩

theorem isFringe_iff (nodes : List (Node α)) :
    IsFringe nodes ↔ SolePart nodes ∨ AllLeaves nodes := by
  constructor
  · intro h
    cases h with
    | tiny p => exact .inl ⟨p, rfl⟩
    | leaves ha => exact .inr ha
  · rintro (⟨p, rfl⟩ | ha)
    · exact .tiny p
    · exact .leaves ha

/-- A partial leaf with company is blamed, unless there is another one before it. -/
theorem check_of_first_part {before : List (Node α)} (h : AllLeaves before)
    {p : PartialLeaf α} {after : List (Node α)} (hsole : ¬ SolePart (before ++ .part p :: after)) :
    check (before ++ .part p :: after) = .error (.violation (.strayPart p.size)) := by
  have hfind : (before ++ .part p :: after).find? Node.isPart = some (.part p) := by
    rw [List.find?_append, (find?_isPart_eq_none_iff before).mpr h]
    rfl
  unfold check
  split
  · rename_i q hq
    exact absurd ⟨q, hq⟩ hsole
  · rw [hfind]
    rfl

theorem Buffer.check_eq (nodes : List (Node α)) : check nodes = LeafFringe.check nodes := by
  by_cases hsole : SolePart nodes
  · obtain ⟨p, rfl⟩ := hsole
    exact Node.remeasure_eq (.part p)
  · have hall : check nodes = checkAll nodes := by
      unfold check
      split
      · exact absurd ⟨_, rfl⟩ hsole
      · rfl
    rw [hall]
    by_cases h : AllLeaves nodes
    · rw [checkAll_of_allLeaves h, (IsFringe.leaves h).check_eq]
    · obtain ⟨before, p, after, rfl, hbefore⟩ := exists_first_part h
      rw [checkAll_of_first_part hbefore, check_of_first_part hbefore hsole]

/-- As many elements need so many leaves, and fill no more than so many. -/
theorem AllLeaves.length_bounds {nodes : List (Node α)} (h : AllLeaves nodes) :
    (totalSize nodes + maxLeaf - 1) / maxLeaf ≤ nodes.length ∧
      nodes.length ≤ totalSize nodes / minLeaf := by
  have hfull := totalSize_le nodes
  have hleast := h.le_totalSize
  rw [Nat.mul_comm] at hfull
  constructor
  · rw [Nat.div_le_iff_le_mul_add_pred Buffer.maxLeaf_pos]
    omega
  · exact (Nat.le_div_iff_mul_le (by decide)).mpr hleast

/-- Accepted are a partial leaf alone and lists without a partial leaf, with the number of their
elements. Of any other list the first partial leaf is named, and never a size. -/
theorem check_is_exact (nodes : List (Node α)) :
    ((∃ count, check nodes = .ok count) ↔ SolePart nodes ∨ ∀ n ∈ nodes, n.isPart = false) ∧
    (∀ count, check nodes = .ok count → count = (flatten nodes).length) ∧
    (¬ (SolePart nodes ∨ ∀ n ∈ nodes, n.isPart = false) →
      ∃ before p after, nodes = before ++ .part p :: after ∧ (∀ n ∈ before, n.isPart = false) ∧
        check nodes = .error (.violation (.strayPart p.size)) ∧
        ∀ name, Violation.message name (.strayPart p.size) =
          "stray partial leaf of size " ++ toString p.size ++ " in a fringe") ∧
    Buffer.check nodes = check nodes ∧
    (∀ count, check nodes = .ok count → ¬ SolePart nodes →
      (count + maxLeaf - 1) / maxLeaf ≤ nodes.length ∧ nodes.length ≤ count / minLeaf) := by
  refine ⟨?_, ?_, ?_, Buffer.check_eq nodes, ?_⟩
  · rw [accepted_iff_isFringe]
    exact isFringe_iff nodes
  · intro count h
    rw [length_flatten]
    exact ((check_eq_ok_iff nodes count).mp h).2
  · intro h
    rw [not_or] at h
    obtain ⟨hsole, hleaves⟩ := h
    obtain ⟨before, p, after, rfl, hbefore⟩ := exists_first_part hleaves
    exact ⟨before, p, after, rfl, hbefore, check_of_first_part hbefore hsole, fun _ => rfl⟩
  · intro count h hsole
    obtain ⟨hfringe, rfl⟩ := (check_eq_ok_iff nodes count).mp h
    exact (hfringe.allLeaves_of_not_solePart hsole).length_bounds

/-- Three leaves with 31 elements; and a list with a partial leaf of two elements among leaves,
which is named although an empty one stands behind it. -/
theorem check_is_exact_with_two_partial_leaves :
    let least : Node Nat := .leaf ⟨List.range 8, by decide, by decide⟩
    let full : Node Nat := .leaf ⟨List.range 15, by decide, by decide⟩
    let two : Node Nat := .part ⟨List.range 2, by decide⟩
    let empty : Node Nat := .part ⟨[], by decide⟩
    let accepted := [least, full, least]
    let refused := [least, two, full, empty]
    check accepted = .ok 31 ∧ ¬ SolePart accepted ∧
      (31 + maxLeaf - 1) / maxLeaf ≤ accepted.length ∧ accepted.length ≤ 31 / minLeaf ∧
      ¬ (SolePart refused ∨ ∀ n ∈ refused, n.isPart = false) ∧
      ∃ before p after, refused = before ++ .part p :: after ∧
        (∀ n ∈ before, n.isPart = false) ∧ p.size = 2 ∧
        check refused = .error (.violation (.strayPart p.size)) := by
  intro least full two empty accepted refused
  have haccepted : check accepted = .ok 31 := rfl
  have hsole : ¬ SolePart accepted := by simp [SolePart, accepted]
  have hstray : ¬ (SolePart refused ∨ ∀ n ∈ refused, n.isPart = false) := by
    simp [SolePart, refused, two, Node.isPart]
  obtain ⟨-, -, -, -, hbounds⟩ := check_is_exact accepted
  obtain ⟨hfewest, hmost⟩ := hbounds 31 haccepted hsole
  obtain ⟨-, -, hblamed, -, -⟩ := check_is_exact refused
  obtain ⟨before, p, after, heq, hbefore, hcheck, -⟩ := hblamed hstray
  refine ⟨haccepted, hsole, hfewest, hmost, hstray, before, p, after, heq, hbefore, ?_, hcheck⟩
  have htwo : check refused = .error (.violation (.strayPart 2)) := rfl
  simpa [hcheck] using htwo

end LeafFringe
