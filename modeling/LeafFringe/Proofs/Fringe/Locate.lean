import LeafFringe.Fringe.Locate
import LeafFringe.Proofs.Fringe.Shape

/-!
# Focusing on one node

`locate` answers for every position inside of a list, with an offset inside of the node it
has found. Among leaves the focus is the site of an edit, and splicing keeps all elements
around the new ones.
-/

namespace LeafFringe

variable {α : Type}

/-- What a position may be in a sequence of the given size. -/
def Aim.Within : Aim → (pos size : Nat) → Prop
  | element, pos, size => pos < size
  | gap _, pos, size => pos ≤ size

theorem Aim.within_of_accepts {aim : Aim} {pos size : Nat} {isLast : Bool}
    (h : aim.accepts pos size isLast = true) : aim.Within pos size := by
  cases aim with
  | element => simpa [accepts, Within] using h
  | gap bias =>
    cases bias with
    | left => simpa [accepts, Within] using h
    | right =>
      simp only [accepts, Bool.or_eq_true, Bool.and_eq_true, decide_eq_true_eq,
        beq_iff_eq] at h
      unfold Within
      omega

/-- A position that the first node does not take lies in the others. -/
theorem Aim.within_rest {aim : Aim} {pos size rest : Nat} {isLast : Bool}
    (hpos : aim.Within pos (size + rest)) (hlast : isLast = true → rest = 0)
    (h : aim.accepts pos size isLast = false) :
    isLast = false ∧ size ≤ pos ∧ aim.Within (pos - size) rest := by
  cases aim with
  | element =>
    simp only [accepts, decide_eq_false_iff_not] at h
    simp only [Within] at hpos ⊢
    cases isLast <;> simp at hlast ⊢ <;> omega
  | gap bias =>
    simp only [Within] at hpos ⊢
    cases bias with
    | left =>
      simp only [accepts, decide_eq_false_iff_not] at h
      cases isLast <;> simp at hlast ⊢ <;> omega
    | right =>
      simp only [accepts, Bool.or_eq_false_iff, decide_eq_false_iff_not] at h
      cases isLast <;> simp at hlast h ⊢ <;> omega

theorem exists_locate (aim : Aim) {nodes : List (Node α)} (hne : nodes ≠ []) {pos : Nat}
    (hpos : aim.Within pos (totalSize nodes)) :
    ∃ f, locate aim nodes pos = some f ∧ totalSize f.before + f.offset = pos ∧
      aim.Within f.offset f.node.size := by
  induction nodes generalizing pos with
  | nil => exact absurd rfl hne
  | cons n rest ih =>
    rw [totalSize_cons] at hpos
    cases ha : aim.accepts pos n.size rest.isEmpty with
    | true =>
      refine ⟨⟨[], n, rest, pos⟩, ?_, Nat.zero_add pos, Aim.within_of_accepts ha⟩
      rw [locate, if_pos ha]
    | false =>
      have hlast : rest.isEmpty = true → totalSize rest = 0 := by
        intro h
        rw [List.isEmpty_iff.mp h, totalSize_nil]
      obtain ⟨hmore, hle, hrest⟩ := Aim.within_rest hpos hlast ha
      obtain ⟨f, hf, hoffset, hwithin⟩ := ih (by simpa using hmore) hrest
      refine ⟨{ f with before := n :: f.before }, ?_, ?_, hwithin⟩
      · simp [locate, ha, hf]
      · simp only [totalSize_cons]
        omega

/-- Options of nodes that are no partial leaves are options of leaves. -/
theorem exists_mapM_asLeaf (side : Option (Node α)) (h : ∀ n ∈ side, n.isPart = false) :
    ∃ leaf?, side.mapM Node.asLeaf = .ok leaf? ∧ side = leaf?.map Node.leaf := by
  cases side with
  | none => exact ⟨none, rfl, rfl⟩
  | some n =>
    obtain ⟨l, rfl⟩ := Node.exists_leaf (h n rfl)
    exact ⟨some l, rfl, rfl⟩

namespace Focus

/-- Around a focus among leaves there is a site to edit. -/
structure IsSite (f : Focus α) (s : Site α) : Prop where
  site : f.site = .ok s
  node : f.node = .leaf s.node
  left : f.left? = s.left.map Node.leaf
  right : f.right? = s.right.map Node.leaf

theorem exists_isSite {f : Focus α} (h : AllLeaves f.nodes) : ∃ s, f.IsSite s := by
  simp only [nodes, allLeaves_append, allLeaves_cons] at h
  obtain ⟨hbefore, hnode, hafter⟩ := h
  obtain ⟨left, hmapl, hleft⟩ := exists_mapM_asLeaf f.left? (by
    intro n hn
    exact hbefore n (List.mem_of_getLast? hn))
  obtain ⟨right, hmapr, hright⟩ := exists_mapM_asLeaf f.right? (by
    intro n hn
    exact hafter n (List.mem_of_head? hn))
  obtain ⟨l, hl⟩ := Node.exists_leaf hnode
  have hsite : f.site = .ok ⟨left, l, right⟩ := by
    rw [site, hmapl, hmapr, hl]
    rfl
  exact ⟨_, hsite, hl, hleft, hright⟩

/-- The nodes before the focus, apart from the neighbour. -/
theorem dropLast_left? (f : Focus α) : f.before.dropLast ++ f.left?.toList = f.before := by
  rcases List.eq_nil_or_concat f.before with h | ⟨init, last, h⟩ <;> simp [left?, h]

theorem right?_tail (f : Focus α) : f.right?.toList ++ f.after.tail = f.after := by
  cases h : f.after <;> simp [right?, h]

theorem allLeaves_splice {f : Focus α} {new : List (Node α)} (h : AllLeaves f.nodes)
    (hnew : AllLeaves new) : AllLeaves (f.splice new) := by
  simp only [nodes, allLeaves_append, allLeaves_cons] at h
  simp only [splice, allLeaves_append]
  refine ⟨⟨?_, hnew⟩, ?_⟩
  · intro n hn
    exact h.1 n (List.dropLast_subset _ hn)
  · intro n hn
    exact h.2.2 n (List.mem_of_mem_tail hn)

namespace IsSite

variable {f : Focus α} {s : Site α}

theorem flatten_nodes (h : f.IsSite s) :
    flatten f.nodes = flatten f.before ++ s.node.toList ++ flatten f.after := by
  simp [nodes, h.node]

theorem flatten_splice (h : f.IsSite s) {new : List (Node α)} {run : List α}
    (hnew : flatten new =
      flatten (s.left.map Node.leaf).toList ++ run ++ flatten (s.right.map Node.leaf).toList) :
    flatten (f.splice new) = flatten f.before ++ run ++ flatten f.after := by
  rw [← h.left, ← h.right] at hnew
  calc
    flatten (f.splice new) =
        flatten (f.before.dropLast ++ f.left?.toList) ++ run ++
          flatten (f.right?.toList ++ f.after.tail) := by
      simp [splice, hnew]
    _ = flatten f.before ++ run ++ flatten f.after := by
      rw [f.dropLast_left?, f.right?_tail]

/-- Without neighbours there is nothing else in the list. -/
theorem splice_alone (h : f.IsSite s) (hleft : s.left = none) (hright : s.right = none)
    (new : List (Node α)) : f.splice new = new := by
  have hl := h.left
  have hr := h.right
  rw [hleft] at hl
  rw [hright] at hr
  have hbefore : f.before = [] := List.getLast?_eq_none_iff.mp hl
  have hafter : f.after = [] := List.head?_eq_none_iff.mp hr
  simp [splice, hbefore, hafter]

end IsSite

end Focus

/-- Among leaves, every position inside leads to a site, and lies in the leaf to edit there. -/
theorem exists_focus (aim : Aim) {nodes : List (Node α)} (h : AllLeaves nodes) (hne : nodes ≠ [])
    {pos : Nat} (hpos : aim.Within pos (totalSize nodes)) :
    ∃ (f : Focus α) (s : Site α), locate aim nodes pos = some f ∧ f.nodes = nodes ∧
      (flatten f.before).length + f.offset = pos ∧ f.IsSite s ∧
      aim.Within f.offset s.node.size := by
  obtain ⟨f, hf, hoffset, hwithin⟩ := exists_locate aim hne hpos
  have hnodes := nodes_of_locate hf
  rw [← hnodes] at h
  obtain ⟨s, hs⟩ := Focus.exists_isSite h
  rw [hs.node] at hwithin
  rw [← length_flatten] at hoffset
  exact ⟨f, s, hf, hnodes, hoffset, hs, hwithin⟩

end LeafFringe
