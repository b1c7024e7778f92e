import LeafFringe.Fringe.Basic
import Mathlib.Tactic.Common

/-!
# Shapes of lists of nodes

`check` accepts two shapes: a partial leaf alone, or leaves only. A list that is being put
together has a weaker shape, in which the last node may still be a partial leaf. Kinds are
read off sizes, so both shapes are a matter of counting.
-/

namespace LeafFringe

variable {α : Type}

/-- There is no partial leaf in the list. -/
def AllLeaves (nodes : List (Node α)) : Prop := ∀ n ∈ nodes, n.isPart = false

instance (nodes : List (Node α)) : Decidable (AllLeaves nodes) :=
  inferInstanceAs (Decidable (∀ n ∈ nodes, n.isPart = false))

/-- Only the last node may be a partial leaf. -/
def Settled (nodes : List (Node α)) : Prop := AllLeaves nodes.dropLast

instance (nodes : List (Node α)) : Decidable (Settled nodes) :=
  inferInstanceAs (Decidable (AllLeaves nodes.dropLast))

/-- A partial leaf alone, or leaves only. -/
inductive IsFringe : List (Node α) → Prop
  | tiny (p : PartialLeaf α) : IsFringe [.part p]
  | leaves {nodes : List (Node α)} (h : AllLeaves nodes) : IsFringe nodes

@[simp] theorem map_built (nodes : List (Node α)) :
    (nodes.map Carrier.built : List (Node α)) = nodes := by
  simp [Carrier.built]

@[simp] theorem allLeaves_nil : AllLeaves ([] : List (Node α)) := by simp [AllLeaves]

@[simp] theorem allLeaves_cons (n : Node α) (nodes : List (Node α)) :
    AllLeaves (n :: nodes) ↔ n.isPart = false ∧ AllLeaves nodes := by
  simp [AllLeaves]

@[simp] theorem allLeaves_append (nodes more : List (Node α)) :
    AllLeaves (nodes ++ more) ↔ AllLeaves nodes ∧ AllLeaves more := by
  simp [AllLeaves, or_imp, forall_and]

@[simp] theorem allLeaves_map_leaf (side : Option (Leaf α)) :
    AllLeaves (side.map Node.leaf).toList := by
  cases side <;> simp [Node.isPart]

theorem Leaf.size_of_append {a : Leaf α} {front back : List α} (h : a.toList = front ++ back) :
    a.size = front.length + back.length := by
  rw [← a.length_toList, h, List.length_append]

theorem Node.isPart_eq_false_iff (n : Node α) : n.isPart = false ↔ minLeaf ≤ n.size := by
  rw [← Nat.not_lt, ← n.isPart_iff, Bool.not_eq_true]

/-- A node that is no partial leaf is a leaf. -/
theorem Node.exists_leaf {n : Node α} (h : n.isPart = false) : ∃ l, n = .leaf l := by
  cases n with
  | leaf l => exact ⟨l, rfl⟩
  | part p => cases h

@[simp] theorem totalSize_nil : totalSize ([] : List (Node α)) = 0 := rfl

@[simp] theorem totalSize_cons (n : Node α) (nodes : List (Node α)) :
    totalSize (n :: nodes) = n.size + totalSize nodes := rfl

theorem AllLeaves.minLeaf_le_totalSize {nodes : List (Node α)} (h : AllLeaves nodes)
    (hne : nodes ≠ []) : minLeaf ≤ totalSize nodes := by
  obtain ⟨n, rest, rfl⟩ := List.exists_cons_of_ne_nil hne
  have hn := (n.isPart_eq_false_iff).mp ((allLeaves_cons n rest).mp h).1
  rw [totalSize_cons]
  omega

/-- No node holds more than a full leaf. -/
theorem totalSize_le (nodes : List (Node α)) : totalSize nodes ≤ nodes.length * maxLeaf := by
  induction nodes with
  | nil => exact Nat.zero_le _
  | cons n nodes ih =>
    have hn := n.size_le_maxLeaf
    rw [totalSize_cons, List.length_cons, Nat.succ_mul]
    omega

theorem AllLeaves.le_totalSize {nodes : List (Node α)} (h : AllLeaves nodes) :
    nodes.length * minLeaf ≤ totalSize nodes := by
  induction nodes with
  | nil => exact Nat.le_of_eq (Nat.zero_mul _)
  | cons n nodes ih =>
    obtain ⟨hleaf, hrest⟩ := (allLeaves_cons n nodes).mp h
    have hn := n.isPart_eq_false_iff.mp hleaf
    have hnodes := ih hrest
    rw [totalSize_cons, List.length_cons, Nat.succ_mul]
    omega

theorem size_le_totalSize {nodes : List (Node α)} {n : Node α} (h : n ∈ nodes) :
    n.size ≤ totalSize nodes := by
  induction nodes with
  | nil => cases h
  | cons m nodes ih =>
    rw [totalSize_cons]
    rcases List.mem_cons.mp h with rfl | hmem
    · exact Nat.le_add_right _ _
    · have := ih hmem
      omega

theorem isFringe_single (n : Node α) : IsFringe [n] := by
  cases n with
  | leaf l => exact .leaves (by simp [Node.isPart])
  | part p => exact .tiny p

/-- Enough elements for a leaf are never kept in a partial leaf. -/
theorem IsFringe.allLeaves_iff {nodes : List (Node α)} (h : IsFringe nodes) (hne : nodes ≠ []) :
    AllLeaves nodes ↔ minLeaf ≤ totalSize nodes := by
  constructor
  · intro ha
    exact ha.minLeaf_le_totalSize hne
  · intro hs
    cases h with
    | tiny p =>
      have := p.size_lt_minLeaf
      rw [totalSize_cons, Node.size_part, totalSize_nil] at hs
      omega
    | leaves ha => exact ha

/-- In a fringe with too few elements for a leaf there is a partial leaf only. -/
theorem IsFringe.isPart_iff {nodes : List (Node α)} (h : IsFringe nodes) {n : Node α}
    (hn : n ∈ nodes) : n.isPart = true ↔ totalSize nodes < minLeaf := by
  have hne := List.ne_nil_of_mem hn
  constructor
  · intro hpart
    rw [← Nat.not_le, ← h.allLeaves_iff hne]
    intro hleaves
    rw [hleaves n hn] at hpart
    exact Bool.false_ne_true hpart
  · intro hlt
    exact n.isPart_iff.mpr (Nat.lt_of_le_of_lt (size_le_totalSize hn) hlt)

theorem IsFringe.settled {nodes : List (Node α)} (h : IsFringe nodes) : Settled nodes := by
  cases h with
  | tiny p => exact allLeaves_nil
  | leaves ha =>
    intro n hn
    exact ha n (List.dropLast_subset _ hn)

/-- In front of more nodes there may only be leaves. -/
theorem isFringe_append_iff {nodes more : List (Node α)} (hn : nodes ≠ []) (hm : more ≠ []) :
    IsFringe (nodes ++ more) ↔ AllLeaves nodes ∧ AllLeaves more := by
  constructor
  · intro h
    generalize hout : nodes ++ more = out at h
    cases h with
    | tiny p =>
      have := congrArg List.length hout
      have := List.length_pos_iff.mpr hn
      have := List.length_pos_iff.mpr hm
      simp only [List.length_append, List.length_singleton] at *
      omega
    | leaves ha =>
      subst hout
      exact (allLeaves_append nodes more).mp ha
  · intro h
    exact .leaves ((allLeaves_append nodes more).mpr h)

theorem find?_isPart_eq_none_iff (nodes : List (Node α)) :
    nodes.find? Node.isPart = none ↔ AllLeaves nodes := by
  simp [AllLeaves]

/-- A list is accepted with the number of its elements or not at all, and accepted lists are
the fringes. -/
theorem check_eq_ok_iff (nodes : List (Node α)) (count : Nat) :
    check nodes = .ok count ↔ IsFringe nodes ∧ count = totalSize nodes := by
  unfold check
  split
  · rename_i p
    simp [IsFringe.tiny p, eq_comm]
  · rename_i hsole
    have hfringe : IsFringe nodes ↔ AllLeaves nodes := by
      constructor
      · intro h
        cases h with
        | tiny p => exact absurd rfl (hsole p)
        | leaves ha => exact ha
      · exact .leaves
    rw [hfringe, ← find?_isPart_eq_none_iff]
    cases nodes.find? Node.isPart <;> simp [eq_comm]

theorem IsFringe.check_eq {nodes : List (Node α)} (h : IsFringe nodes) :
    check nodes = .ok (totalSize nodes) :=
  (check_eq_ok_iff nodes _).mpr ⟨h, rfl⟩

instance (nodes : List (Node α)) : Decidable (IsFringe nodes) :=
  decidable_of_iff (check nodes = .ok (totalSize nodes)) (by simp [check_eq_ok_iff])

theorem accepted_iff_isFringe (nodes : List (Node α)) :
    (∃ count, check nodes = .ok count) ↔ IsFringe nodes := by
  simp [check_eq_ok_iff]

end LeafFringe
