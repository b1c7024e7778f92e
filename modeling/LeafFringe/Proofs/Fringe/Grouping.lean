import LeafFringe.Proofs.Fringe.Seam

/-!
# Grouping of concatenations

Three fringes have two seams. A leaf in the middle keeps them apart: what happens at one seam
ends in leaves, and leaves have no part in what happens at the other. Only where both seams
need the same node does the order of the two concatenations matter.
-/

namespace LeafFringe

variable {α : Type}

/-- Leaves that come behind a leaf in the end are moved as they are. -/
theorem concat_append_leaves {left right more : List (Node α)}
    (h : AllLeaves (concat left right).value) (hmore : AllLeaves more) :
    (concat left (right ++ more)).value = (concat left right).value ++ more := by
  rw [concat_append, Logged.value_bind, concat_of_leaves h.of_getLast? hmore,
    Logged.value_pure]

theorem value_concat_leaves {left right : List (Node α)} (hleft : AllLeaves left)
    (hright : AllLeaves right) : (concat left right).value = left ++ right := by
  rw [concat_of_leaves hleft.of_getLast? hright, Logged.value_pure]

theorem value_concat_append_left (settled : List (Node α)) {left : List (Node α)}
    (h : left ≠ []) (right : List (Node α)) :
    (concat (settled ++ left) right).value = settled ++ (concat left right).value := by
  rw [concat_append_left settled h, Logged.value_map]

/-- A fringe with enough elements for a leaf has leaves only. -/
theorem allLeaves_concat {left right : List (Node α)} (h : IsFringe left)
    (hsize : minLeaf ≤ totalSize left + totalSize right) :
    AllLeaves (concat left right).value := by
  rcases eq_or_ne (concat left right).value [] with hnil | hne
  · rw [hnil]
    exact allLeaves_nil
  · rw [(isFringe_concat h right).allLeaves_iff hne, totalSize_concat]
    exact hsize

theorem allLeaves_concat_leaf {left : List (Node α)} (h : IsFringe left) (y : Leaf α) :
    AllLeaves (concat left [.leaf y]).value := by
  apply allLeaves_concat h
  have := y.minLeaf_le_size
  rw [totalSize_cons, Node.size_leaf]
  omega

theorem allLeaves_leaf_concat (y : Leaf α) (right : List (Node α)) :
    AllLeaves (concat [.leaf y] right).value := by
  apply allLeaves_concat (isFringe_single _)
  have := y.minLeaf_le_size
  rw [totalSize_cons, Node.size_leaf]
  omega

section Grouping

variable {a c : List (Node α)}

/-- Two leaves in the middle: each seam has one of its own. -/
theorem concat_assoc_of_leaves (ha : IsFringe a) (first : Leaf α) {between : List (Node α)}
    (hbetween : AllLeaves between) (last : Leaf α) :
    (concat (concat a (.leaf first :: (between ++ [.leaf last]))).value c).value =
      (concat a (concat (.leaf first :: (between ++ [.leaf last])) c).value).value := by
  have hfront := allLeaves_concat_leaf ha first
  have hback := allLeaves_leaf_concat last c
  have hmiddle : AllLeaves (between ++ [.leaf last]) := by
    simpa [Node.isPart] using hbetween
  have hleft : (concat a (.leaf first :: (between ++ [.leaf last]))).value =
      (concat a [.leaf first]).value ++ between ++ [.leaf last] := by
    rw [← List.singleton_append, concat_append_leaves hfront hmiddle, List.append_assoc]
  have hright : (concat (.leaf first :: (between ++ [.leaf last])) c).value =
      [.leaf first] ++ (between ++ (concat [.leaf last] c).value) := by
    rw [← List.cons_append, value_concat_append_left _ (by simp)]
    simp
  rw [hleft, hright, value_concat_append_left _ (by simp), concat_append_leaves hfront
    ((allLeaves_append _ _).mpr ⟨hbetween, hback⟩), List.append_assoc]

/-- One leaf in the middle that is merged with nothing in front of it. -/
theorem concat_assoc_of_front (ha : AllLeaves a) (y : Leaf α) :
    (concat (concat a [.leaf y]).value c).value =
      (concat a (concat [.leaf y] c).value).value := by
  have hy : AllLeaves [Node.leaf y] := by simp [Node.isPart]
  rw [value_concat_leaves ha hy, value_concat_append_left a (by simp),
    value_concat_leaves ha (allLeaves_leaf_concat y c)]

/-- One leaf in the middle that is merged with nothing behind it. -/
theorem concat_assoc_of_back (ha : IsFringe a) (hc : AllLeaves c) (y : Leaf α) :
    (concat (concat a [.leaf y]).value c).value =
      (concat a (concat [.leaf y] c).value).value := by
  have hy : AllLeaves [Node.leaf y] := by simp [Node.isPart]
  have hfront := allLeaves_concat_leaf ha y
  rw [value_concat_leaves hfront hc, value_concat_leaves hy hc, concat_append_leaves hfront hc]

/-- Leaves in the middle keep the seams apart, unless there is one leaf for two partial leaves. -/
theorem concat_assoc_of_middle {b : List (Node α)} (ha : IsFringe a) (hb : AllLeaves b)
    (hc : IsFringe c) (hone : ∀ y, b = [.leaf y] → ¬ (SolePart a ∧ SolePart c)) :
    (concat (concat a b).value c).value = (concat a (concat b c).value).value := by
  cases b with
  | nil => rw [concat_nil, Logged.value_pure, concat_nil_left hc, Logged.value_pure]
  | cons first rest =>
    obtain ⟨hfirst, hrest⟩ := (allLeaves_cons first rest).mp hb
    obtain ⟨y, rfl⟩ := Node.exists_leaf hfirst
    rcases List.eq_nil_or_concat rest with rfl | ⟨between, last, rfl⟩
    · by_cases hsole : SolePart a
      · have hback := hc.allLeaves_of_not_solePart fun hsolec => hone y rfl ⟨hsole, hsolec⟩
        exact concat_assoc_of_back ha hback y
      · exact concat_assoc_of_front (ha.allLeaves_of_not_solePart hsole) y
    · rw [List.concat_eq_append] at hrest ⊢
      obtain ⟨hbetween, hlast⟩ := (allLeaves_append between [last]).mp hrest
      obtain ⟨z, rfl⟩ := Node.exists_leaf (hlast last (by simp))
      exact concat_assoc_of_leaves ha y hbetween z

end Grouping

/-- What is concatenated with nothing in front of it is left as it is iff it is a fringe. -/
theorem concat_nil_left_iff (nodes : List (Node α)) :
    (concat [] nodes).value = nodes ↔ IsFringe nodes := by
  constructor
  · intro h
    rw [← h]
    exact isFringe_concat (.leaves allLeaves_nil) nodes
  · intro h
    rw [concat_nil_left h, Logged.value_pure]

/-- The order of two concatenations does not matter, unless the fringe in the middle is a
partial leaf, or one leaf between two partial leaves. Nothing is neutral behind any list, and
in front of a fringe. -/
theorem concat_grouping :
    (∀ a b c : List (Node α), (∃ n, check a = .ok n) → (∃ n, check b = .ok n) →
      (∃ n, check c = .ok n) → ¬ SolePart b →
      ¬ ((∃ y, b = [.leaf y]) ∧ SolePart a ∧ SolePart c) →
      (concat (concat a b).value c).value = (concat a (concat b c).value).value) ∧
    (∀ nodes : List (Node α), concat nodes [] = pure nodes) ∧
    (∀ nodes : List (Node α),
      (concat [] nodes).value = nodes ↔ ∃ count, check nodes = .ok count) := by
  refine ⟨?_, concat_nil, ?_⟩
  · intro a b c ha hb hc hmiddle hone
    rw [accepted_iff_isFringe] at ha hb hc
    apply concat_assoc_of_middle ha (hb.allLeaves_of_not_solePart hmiddle) hc
    rintro y hy ⟨hsolea, hsolec⟩
    exact hone ⟨⟨y, hy⟩, hsolea, hsolec⟩
  · intro nodes
    rw [accepted_iff_isFringe, concat_nil_left_iff]

/-- Both seams merge, one with each of the two leaves in the middle. -/
theorem concat_grouping_around_two_leaves :
    let seven : Node Nat := .part ⟨List.range 7, by decide⟩
    let full : Node Nat := .leaf ⟨List.range 15, by decide, by decide⟩
    let eight : Node Nat := .leaf ⟨List.range 8, by decide, by decide⟩
    (∃ n, check [seven] = .ok n) ∧ (∃ n, check [full, eight] = .ok n) ∧
      ¬ SolePart [full, eight] ∧ ¬ (∃ y, [full, eight] = [.leaf y]) ∧
      (concat (concat [seven] [full, eight]).value [seven]).value =
        (concat [seven] (concat [full, eight] [seven]).value).value ∧
      (concat (concat [seven] [full, eight]).value [seven]).value.map Node.size = [11, 11, 15] := by
  intro seven full eight
  have hseven : ∃ n, check [seven] = .ok n := ⟨7, rfl⟩
  have hmiddle : ∃ n, check [full, eight] = .ok n := ⟨23, rfl⟩
  have hsole : ¬ SolePart [full, eight] := by simp [SolePart]
  have hone : ¬ ∃ y, [full, eight] = [.leaf y] := by simp
  exact ⟨hseven, hmiddle, hsole, hone,
    concat_grouping.1 [seven] [full, eight] [seven] hseven hmiddle hseven hsole
      (fun h => hone h.1), by decide⟩

/-- Around a partial leaf in the middle the order does matter. -/
example :
    let full : Node Nat := .leaf ⟨List.range 15, by decide, by decide⟩
    let seven : Node Nat := .part ⟨List.range 7, by decide⟩
    let eight : Node Nat := .leaf ⟨List.range 8, by decide, by decide⟩
    (concat (concat [full] [seven]).value [eight]).value.map Node.size = [11, 11, 8] ∧
      (concat [full] (concat [seven] [eight]).value).value.map Node.size = [15, 15] := by
  decide

/-- So it does around one leaf that both seams need. -/
example :
    let full : Node Nat := .leaf ⟨List.range 15, by decide, by decide⟩
    let seven : Node Nat := .part ⟨List.range 7, by decide⟩
    (concat (concat [seven] [full]).value [seven]).value.map Node.size = [11, 9, 9] ∧
      (concat [seven] (concat [full] [seven]).value).value.map Node.size = [9, 9, 11] := by
  decide

end LeafFringe
