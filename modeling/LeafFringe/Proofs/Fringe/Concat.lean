import LeafFringe.Proofs.Buffer.Fringe

/-!
# What appending does to an output

Only the last node of an output meets the node that is appended, so everything is decided at
one seam: what stands before it is settled for good. `Joined` lists what a seam can become,
and the statements on whole lists follow by induction on the nodes that are appended.
-/

namespace LeafFringe

variable {α : Type}

/-- What can become of two adjoining nodes. -/
inductive Joined (last next : Node α) : List (Node α) → Prop
  | apart (hlast : last.isPart = false) (hnext : next.isPart = false) :
      Joined last next [last, next]
  | merged (n : Node α) (seam : last.isPart ∨ next.isPart)
      (run : n.toList = last.toList ++ next.toList) : Joined last next [n]
  | halved (a b : Leaf α) (seam : last.isPart ∨ next.isPart)
      (long : maxLeaf < last.size + next.size)
      (half : a.size = (last.size + next.size) / 2)
      (run : a.toList ++ b.toList = last.toList ++ next.toList) :
      Joined last next [.leaf a, .leaf b]

theorem Node.pack_of_le {run : List α} (h : run.length ≤ bufferCapacity)
    (fits : run.length ≤ maxLeaf) : pack run h = [ofRun run fits] := by
  rw [pack, dif_pos fits]

theorem Node.pack_of_lt {run : List α} (h : run.length ≤ bufferCapacity)
    (long : maxLeaf < run.length) :
    ∃ a b : Leaf α, pack run h = [leaf a, leaf b] ∧ a.toList ++ b.toList = run ∧
      a.size = run.length / 2 := by
  rw [pack, dif_neg (Nat.not_le.mpr long)]
  refine ⟨_, _, rfl, List.take_append_drop _ _, ?_⟩
  have : run.length / 2 ≤ run.length := Nat.div_le_self _ _
  simp [Leaf.size, Leaf.cut, this]

/-- Nodes have a joined run iff one of them is a partial leaf. -/
theorem Node.seam?_spec (last next : Node α) :
    (last.seam? next = none ∧ last.isPart = false ∧ next.isPart = false) ∨
      ∃ run, last.seam? next = some run ∧ run.val = last.toList ++ next.toList ∧
        (last.isPart ∨ next.isPart) := by
  cases last with
  | leaf l =>
    cases next with
    | leaf k => exact .inl ⟨rfl, rfl, rfl⟩
    | part q => exact .inr ⟨_, rfl, rfl, .inr rfl⟩
  | part p => exact .inr ⟨_, rfl, rfl, .inl rfl⟩

theorem joined_join (last next : Node α) : Joined last next (join last next).value := by
  rcases last.seam?_spec next with ⟨hnone, hlast, hnext⟩ | ⟨⟨run, hlen⟩, hsome, hrun, seam⟩
  · simpa [join, hnone] using Joined.apart hlast hnext
  · have hvalue : (join last next).value = Node.pack run hlen := by
      simp [join, hsome]
    have hsize : run.length = last.size + next.size := by
      rw [show run = last.toList ++ next.toList from hrun, List.length_append,
        Node.length_toList, Node.length_toList]
    rw [hvalue]
    by_cases fits : run.length ≤ maxLeaf
    · rw [Node.pack_of_le hlen fits]
      exact .merged _ seam ((Node.toList_ofRun run fits).trans hrun)
    · obtain ⟨a, b, hpack, hab, hhalf⟩ := Node.pack_of_lt hlen (Nat.not_le.mp fits)
      rw [hpack]
      exact .halved a b seam (by omega) (hsize ▸ hhalf) (hab.trans hrun)

namespace Joined

variable {last next : Node α} {new : List (Node α)}

theorem flatten_eq (h : Joined last next new) : flatten new = last.toList ++ next.toList := by
  cases h with
  | apart => simp
  | merged n seam run => simpa using run
  | halved a b seam long half run => simpa using run

theorem ne_nil (h : Joined last next new) : new ≠ [] := by
  cases h <;> simp

/-- A seam is always made good at once. -/
theorem isFringe (h : Joined last next new) : IsFringe new := by
  cases h with
  | apart hlast hnext => exact .leaves (by simp [hlast, hnext])
  | merged n seam run => exact isFringe_single n
  | halved a b seam long half run => exact .leaves (by simp [Node.isPart])

theorem totalSize_eq (h : Joined last next new) : totalSize new = last.size + next.size := by
  rw [← length_flatten, h.flatten_eq, List.length_append, Node.length_toList,
    Node.length_toList]

theorem allLeaves (h : Joined last next new) (hs : minLeaf ≤ last.size + next.size) :
    AllLeaves new :=
  (h.isFringe.allLeaves_iff h.ne_nil).mpr (h.totalSize_eq ▸ hs)

end Joined

theorem value_append_snoc (settled : List (Node α)) (last next : Node α) :
    (append (settled ++ [last]) next).value = settled ++ (join last next).value := by
  simp

theorem value_concat_cons (left right : List (Node α)) (next : Node α) :
    (concat left (next :: right)).value = (concat (append left next).value right).value := by
  simp

theorem flatten_append_value (out : List (Node α)) (next : Node α) :
    flatten (append out next).value = flatten out ++ next.toList := by
  rcases List.eq_nil_or_concat out with rfl | ⟨settled, last, rfl⟩
  · simp
  · simp [(joined_join last next).flatten_eq]

theorem append_value_ne_nil (out : List (Node α)) (next : Node α) :
    (append out next).value ≠ [] := by
  rcases List.eq_nil_or_concat out with rfl | ⟨settled, last, rfl⟩
  · simp
  · simp [(joined_join last next).ne_nil]

/-- Nothing is lost, and nothing changes its place. -/
theorem flatten_concat (left right : List (Node α)) :
    flatten (concat left right).value = flatten left ++ flatten right := by
  induction right generalizing left with
  | nil => simp
  | cons next right ih => simp [ih, flatten_append_value]

theorem concat_value_ne_nil {left : List (Node α)} (right : List (Node α)) (h : left ≠ []) :
    (concat left right).value ≠ [] := by
  induction right generalizing left with
  | nil => simpa using h
  | cons next right ih =>
    rw [value_concat_cons]
    exact ih (append_value_ne_nil left next)

theorem isFringe_append {out : List (Node α)} (h : IsFringe out) (next : Node α) :
    IsFringe (append out next).value := by
  rcases List.eq_nil_or_concat out with rfl | ⟨settled, last, rfl⟩
  · simpa using isFringe_single next
  · rw [List.concat_eq_append] at h ⊢
    rw [value_append_snoc]
    have hj := joined_join last next
    rcases eq_or_ne settled [] with rfl | hs
    · simpa using hj.isFringe
    · -- behind settled nodes the last one is a leaf, and makes any seam long enough
      obtain ⟨hsettled, hlast⟩ := (isFringe_append_iff hs (by simp)).mp h
      have hmin := (last.isPart_eq_false_iff).mp (hlast last (by simp))
      exact (isFringe_append_iff hs hj.ne_nil).mpr ⟨hsettled, hj.allLeaves (by omega)⟩

/-- Whatever is appended to a fringe, a fringe is the result. -/
theorem isFringe_concat {left : List (Node α)} (h : IsFringe left) (right : List (Node α)) :
    IsFringe (concat left right).value := by
  induction right generalizing left with
  | nil => simpa using h
  | cons next right ih =>
    rw [value_concat_cons]
    exact ih (isFringe_append h next)

/-- What stands before the last node of an output has no part in a concatenation. -/
theorem concat_append_left (settled : List (Node α)) {left : List (Node α)} (h : left ≠ [])
    (right : List (Node α)) :
    concat (settled ++ left) right = (settled ++ ·) <$> concat left right := by
  induction right generalizing left with
  | nil => simp
  | cons next right ih =>
    obtain ⟨init, last, rfl⟩ := (List.eq_nil_or_concat left).resolve_left h
    rw [List.concat_eq_append]
    have hnew : init ++ (join last next).value ≠ [] := by simp [(joined_join last next).ne_nil]
    rw [concat_cons, concat_cons, ← List.append_assoc, append_snoc, append_snoc]
    ext <;> simp [List.append_assoc, ih hnew]

theorem totalSize_concat (left right : List (Node α)) :
    totalSize (concat left right).value = totalSize left + totalSize right := by
  rw [← length_flatten, flatten_concat, List.length_append, length_flatten, length_flatten]

theorem settled_snoc (settled : List (Node α)) (last : Node α) :
    Settled (settled ++ [last]) ↔ AllLeaves settled := by
  rw [Settled, List.dropLast_concat]

theorem settled_concat {left : List (Node α)} (h : Settled left) (right : List (Node α)) :
    Settled (concat left right).value := by
  rcases List.eq_nil_or_concat left with rfl | ⟨settled, last, rfl⟩
  · exact (isFringe_concat (.leaves allLeaves_nil) right).settled
  · rw [List.concat_eq_append] at h ⊢
    have hne := concat_value_ne_nil right (List.cons_ne_nil last [])
    have htail := (isFringe_concat (isFringe_single last) right).settled
    rw [concat_append_left settled (List.cons_ne_nil last []), Logged.value_map, Settled,
      List.dropLast_append_of_ne_nil hne, allLeaves_append]
    exact ⟨(settled_snoc settled last).mp h, htail⟩

/-- A partial leaf behind other nodes has to grow into a leaf. -/
theorem isFringe_concat_iff {left : List (Node α)} (h : Settled left) (right : List (Node α)) :
    IsFringe (concat left right).value ↔ left.length ≤ 1 ∨
      ∃ last, left.getLast? = some last ∧
        (last.isPart = false ∨ minLeaf ≤ last.size + totalSize right) := by
  rcases List.eq_nil_or_concat left with rfl | ⟨settled, last, rfl⟩
  · simpa using isFringe_concat (.leaves allLeaves_nil) right
  · rw [List.concat_eq_append] at h ⊢
    have hone : IsFringe (concat [last] right).value :=
      isFringe_concat (isFringe_single last) right
    rcases eq_or_ne settled [] with rfl | hs
    · simpa using hone
    · have hne := concat_value_ne_nil right (List.cons_ne_nil last [])
      have hleaf : last.isPart = false → minLeaf ≤ last.size + totalSize right := by
        rw [last.isPart_eq_false_iff]
        omega
      rw [concat_append_left settled (List.cons_ne_nil last []), Logged.value_map,
        isFringe_append_iff hs hne, hone.allLeaves_iff hne, totalSize_concat, totalSize_cons,
        totalSize_nil, List.getLast?_concat]
      simp [(settled_snoc settled last).mp h, hs, or_iff_right_of_imp hleaf]

/-- Concatenation restores the shape of a fringe whenever the elements suffice for it. -/
theorem concat_restores_fringe :
    (∀ left right : List (Node α), Settled left →
      Buffer.concat left right = .ok (concat left right) ∧
        flatten (concat left right).value = flatten left ++ flatten right ∧
        Settled (concat left right).value ∧
        ((∃ count, check (concat left right).value = .ok count) ↔ left.length ≤ 1 ∨
          ∃ last, left.getLast? = some last ∧
            (last.isPart = false ∨ minLeaf ≤ last.size + totalSize right))) ∧
    (∀ (left right : List (Node α)) (l r : Nat), check left = .ok l → check right = .ok r →
      check (concat left right).value = .ok (l + r)) ∧
    (∀ nodes : List (Node α), check (concat [] nodes).value = .ok (totalSize nodes)) := by
  refine ⟨?_, ?_, ?_⟩
  · intro left right h
    refine ⟨Buffer.concat_eq left right, flatten_concat left right, settled_concat h right, ?_⟩
    rw [accepted_iff_isFringe]
    exact isFringe_concat_iff h right
  · intro left right l r hl hr
    obtain ⟨hleft, rfl⟩ := (check_eq_ok_iff left l).mp hl
    obtain ⟨-, rfl⟩ := (check_eq_ok_iff right r).mp hr
    rw [(isFringe_concat hleft right).check_eq, totalSize_concat]
  · intro nodes
    rw [(isFringe_concat (.leaves allLeaves_nil) nodes).check_eq, totalSize_concat,
      totalSize_nil, Nat.zero_add]

/-- Three elements behind a leaf and a partial leaf of five are just enough; the same partial
leaf alone is a fringe, and so is what is appended to it. -/
theorem concat_restores_fringe_at_eight :
    let full : Node Nat := .leaf ⟨List.range 8, by decide, by decide⟩
    let five : Node Nat := .part ⟨List.range 5, by decide⟩
    let three : Node Nat := .part ⟨List.range 3, by decide⟩
    Settled [full, five] ∧ check [five] = .ok 5 ∧ check [three] = .ok 3 ∧
      (∃ count, check (concat [full, five] [three]).value = .ok count) ∧
      check (concat [five] [three]).value = .ok 8 := by
  intro full five three
  have hsettled : Settled [full, five] := by decide
  have hcount := (concat_restores_fringe.1 [full, five] [three] hsettled).2.2.2
  exact ⟨hsettled, rfl, rfl, hcount.mpr (.inr ⟨five, rfl, .inr (by decide)⟩),
    concat_restores_fringe.2.1 [five] [three] 5 3 rfl rfl⟩

end LeafFringe
