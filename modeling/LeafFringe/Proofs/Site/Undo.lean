import LeafFringe.Proofs.Runs
import LeafFringe.Proofs.Site.Insertion
import LeafFringe.Proofs.Site.Removal
import Mathlib.Data.List.Basic
import Mathlib.Data.List.InsertIdx

/-!
# Edits of a leaf that undo each other

Within the bounds an insertion and a removal at the same position cancel, whatever the siblings.
At the bounds they change the number of leaves: a split is undone by the merge of its halves, and
a merge of two leaves of the least size by a split.
-/

namespace LeafFringe

variable {α : Type}

theorem Leaf.get_eq_ok_iff (l : Leaf α) (pos : Nat) (val : α) :
    l.get pos = .ok val ↔ l.toList[pos]? = some val := by
  unfold get
  split
  · rename_i h
    rw [List.getElem?_eq_getElem h, Except.ok.injEq, Option.some.injEq]
  · rename_i h
    simp [List.getElem?_eq_none (Nat.not_lt.mp h)]

/-- The element that was taken out is put back in its place. -/
theorem Leaf.insertIdx_eraseIdx {l : Leaf α} {pos : Nat} {val : α} (h : l.get pos = .ok val) :
    (l.toList.eraseIdx pos).insertIdx pos val = l.toList := by
  rw [get_eq_ok_iff] at h
  obtain ⟨hpos, rfl⟩ := List.getElem?_eq_some_iff.mp h
  exact List.insertIdx_eraseIdx_getElem hpos

theorem le_length_eraseIdx {run : List α} {pos : Nat} (h : pos < run.length) :
    pos ≤ (run.eraseIdx pos).length := by
  have := List.length_eraseIdx_add_one h
  omega

namespace Site

/-- A leaf with room grows, and its siblings have no part in that. -/
theorem insert_of_room (s : Site α) {pos : Nat} (val : α) (h : pos ≤ s.node.size)
    (room : s.node.size < maxLeaf) :
    ∃ n : Leaf α, s.insert pos val = .ok ⟨.replaced n, []⟩ ∧
      n.toList = s.node.toList.insertIdx pos val := by
  obtain ⟨done, hdone, hsettles⟩ := s.insert_of_le val h
  cases hsettles with
  | replaced n _ hn => exact ⟨n, hdone, hn⟩
  | shiftedLeft l a b full => omega
  | shiftedRight r a b full => omega
  | split a b full => omega

/-- A leaf with elements to spare shrinks, and its siblings have no part in that. -/
theorem remove_of_spare (s : Site α) {pos : Nat} (h : pos < s.node.size)
    (spare : minLeaf < s.node.size) :
    ∃ n : Leaf α, s.remove pos = .ok ⟨.shrunk n, []⟩ ∧ n.toList = s.node.toList.eraseIdx pos := by
  obtain ⟨done, hdone, hrecovers⟩ := s.remove_of_lt h
  cases hrecovers with
  | shrunk n _ hn => exact ⟨n, hdone, hn⟩
  | borrowedLeft l a b least => omega
  | borrowedRight r a b least => omega
  | mergedLeft l n least => omega
  | mergedRight r n least => omega
  | underflow p least => omega

/-- A full leaf without siblings is split into two leaves of the least size. -/
theorem insert_of_full (x : Leaf α) {pos : Nat} (val : α) (h : pos ≤ x.size)
    (full : x.size = maxLeaf) :
    ∃ a b : Leaf α, insert { node := x } pos val = .ok ⟨.split a b, [.split minLeaf]⟩ ∧
      a.toList ++ b.toList = x.toList.insertIdx pos val ∧
      a.size = minLeaf ∧ b.size = minLeaf := by
  have hlen : (x.toList.insertIdx pos val).length = maxLeaf + 1 := by
    rw [List.length_insertIdx_of_le_length h, x.length_toList, full]
  have hmin := minLeaf_eq
  have hmax := maxLeaf_eq
  obtain ⟨done, hdone, hsettles⟩ := insert_of_le { node := x } val h
  cases hsettles with
  | replaced n room => exact absurd full (Nat.ne_of_lt room)
  | shiftedLeft l a b _ hl => cases hl
  | shiftedRight r a b _ _ hr => cases hr
  | split a b _ _ _ ha hb =>
    refine ⟨a, b, hdone, ?_, ?_, ?_⟩
    · rw [ha, hb, List.take_append_drop]
    · rw [← a.length_toList, ha, List.length_take, hlen]
      omega
    · rw [← b.length_toList, hb, List.length_drop, hlen]
      omega

/-- Two leaves of the least size are merged. -/
theorem remove_of_least_left (l x : Leaf α) {pos : Nat} (h : pos < x.size)
    (hl : l.size = minLeaf) (hx : x.size = minLeaf) :
    ∃ n : Leaf α, remove { left := some l, node := x } pos =
        .ok ⟨.mergedLeft n, [.mergedLeft]⟩ ∧
      n.toList = l.toList ++ x.toList.eraseIdx pos := by
  obtain ⟨done, hdone, hrecovers⟩ := remove_of_lt { left := some l, node := x } h
  cases hrecovers with
  | shrunk n spare => exact absurd hx (Nat.ne_of_gt spare)
  | borrowedLeft k a b _ hk spare =>
    cases hk
    omega
  | borrowedRight r a b _ _ hr => cases hr
  | mergedLeft k n _ hk _ _ hn =>
    cases hk
    exact ⟨n, hdone, hn⟩
  | mergedRight r n _ hk => cases hk
  | underflow p _ hk => cases hk

theorem remove_of_least_right (x r : Leaf α) {pos : Nat} (h : pos < x.size)
    (hx : x.size = minLeaf) (hr : r.size = minLeaf) :
    ∃ n : Leaf α, remove { node := x, right := some r } pos =
        .ok ⟨.mergedRight n, [.mergedRight]⟩ ∧
      n.toList = x.toList.eraseIdx pos ++ r.toList := by
  obtain ⟨done, hdone, hrecovers⟩ := remove_of_lt { node := x, right := some r } h
  cases hrecovers with
  | shrunk n spare => exact absurd hx (Nat.ne_of_gt spare)
  | borrowedLeft l a b _ hl => cases hl
  | borrowedRight k a b _ _ hk spare =>
    cases hk
    omega
  | mergedLeft l n _ hl => cases hl
  | mergedRight k n _ _ hk _ hn =>
    cases hk
    exact ⟨n, hdone, hn⟩
  | underflow p _ _ hk => cases hk

/-- An insertion into a leaf with room is undone by the removal of the new element. -/
theorem remove_inserted (s : Site α) {pos : Nat} (val : α) (h : pos ≤ s.node.size)
    (room : s.node.size < maxLeaf) :
    ∃ n, s.insert pos val = .ok ⟨.replaced n, []⟩ ∧
      ∀ left right, remove ⟨left, n, right⟩ pos = .ok ⟨.shrunk s.node, []⟩ := by
  obtain ⟨n, hinsert, hn⟩ := s.insert_of_room val h room
  have hsize : n.size = s.node.size + 1 := by
    rw [← n.length_toList, hn, List.length_insertIdx_of_le_length h, s.node.length_toList]
  have spare : minLeaf < n.size := by
    have := s.node.minLeaf_le_size
    omega
  have hpos : pos < n.size := by omega
  refine ⟨n, hinsert, ?_⟩
  intro left right
  obtain ⟨m, hremove, hm⟩ := remove_of_spare ⟨left, n, right⟩ hpos spare
  rw [hn, List.eraseIdx_insertIdx_self] at hm
  rw [hremove, Leaf.ext hm]

/-- A removal from a leaf with elements to spare is undone by the insertion of the element. -/
theorem insert_removed (s : Site α) {pos : Nat} (h : pos < s.node.size)
    (spare : minLeaf < s.node.size) :
    ∃ val n, s.node.get pos = .ok val ∧ s.remove pos = .ok ⟨.shrunk n, []⟩ ∧
      ∀ left right, insert ⟨left, n, right⟩ pos val = .ok ⟨.replaced s.node, []⟩ := by
  obtain ⟨n, hremove, hn⟩ := s.remove_of_spare h spare
  have hval : s.node.get pos = .ok s.node.toList[pos] := dif_pos h
  have hsize : n.size + 1 = s.node.size := by
    rw [← n.length_toList, hn, List.length_eraseIdx_add_one h, s.node.length_toList]
  have room : n.size < maxLeaf := by
    have := s.node.size_le_maxLeaf
    omega
  have hpos : pos ≤ n.size := by omega
  refine ⟨_, n, hval, hremove, ?_⟩
  intro left right
  obtain ⟨m, hinsert, hm⟩ := insert_of_room ⟨left, n, right⟩ s.node.toList[pos] hpos room
  rw [hn, Leaf.insertIdx_eraseIdx hval] at hm
  rw [hinsert, Leaf.ext hm]

/-- A split is undone by the removal of the new element from the half that holds it. -/
theorem merge_split (x : Leaf α) {pos : Nat} (val : α) (h : pos ≤ x.size)
    (full : x.size = maxLeaf) :
    ∃ a b : Leaf α, insert { node := x } pos val = .ok ⟨.split a b, [.split minLeaf]⟩ ∧
      (pos < a.size → a.get pos = .ok val ∧
        remove { node := a, right := some b } pos = .ok ⟨.mergedRight x, [.mergedRight]⟩) ∧
      (a.size ≤ pos → b.get (pos - a.size) = .ok val ∧
        remove { left := some a, node := b } (pos - a.size) =
          .ok ⟨.mergedLeft x, [.mergedLeft]⟩) := by
  -- Neither half has an element to spare, so the other one cannot borrow and has to merge.
  obtain ⟨a, b, hinsert, hrun, hsizea, hsizeb⟩ := insert_of_full x val h full
  have hval : (a.toList ++ b.toList)[pos]? = some val := by
    rw [hrun, List.getElem?_insertIdx_self]
    exact if_pos h
  refine ⟨a, b, hinsert, ?_, ?_⟩
  · intro hlt
    obtain ⟨n, hremove, hn⟩ := remove_of_least_right a b hlt hsizea hsizeb
    rw [← List.eraseIdx_append_of_lt_length hlt, hrun, List.eraseIdx_insertIdx_self] at hn
    rw [List.getElem?_append_left hlt] at hval
    exact ⟨(a.get_eq_ok_iff pos val).mpr hval, by rw [hremove, Leaf.ext hn]⟩
  · intro hle
    rw [List.getElem?_append_right hle] at hval
    have hpos : pos - a.size < b.size := (List.getElem?_eq_some_iff.mp hval).1
    obtain ⟨n, hremove, hn⟩ := remove_of_least_left a b hpos hsizea hsizeb
    rw [← a.length_toList, ← List.eraseIdx_append_of_length_le hle, hrun,
      List.eraseIdx_insertIdx_self] at hn
    exact ⟨(b.get_eq_ok_iff _ val).mpr hval, by rw [hremove, Leaf.ext hn]⟩

/-- A full leaf that an insertion makes as long as two leaves of the least size is split into
these. -/
theorem split_of_halves {m first second : Leaf α} {pos : Nat} {val : α} (h : pos ≤ m.size)
    (hfirst : first.size = minLeaf) (hsecond : second.size = minLeaf)
    (hrun : m.toList.insertIdx pos val = first.toList ++ second.toList) :
    insert { node := m } pos val = .ok ⟨.split first second, [.split minLeaf]⟩ := by
  have hlen := congrArg List.length hrun
  rw [List.length_insertIdx_of_le_length h, List.length_append, m.length_toList,
    first.length_toList, second.length_toList] at hlen
  have full : m.size = maxLeaf := by
    have := minLeaf_eq
    have := maxLeaf_eq
    omega
  obtain ⟨a, b, hinsert, hhalves, hsizea, -⟩ := insert_of_full m val h full
  have hlength : a.toList.length = first.toList.length := hsizea.trans hfirst.symm
  obtain ⟨ha, hb⟩ := List.append_inj (hhalves.trans hrun) hlength
  rw [hinsert, Leaf.ext ha, Leaf.ext hb]

/-- A merge into the left sibling is undone by the insertion of the element behind the sibling's
own elements. -/
theorem split_merged_left {s : Site α} {pos : Nat} {val : α} {m : Leaf α} {events : List Event}
    (hval : s.node.get pos = .ok val)
    (hmerge : s.remove pos = .ok ⟨.mergedLeft m, events⟩) :
    ∃ l ∈ s.left,
      insert { node := m } (l.size + pos) val = .ok ⟨.split l s.node, [.split minLeaf]⟩ := by
  obtain ⟨hpos, hrecovers⟩ := recovers_of_remove hmerge
  have hrest := le_length_eraseIdx hpos
  cases hrecovers with
  | mergedLeft l _ least hl leftLeast noRight hm =>
    have hsize := Leaf.size_of_append hm
    have hplace : l.size + pos ≤ m.size := by
      rw [hsize, l.length_toList]
      omega
    have hrun := insertIdx_between l.toList [] val hrest
    rw [List.append_nil, List.append_nil, ← hm, Leaf.insertIdx_eraseIdx hval,
      l.length_toList] at hrun
    exact ⟨l, hl, split_of_halves hplace leftLeast least hrun⟩

theorem split_merged_right {s : Site α} {pos : Nat} {val : α} {m : Leaf α} {events : List Event}
    (hval : s.node.get pos = .ok val)
    (hmerge : s.remove pos = .ok ⟨.mergedRight m, events⟩) :
    ∃ r ∈ s.right,
      insert { node := m } pos val = .ok ⟨.split s.node r, [.split minLeaf]⟩ := by
  obtain ⟨hpos, hrecovers⟩ := recovers_of_remove hmerge
  have hrest := le_length_eraseIdx hpos
  cases hrecovers with
  | mergedRight r _ least hl hr rightLeast hm =>
    have hsize := Leaf.size_of_append hm
    have hplace : pos ≤ m.size := by omega
    have hrun := insertIdx_between [] r.toList val hrest
    rw [List.nil_append, List.nil_append, ← hm, Leaf.insertIdx_eraseIdx hval, List.length_nil,
      Nat.zero_add] at hrun
    exact ⟨r, hr, split_of_halves hplace least rightLeast hrun⟩

/-- Which edits take back an edit of this site. Where the number of leaves changes, the second
edit is given the leaves that the first one has made and no others. -/
structure EditsCancel (s : Site α) : Prop where
  grown : ∀ pos val, pos ≤ s.node.size → s.node.size < maxLeaf →
    ∃ n, s.insert pos val = .ok ⟨.replaced n, []⟩ ∧
      ∀ left right, remove ⟨left, n, right⟩ pos = .ok ⟨.shrunk s.node, []⟩
  shrunk : ∀ pos, pos < s.node.size → minLeaf < s.node.size →
    ∃ val n, s.node.get pos = .ok val ∧ s.remove pos = .ok ⟨.shrunk n, []⟩ ∧
      ∀ left right, insert ⟨left, n, right⟩ pos val = .ok ⟨.replaced s.node, []⟩
  /-- The new element is in either of the halves. -/
  split : ∀ pos val, pos ≤ s.node.size → s.node.size = maxLeaf →
    ∃ a b : Leaf α, insert { node := s.node } pos val = .ok ⟨.split a b, [.split minLeaf]⟩ ∧
      (pos < a.size → a.get pos = .ok val ∧
        remove { node := a, right := some b } pos =
          .ok ⟨.mergedRight s.node, [.mergedRight]⟩) ∧
      (a.size ≤ pos → b.get (pos - a.size) = .ok val ∧
        remove { left := some a, node := b } (pos - a.size) =
          .ok ⟨.mergedLeft s.node, [.mergedLeft]⟩)
  mergedLeft : ∀ pos val m events, s.node.get pos = .ok val →
    s.remove pos = .ok ⟨.mergedLeft m, events⟩ → ∃ l ∈ s.left,
      insert { node := m } (l.size + pos) val = .ok ⟨.split l s.node, [.split minLeaf]⟩
  mergedRight : ∀ pos val m events, s.node.get pos = .ok val →
    s.remove pos = .ok ⟨.mergedRight m, events⟩ → ∃ r ∈ s.right,
      insert { node := m } pos val = .ok ⟨.split s.node r, [.split minLeaf]⟩

/-- Insertion and removal undo each other, unless elements pass between siblings that both remain:
growing and shrinking, splitting and merging. -/
theorem edits_cancel (s : Site α) : s.EditsCancel where
  grown _ val h room := s.remove_inserted val h room
  shrunk _ h spare := s.insert_removed h spare
  split _ val h full := merge_split s.node val h full
  mergedLeft _ _ _ _ hval hmerge := split_merged_left hval hmerge
  mergedRight _ _ _ _ hval hmerge := split_merged_right hval hmerge

/-- A leaf of the least size grows and shrinks between full leaves, a full leaf is split and
merged, and two leaves of the least size are merged and split. -/
theorem edits_cancel_at_the_bounds :
    let least : Leaf Nat := ⟨List.range 8, by decide, by decide⟩
    let full : Leaf Nat := ⟨List.range 15, by decide, by decide⟩
    (∃ n, insert ⟨some full, least, some full⟩ 8 100 = .ok ⟨.replaced n, []⟩ ∧
      remove ⟨none, n, some least⟩ 8 = .ok ⟨.shrunk least, []⟩) ∧
    (∃ val n, full.get 4 = .ok val ∧
      remove ⟨some least, full, none⟩ 4 = .ok ⟨.shrunk n, []⟩ ∧
      insert ⟨none, n, some full⟩ 4 val = .ok ⟨.replaced full, []⟩) ∧
    (∃ a b, insert { node := full } 15 100 = .ok ⟨.split a b, [.split minLeaf]⟩ ∧
      remove { left := some a, node := b } (15 - a.size) =
        .ok ⟨.mergedLeft full, [.mergedLeft]⟩) ∧
    ∃ m, remove { left := some least, node := least } 7 =
        .ok ⟨.mergedLeft m, [.mergedLeft]⟩ ∧
      insert { node := m } 15 7 = .ok ⟨.split least least, [.split minLeaf]⟩ := by
  intro least full
  refine ⟨?_, ?_, ?_, ?_⟩
  · obtain ⟨n, hinsert, hremove⟩ :=
      (edits_cancel ⟨some full, least, some full⟩).grown 8 100 (by decide) (by decide)
    exact ⟨n, hinsert, hremove none (some least)⟩
  · obtain ⟨val, n, hval, hremove, hinsert⟩ :=
      (edits_cancel ⟨some least, full, none⟩).shrunk 4 (by decide) (by decide)
    exact ⟨val, n, hval, hremove, hinsert none (some full)⟩
  · obtain ⟨a, b, hinsert, -, hsecond⟩ :=
      (edits_cancel { node := full }).split 15 100 (by decide) (by decide)
    exact ⟨a, b, hinsert, (hsecond a.size_le_maxLeaf).2⟩
  · have hlast : 7 < least.size := by decide
    obtain ⟨m, hmerge, -⟩ := remove_of_least_left least least hlast rfl rfl
    obtain ⟨l, hl, hsplit⟩ :=
      (edits_cancel { left := some least, node := least }).mergedLeft 7 7 m _ rfl hmerge
    cases hl
    exact ⟨m, hmerge, hsplit⟩

end Site

end LeafFringe
