import LeafFringe.Fringe.Edit
import LeafFringe.Proofs.Buffer.Site
import Mathlib.Data.List.Basic

/-!
# Edits read from the other end

A reversed site is edited at the place that is counted from its other end. The siblings have
changed sides, so the edit takes the mirrored branch and comes to the reversed nodes. The left
sibling is asked first, though: where both siblings would do, and only there, the two edits turn
to different leaves.
-/

namespace LeafFringe

variable {α : Type}

/-- The same insertion read from right to left. -/
def Insertion.mirror : Insertion α → Insertion α
  | replaced n => replaced n.reverse
  | shiftedLeft l n => shiftedRight n.reverse l.reverse
  | shiftedRight n r => shiftedLeft r.reverse n.reverse
  | split l r => split r.reverse l.reverse

/-- The same removal read from right to left. -/
def Removal.mirror : Removal α → Removal α
  | shrunk n => shrunk n.reverse
  | borrowedLeft l n => borrowedRight n.reverse l.reverse
  | borrowedRight n r => borrowedLeft r.reverse n.reverse
  | mergedLeft n => mergedRight n.reverse
  | mergedRight n => mergedLeft n.reverse
  | underflow p => underflow p.reverse

namespace Site

/-- The leaf is full, and either sibling has room for some of its elements. -/
def BothTake (s : Site α) : Prop :=
  s.node.size = maxLeaf ∧ (∃ l ∈ s.left, l.size < maxLeaf) ∧ ∃ r ∈ s.right, r.size < maxLeaf

/-- The leaf has the least size, and its siblings can both lend elements or both only merge. -/
def BothHelp (s : Site α) : Prop :=
  s.node.size = minLeaf ∧ ∃ l ∈ s.left, ∃ r ∈ s.right,
    (minLeaf < l.size ∧ minLeaf < r.size) ∨ (l.size = minLeaf ∧ r.size = minLeaf)

@[simp] theorem left_reverse (s : Site α) : s.reverse.left = s.right.map Leaf.reverse := rfl

@[simp] theorem node_reverse (s : Site α) : s.reverse.node = s.node.reverse := rfl

@[simp] theorem right_reverse (s : Site α) : s.reverse.right = s.left.map Leaf.reverse := rfl

end Site

theorem Insertion.rebuild_mirror (s : Site α) (how : Insertion α) :
    how.mirror.rebuild (s.reverse.left.map Node.leaf) (s.reverse.right.map Node.leaf) =
      Fringe.reverse (how.rebuild (s.left.map Node.leaf) (s.right.map Node.leaf)) := by
  cases how <;> cases hl : s.left <;> cases hr : s.right <;>
    simp [mirror, rebuild, Fringe.reverse, Node.reverse, hl, hr]

theorem Removal.rebuild_mirror (s : Site α) (how : Removal α) :
    how.mirror.rebuild (s.reverse.left.map Node.leaf) (s.reverse.right.map Node.leaf) =
      Fringe.reverse (how.rebuild (s.left.map Node.leaf) (s.right.map Node.leaf)) := by
  cases how <;> cases hl : s.left <;> cases hr : s.right <;>
    simp [mirror, rebuild, Fringe.reverse, Node.reverse, hl, hr]

namespace Site

theorem handedOver_le (size : Nat) : handedOver size ≤ maxLeaf + 1 := by
  unfold handedOver
  omega

theorem lent_le (size : Nat) : lent size ≤ size := by
  have := minLeaf_eq
  unfold lent
  omega

section Branches

variable {s : Site α}

/-- There is one way to settle a run, so whatever settles it is what the insertion comes to. -/
theorem insert_of_settles {pos : Nat} {val : α} {done : Logged (Insertion α)}
    (h : pos ≤ s.node.size) (hs : s.Settles (s.node.toList.insertIdx pos val) done) :
    s.insert pos val = .ok done := by
  have hlen := List.length_insertIdx_of_le_length h val
  obtain ⟨other, hother, hsettles⟩ := s.insert_of_le val h
  rw [hother, ← Buffer.settle_of_settles hsettles hlen, Buffer.settle_of_settles hs hlen]

theorem remove_of_recovers {pos : Nat} {done : Logged (Removal α)} (h : pos < s.node.size)
    (hr : s.Recovers (s.node.toList.eraseIdx pos) done) : s.remove pos = .ok done := by
  have hword : (UInt64.ofNat pos).toNat = pos := by
    have := s.node.size_le_maxLeaf
    have := maxLeaf_eq
    rw [UInt64.toNat_ofNat']
    omega
  rw [← hword] at h hr
  rw [← hword, ← Buffer.remove_eq]
  exact Buffer.remove_of_recovers hr (Buffer.without_of_lt s.node h)

theorem right_full_of_not_bothTake (hone : ¬ s.BothTake) (full : s.node.size = maxLeaf)
    {l : Leaf α} (hl : s.left = some l) (room : l.size < maxLeaf) :
    ∀ r ∈ s.right, r.size = maxLeaf := by
  intro r hr
  by_contra hne
  exact hone ⟨full, ⟨l, hl, room⟩, r, hr, Nat.lt_of_le_of_ne r.size_le_maxLeaf hne⟩

theorem right_least_of_not_bothHelp (hone : ¬ s.BothHelp) (least : s.node.size = minLeaf)
    {l : Leaf α} (hl : s.left = some l) (spare : minLeaf < l.size) :
    ∀ r ∈ s.right, r.size = minLeaf := by
  intro r hr
  by_contra hne
  have hspare := Nat.lt_of_le_of_ne r.minLeaf_le_size (Ne.symm hne)
  exact hone ⟨least, l, hl, r, hr, .inl ⟨spare, hspare⟩⟩

/-- Each branch of an insertion mirrors the branch that the reversed site takes. -/
theorem Settles.mirror {run : List α} {done : Logged (Insertion α)} (h : s.Settles run done)
    (hlen : run.length = s.node.size + 1) (hone : ¬ s.BothTake) :
    ∃ events, s.reverse.Settles run.reverse ⟨done.value.mirror, events⟩ := by
  cases h with
  | replaced n room hn => exact ⟨_, .replaced n.reverse (by simpa using room) (by simp [hn])⟩
  | shiftedLeft l a b full hl room ha hb =>
    have hfull : ∀ k ∈ s.reverse.left, k.size = maxLeaf := by
      simpa using right_full_of_not_bothTake hone full hl room
    have hrun : run.length = maxLeaf + 1 := by omega
    refine ⟨_, .shiftedRight l.reverse b.reverse a.reverse (by simpa using full) hfull
      (by simp [hl]) (by simpa using room) ?_ ?_⟩
    · rw [Leaf.toList_reverse, hb, List.reverse_drop, hrun, Leaf.size_reverse]
    · rw [Leaf.toList_reverse, ha, List.reverse_append, List.reverse_take, hrun,
        Leaf.size_reverse, Leaf.toList_reverse]
  | shiftedRight r a b full noLeft hr room ha hb =>
    have hrun : run.length = maxLeaf + 1 := by omega
    have hback : run.length - (maxLeaf + 1 - handedOver r.size) = handedOver r.size := by
      have := handedOver_le r.size
      omega
    refine ⟨_, .shiftedLeft r.reverse b.reverse a.reverse (by simpa using full)
      (by simp [hr]) (by simpa using room) ?_ ?_⟩
    · rw [Leaf.toList_reverse, hb, List.reverse_append, List.reverse_drop, hback,
        Leaf.size_reverse, Leaf.toList_reverse]
    · rw [Leaf.toList_reverse, ha, List.reverse_take, hback, Leaf.size_reverse]
  | split a b full noLeft noRight ha hb =>
    have hback : run.length - minLeaf = minLeaf := by
      have := minLeaf_eq
      have := maxLeaf_eq
      omega
    refine ⟨_, .split b.reverse a.reverse (by simpa using full) (by simpa using noRight)
      (by simpa using noLeft) ?_ ?_⟩
    · rw [Leaf.toList_reverse, hb, List.reverse_drop, hback]
    · rw [Leaf.toList_reverse, ha, List.reverse_take, hback]

theorem Recovers.mirror {rest : List α} {done : Logged (Removal α)} (h : s.Recovers rest done)
    (hone : ¬ s.BothHelp) :
    ∃ events, s.reverse.Recovers rest.reverse ⟨done.value.mirror, events⟩ := by
  cases h with
  | shrunk n spare hn => exact ⟨_, .shrunk n.reverse (by simpa using spare) (by simp [hn])⟩
  | borrowedLeft l a b least hl spare ha hb =>
    have hleast : ∀ k ∈ s.reverse.left, k.size = minLeaf := by
      simpa using right_least_of_not_bothHelp hone least hl spare
    have hback : l.toList.length - (l.size - lent l.size) = lent l.size :=
      Nat.sub_sub_self (lent_le l.size)
    refine ⟨_, .borrowedRight l.reverse b.reverse a.reverse (by simpa using least) hleast
      (by simp [hl]) (by simpa using spare) ?_ ?_⟩
    · rw [Leaf.toList_reverse, hb, List.reverse_append, List.reverse_drop, hback,
        Leaf.size_reverse, Leaf.toList_reverse]
    · rw [Leaf.toList_reverse, ha, List.reverse_take, hback, Leaf.size_reverse,
        Leaf.toList_reverse]
  | borrowedRight r a b least noLeft hr spare ha hb =>
    refine ⟨_, .borrowedLeft r.reverse b.reverse a.reverse (by simpa using least)
      (by simp [hr]) (by simpa using spare) ?_ ?_⟩
    · rw [Leaf.toList_reverse, hb, List.reverse_drop, r.length_toList, Leaf.size_reverse,
        Leaf.toList_reverse]
    · rw [Leaf.toList_reverse, ha, List.reverse_append, List.reverse_take, r.length_toList,
        Leaf.size_reverse, Leaf.toList_reverse]
  | mergedLeft l n least hl leftLeast noRight hn =>
    have hr : s.right = none := by
      rw [Option.eq_none_iff_forall_not_mem]
      intro r hr
      exact hone ⟨least, l, hl, r, hr, .inr ⟨leftLeast, noRight r hr⟩⟩
    exact ⟨_, .mergedRight l.reverse n.reverse (by simpa using least) (by simp [hr])
      (by simp [hl]) (by simpa using leftLeast) (by simp [hn])⟩
  | mergedRight r n least hl hr rightLeast hn =>
    exact ⟨_, .mergedLeft r.reverse n.reverse (by simpa using least) (by simp [hr])
      (by simpa using rightLeast) (by simp [hl]) (by simp [hn])⟩
  | underflow p least hl hr hp =>
    exact ⟨_, .underflow p.reverse (by simpa using least) (by simp [hr]) (by simp [hl])
      (by simp [hp])⟩

theorem insert_mirror {pos : Nat} {val : α} {done : Logged (Insertion α)}
    (hdone : s.insert pos val = .ok done) (hone : ¬ s.BothTake) :
    ∃ events,
      s.reverse.insert (s.node.size - pos) val = .ok ⟨done.value.mirror, events⟩ := by
  obtain ⟨hpos, hsettles⟩ := settles_of_insert hdone
  obtain ⟨events, hmirror⟩ :=
    hsettles.mirror (List.length_insertIdx_of_le_length hpos val) hone
  rw [reverse_insertIdx val hpos] at hmirror
  exact ⟨events, insert_of_settles (by simp) hmirror⟩

theorem remove_mirror {pos : Nat} {done : Logged (Removal α)}
    (hdone : s.remove pos = .ok done) (hone : ¬ s.BothHelp) :
    ∃ events,
      s.reverse.remove (s.node.size - 1 - pos) = .ok ⟨done.value.mirror, events⟩ := by
  obtain ⟨hpos, hrecovers⟩ := recovers_of_remove hdone
  obtain ⟨events, hmirror⟩ := hrecovers.mirror hone
  rw [reverse_eraseIdx hpos] at hmirror
  have hlt : s.node.size - 1 - pos < s.reverse.node.size := by
    rw [node_reverse, Leaf.size_reverse]
    omega
  exact ⟨events, remove_of_recovers hlt hmirror⟩

end Branches

/-- Only the left one of two siblings has a part in an edit: the first node is not of its size any
more, and the last node is the right sibling. -/
def LeftFirst (l r : Leaf α) (nodes : List (Node α)) : Prop :=
  ∃ first more, nodes = first :: (more ++ [.leaf r]) ∧ first.size ≠ l.size

/-- An edit that has turned to the left sibling is not mirrored by another one that has. -/
theorem LeftFirst.reverse_ne {l r : Leaf α} {nodes mirrored : List (Node α)}
    (h : LeftFirst l r nodes) (hm : LeftFirst r.reverse l.reverse mirrored) :
    Fringe.reverse nodes ≠ mirrored := by
  obtain ⟨first, more, rfl, -⟩ := h
  obtain ⟨other, rest, rfl, hsize⟩ := hm
  intro heq
  have hfirst : Node.reverse (.leaf r) = other := by
    simpa [Fringe.reverse] using congrArg List.head? heq
  rw [← hfirst] at hsize
  exact hsize rfl

theorem Settles.leftFirst {s : Site α} {run : List α} {done : Logged (Insertion α)}
    (h : s.Settles run done) (hlen : run.length = s.node.size + 1)
    (full : s.node.size = maxLeaf) {l r : Leaf α} (hl : s.left = some l)
    (room : l.size < maxLeaf) (hr : s.right = some r) :
    LeftFirst l r
      (done.value.rebuild (s.left.map Node.leaf) (s.right.map Node.leaf)) := by
  cases h with
  | replaced n hroom => omega
  | shiftedLeft k a b _ hk _ ha hb =>
    obtain rfl : l = k := Option.some.inj (hl.symm.trans hk)
    refine ⟨.leaf a, [.leaf b], by simp [Insertion.rebuild, hr], ?_⟩
    rw [Node.size_leaf, Leaf.size_of_append ha, l.length_toList, List.length_take, handedOver]
    omega
  | shiftedRight k a b _ noLeft => exact absurd (noLeft l hl) (Nat.ne_of_lt room)
  | split a b _ noLeft => exact absurd (noLeft l hl) (Nat.ne_of_lt room)

theorem Recovers.leftFirst {s : Site α} {rest : List α} {done : Logged (Removal α)}
    (h : s.Recovers rest done) (hrest : rest.length + 1 = s.node.size)
    (least : s.node.size = minLeaf) {l r : Leaf α} (hl : s.left = some l)
    (hr : s.right = some r)
    (both : (minLeaf < l.size ∧ minLeaf < r.size) ∨ (l.size = minLeaf ∧ r.size = minLeaf)) :
    LeftFirst l r
      (done.value.rebuild (s.left.map Node.leaf) (s.right.map Node.leaf)) := by
  have hmin := minLeaf_eq
  cases h with
  | shrunk n spare => omega
  | borrowedLeft k a b _ hk spare ha hb =>
    obtain rfl : l = k := Option.some.inj (hl.symm.trans hk)
    refine ⟨.leaf a, [.leaf b], by simp [Removal.rebuild, hr], ?_⟩
    rw [Node.size_leaf, ← a.length_toList, ha, List.length_take, l.length_toList, lent]
    omega
  | borrowedRight k a b _ noLeft hk spare =>
    obtain rfl : r = k := Option.some.inj (hr.symm.trans hk)
    have := noLeft l hl
    omega
  | mergedLeft k n _ hk _ _ hn =>
    obtain rfl : l = k := Option.some.inj (hl.symm.trans hk)
    refine ⟨.leaf n, [], by simp [Removal.rebuild, hr], ?_⟩
    rw [Node.size_leaf, Leaf.size_of_append hn, l.length_toList]
    omega
  | mergedRight k n _ hk => cases hl.symm.trans hk
  | underflow p _ hk => cases hl.symm.trans hk

section Mirrored

variable {s : Site α}

theorem insertion_mirrored_iff {pos : Nat} {val : α} {done mirrored : Logged (Insertion α)}
    (hdone : s.insert pos val = .ok done)
    (hmirrored : s.reverse.insert (s.node.size - pos) val = .ok mirrored) :
    Fringe.reverse (done.value.rebuild (s.left.map Node.leaf) (s.right.map Node.leaf)) =
      mirrored.value.rebuild (s.reverse.left.map Node.leaf) (s.reverse.right.map Node.leaf) ↔
      ¬ s.BothTake := by
  constructor
  · rintro heq ⟨full, ⟨l, hl, hleft⟩, r, hr, hright⟩
    obtain ⟨hpos, hsettles⟩ := settles_of_insert hdone
    obtain ⟨hpos', hsettles'⟩ := settles_of_insert hmirrored
    have hfirst := hsettles.leftFirst (List.length_insertIdx_of_le_length hpos val) full hl
      hleft hr
    have hfirst' := hsettles'.leftFirst (l := r.reverse) (r := l.reverse)
      (List.length_insertIdx_of_le_length hpos' val) (by simpa using full)
      (Option.mem_map_of_mem _ hr) (by simpa using hright) (Option.mem_map_of_mem _ hl)
    exact hfirst.reverse_ne hfirst' heq
  · intro hone
    obtain ⟨events, hmirror⟩ := insert_mirror hdone hone
    cases hmirrored.symm.trans hmirror
    exact (Insertion.rebuild_mirror s done.value).symm

theorem removal_mirrored_iff {pos : Nat} {done mirrored : Logged (Removal α)}
    (hdone : s.remove pos = .ok done)
    (hmirrored : s.reverse.remove (s.node.size - 1 - pos) = .ok mirrored) :
    Fringe.reverse (done.value.rebuild (s.left.map Node.leaf) (s.right.map Node.leaf)) =
      mirrored.value.rebuild (s.reverse.left.map Node.leaf) (s.reverse.right.map Node.leaf) ↔
      ¬ s.BothHelp := by
  constructor
  · rintro heq ⟨least, l, hl, r, hr, both⟩
    obtain ⟨hpos, hrecovers⟩ := recovers_of_remove hdone
    obtain ⟨hpos', hrecovers'⟩ := recovers_of_remove hmirrored
    have hfirst := hrecovers.leftFirst (List.length_eraseIdx_add_one hpos) least hl hr both
    have hfirst' := hrecovers'.leftFirst (l := r.reverse) (r := l.reverse)
      (List.length_eraseIdx_add_one hpos') (by simpa using least)
      (Option.mem_map_of_mem _ hr) (Option.mem_map_of_mem _ hl)
      (by simpa [and_comm] using both)
    exact hfirst.reverse_ne hfirst' heq
  · intro hone
    obtain ⟨events, hmirror⟩ := remove_mirror hdone hone
    cases hmirrored.symm.trans hmirror
    exact (Removal.rebuild_mirror s done.value).symm

end Mirrored

/-- An edit of the reversed site comes to the reversed nodes, unless both siblings would do for
what the leaf needs: then the left one is taken on either side. -/
theorem edits_mirror (s : Site α) :
    (∀ pos val, pos ≤ s.node.size → ∃ done mirrored, s.insert pos val = .ok done ∧
      s.reverse.insert (s.node.size - pos) val = .ok mirrored ∧
        (Fringe.reverse (done.value.rebuild (s.left.map Node.leaf) (s.right.map Node.leaf)) =
          mirrored.value.rebuild (s.reverse.left.map Node.leaf)
            (s.reverse.right.map Node.leaf) ↔ ¬ s.BothTake)) ∧
    (∀ pos, pos < s.node.size → ∃ done mirrored, s.remove pos = .ok done ∧
      s.reverse.remove (s.node.size - 1 - pos) = .ok mirrored ∧
        (Fringe.reverse (done.value.rebuild (s.left.map Node.leaf) (s.right.map Node.leaf)) =
          mirrored.value.rebuild (s.reverse.left.map Node.leaf)
            (s.reverse.right.map Node.leaf) ↔ ¬ s.BothHelp)) := by
  constructor
  · intro pos val hpos
    have hle : s.node.size - pos ≤ s.reverse.node.size := by simp
    obtain ⟨done, hdone, -⟩ := s.insert_of_le val hpos
    obtain ⟨mirrored, hmirrored, -⟩ := s.reverse.insert_of_le val hle
    exact ⟨done, mirrored, hdone, hmirrored, insertion_mirrored_iff hdone hmirrored⟩
  · intro pos hpos
    have hlt : s.node.size - 1 - pos < s.reverse.node.size := by
      rw [node_reverse, Leaf.size_reverse]
      omega
    obtain ⟨done, hdone, -⟩ := s.remove_of_lt hpos
    obtain ⟨mirrored, hmirrored, -⟩ := s.reverse.remove_of_lt hlt
    exact ⟨done, mirrored, hdone, hmirrored, removal_mirrored_iff hdone hmirrored⟩

/-- A full leaf hands elements to the only sibling with room, from whichever end it is read, and
a leaf of the least size merges with the only sibling it has. Between two leaves of the least
size it depends on the end. -/
theorem edits_mirror_beside_one_helper :
    let least : Leaf Nat := ⟨List.range 8, by decide, by decide⟩
    let full : Leaf Nat := ⟨List.range 15, by decide, by decide⟩
    let crowded : Site Nat := ⟨some full, full, some least⟩
    let poor : Site Nat := ⟨none, least, some least⟩
    let between : Site Nat := ⟨some least, least, some least⟩
    4 ≤ crowded.node.size ∧ 5 < poor.node.size ∧ 5 < between.node.size ∧
      (∃ done mirrored, crowded.insert 4 99 = .ok done ∧
        crowded.reverse.insert 11 99 = .ok mirrored ∧
        Fringe.reverse (done.value.rebuild (some (.leaf full)) (some (.leaf least))) =
          mirrored.value.rebuild (some (.leaf least.reverse)) (some (.leaf full.reverse))) ∧
      (∃ done mirrored, poor.remove 5 = .ok done ∧ poor.reverse.remove 2 = .ok mirrored ∧
        Fringe.reverse (done.value.rebuild none (some (.leaf least))) =
          mirrored.value.rebuild (some (.leaf least.reverse)) none) ∧
      ∃ done mirrored, between.remove 5 = .ok done ∧ between.reverse.remove 2 = .ok mirrored ∧
        Fringe.reverse (done.value.rebuild (some (.leaf least)) (some (.leaf least))) ≠
          mirrored.value.rebuild (some (.leaf least.reverse)) (some (.leaf least.reverse)) := by
  intro least full crowded poor between
  have h₁ : 4 ≤ crowded.node.size := by decide
  have h₂ : 5 < poor.node.size := by decide
  have h₃ : 5 < between.node.size := by decide
  have hone : ¬ crowded.BothTake := by
    rintro ⟨-, ⟨l, hl, hroom⟩, -⟩
    cases hl
    exact absurd hroom (by decide)
  have halone : ¬ poor.BothHelp := by
    rintro ⟨-, l, hl, -⟩
    cases hl
  have hboth : between.BothHelp := ⟨rfl, least, rfl, least, rfl, .inr ⟨rfl, rfl⟩⟩
  obtain ⟨d₁, m₁, hd₁, hm₁, hiff₁⟩ := (edits_mirror crowded).1 4 99 h₁
  obtain ⟨d₂, m₂, hd₂, hm₂, hiff₂⟩ := (edits_mirror poor).2 5 h₂
  obtain ⟨d₃, m₃, hd₃, hm₃, hiff₃⟩ := (edits_mirror between).2 5 h₃
  exact ⟨h₁, h₂, h₃, ⟨d₁, m₁, hd₁, hm₁, hiff₁.mpr hone⟩, ⟨d₂, m₂, hd₂, hm₂, hiff₂.mpr halone⟩,
    d₃, m₃, hd₃, hm₃, fun heq => hiff₃.mp heq hboth⟩

end Site

end LeafFringe
