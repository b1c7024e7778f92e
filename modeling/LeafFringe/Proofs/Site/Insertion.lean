import LeafFringe.Proofs.Fringe.Shape
import LeafFringe.Site.Insertion

/-!
# The branches of an insertion

`Settles` says once, branch by branch, when each outcome of an insertion is reached, how the
joined run is shared out and what is reported. Everything else about insertions is read off
its four cases.
-/

namespace LeafFringe

variable {α : Type}

/-- How many elements a leaf of the given size takes over: half of its room, rounded up. -/
def Site.handedOver (size : Nat) : Nat := (maxLeaf - size + 1) / 2

namespace Site

/-- The outcomes of an insertion that has made the run of the leaf one element longer. -/
inductive Settles (s : Site α) (run : List α) : Logged (Insertion α) → Prop
  | replaced (n : Leaf α) (room : s.node.size < maxLeaf) (hn : n.toList = run) :
      Settles s run ⟨.replaced n, []⟩
  | shiftedLeft (l a b : Leaf α) (full : s.node.size = maxLeaf) (hl : s.left = some l)
      (room : l.size < maxLeaf)
      (ha : a.toList = l.toList ++ run.take (handedOver l.size))
      (hb : b.toList = run.drop (handedOver l.size)) :
      Settles s run ⟨.shiftedLeft a b, [.shiftedLeft (handedOver l.size)]⟩
  | shiftedRight (r a b : Leaf α) (full : s.node.size = maxLeaf)
      (noLeft : ∀ l ∈ s.left, l.size = maxLeaf) (hr : s.right = some r)
      (room : r.size < maxLeaf)
      (ha : a.toList = run.take (maxLeaf + 1 - handedOver r.size))
      (hb : b.toList = run.drop (maxLeaf + 1 - handedOver r.size) ++ r.toList) :
      Settles s run ⟨.shiftedRight a b, [.shiftedRight (handedOver r.size)]⟩
  | split (a b : Leaf α) (full : s.node.size = maxLeaf)
      (noLeft : ∀ l ∈ s.left, l.size = maxLeaf) (noRight : ∀ r ∈ s.right, r.size = maxLeaf)
      (ha : a.toList = run.take minLeaf) (hb : b.toList = run.drop minLeaf) :
      Settles s run ⟨.split a b, [.split minLeaf]⟩

/-- Among full siblings there is none with room. -/
theorem filter_room_of_full {side : Option (Leaf α)} (full : ∀ l ∈ side, l.size = maxLeaf) :
    side.filter (fun l => l.size < maxLeaf) = none := by
  rw [Option.filter_eq_none_iff]
  intro l hl
  simp [full l hl]

theorem shiftLeft?_of_full {left : Option (Leaf α)} {run : List α}
    (h : run.length = maxLeaf + 1) (full : ∀ l ∈ left, l.size = maxLeaf) :
    shiftLeft? left run h = none := by
  cases left with
  | none => rfl
  | some l =>
    have : ¬ l.size < maxLeaf := by rw [full l rfl]; exact Nat.lt_irrefl _
    simp [shiftLeft?, this]

theorem shiftRight?_of_full {right : Option (Leaf α)} {run : List α}
    (h : run.length = maxLeaf + 1) (full : ∀ r ∈ right, r.size = maxLeaf) :
    shiftRight? right run h = none := by
  cases right with
  | none => rfl
  | some r =>
    have : ¬ r.size < maxLeaf := by rw [full r rfl]; exact Nat.lt_irrefl _
    simp [shiftRight?, this]

theorem shiftLeft?_of_room {l : Leaf α} {run : List α} (h : run.length = maxLeaf + 1)
    (room : l.size < maxLeaf) :
    ∃ a b : Leaf α,
      shiftLeft? (some l) run h = some ⟨.shiftedLeft a b, [.shiftedLeft (handedOver l.size)]⟩ ∧
        a.toList = l.toList ++ run.take (handedOver l.size) ∧
        b.toList = run.drop (handedOver l.size) := by
  simp only [shiftLeft?, Option.bind_some, dif_pos room]
  exact ⟨_, _, rfl, List.take_length_add_append _, List.drop_length_add_append _⟩

theorem shiftRight?_of_room {r : Leaf α} {run : List α} (h : run.length = maxLeaf + 1)
    (room : r.size < maxLeaf) :
    ∃ a b : Leaf α,
      shiftRight? (some r) run h =
          some ⟨.shiftedRight a b, [.shiftedRight (handedOver r.size)]⟩ ∧
        a.toList = run.take (maxLeaf + 1 - handedOver r.size) ∧
        b.toList = run.drop (maxLeaf + 1 - handedOver r.size) ++ r.toList := by
  have hle : run.length - handedOver r.size ≤ run.length := Nat.sub_le _ _
  simp only [shiftRight?, Option.bind_some, dif_pos room]
  rw [← h]
  exact ⟨_, _, rfl, List.take_append_of_le_length hle, List.drop_append_of_le_length hle⟩

theorem split_eq {run : List α} (h : run.length = maxLeaf + 1) :
    ∃ a b : Leaf α, split run h = ⟨.split a b, [.split minLeaf]⟩ ∧
      a.toList = run.take minLeaf ∧ b.toList = run.drop minLeaf := by
  have hhalf : run.length / 2 = minLeaf := by rw [h]; rfl
  simp only [split, hhalf]
  exact ⟨_, _, rfl, rfl, rfl⟩

theorem settles_settle (s : Site α) (run : List α) (h : run.length = s.node.size + 1) :
    Settles s run (s.settle run h) := by
  unfold settle
  split
  · rename_i room
    exact .replaced _ room rfl
  · rename_i hroom
    have full : s.node.size = maxLeaf :=
      Nat.le_antisymm s.node.size_le_maxLeaf (Nat.not_lt.mp hroom)
    have hlen : run.length = maxLeaf + 1 := by omega
    by_cases hleft : ∀ l ∈ s.left, l.size = maxLeaf
    · by_cases hright : ∀ r ∈ s.right, r.size = maxLeaf
      · obtain ⟨a, b, hsplit, ha, hb⟩ := split_eq hlen
        simpa [shiftLeft?_of_full hlen hleft, shiftRight?_of_full hlen hright, hsplit]
          using Settles.split a b full hleft hright ha hb
      · push Not at hright
        obtain ⟨r, hr, hne⟩ := hright
        have room := Nat.lt_of_le_of_ne r.size_le_maxLeaf hne
        obtain ⟨a, b, hshift, ha, hb⟩ := shiftRight?_of_room hlen room
        simpa [shiftLeft?_of_full hlen hleft, Option.mem_def.mp hr, hshift]
          using Settles.shiftedRight r a b full hleft hr room ha hb
    · push Not at hleft
      obtain ⟨l, hl, hne⟩ := hleft
      have room := Nat.lt_of_le_of_ne l.size_le_maxLeaf hne
      obtain ⟨a, b, hshift, ha, hb⟩ := shiftLeft?_of_room hlen room
      simpa [Option.mem_def.mp hl, hshift] using Settles.shiftedLeft l a b full hl room ha hb

theorem insert_of_le (s : Site α) {pos : Nat} (val : α) (h : pos ≤ s.node.size) :
    ∃ done, s.insert pos val = .ok done ∧ Settles s (s.node.toList.insertIdx pos val) done :=
  ⟨_, dif_pos h, settles_settle s _ _⟩

theorem insert_of_lt (s : Site α) {pos : Nat} (val : α) (h : s.node.size < pos) :
    s.insert pos val = .error (pure .outOfRange) :=
  dif_neg (Nat.not_le.mpr h)

/-- An insertion that was carried out was within the leaf. -/
theorem settles_of_insert {s : Site α} {pos : Nat} {val : α} {done : Logged (Insertion α)}
    (h : s.insert pos val = .ok done) :
    pos ≤ s.node.size ∧ Settles s (s.node.toList.insertIdx pos val) done := by
  rcases Nat.lt_or_ge s.node.size pos with hlt | hle
  · rw [s.insert_of_lt val hlt] at h
    cases h
  · obtain ⟨_, hdone, hsettles⟩ := s.insert_of_le val hle
    cases h.symm.trans hdone
    exact ⟨hle, hsettles⟩

namespace Settles

variable {s : Site α} {run : List α} {done : Logged (Insertion α)}

/-- The siblings keep their elements around the new run, whichever branch was taken. -/
theorem flatten_rebuild (h : Settles s run done) :
    flatten (done.value.rebuild (s.left.map Node.leaf) (s.right.map Node.leaf)) =
      flatten (s.left.map Node.leaf).toList ++ run ++
        flatten (s.right.map Node.leaf).toList := by
  cases h with
  | replaced n room hn => simp [Insertion.rebuild, hn]
  | shiftedLeft l a b full hl room ha hb =>
    simp [Insertion.rebuild, hl, ha, hb, ← List.append_assoc (run.take _)]
  | shiftedRight r a b full noLeft hr room ha hb =>
    simp [Insertion.rebuild, hr, ha, hb, ← List.append_assoc (run.take _)]
  | split a b full noLeft noRight ha hb =>
    simp [Insertion.rebuild, ha, hb, ← List.append_assoc (run.take _)]

theorem allLeaves_rebuild (h : Settles s run done) :
    AllLeaves (done.value.rebuild (s.left.map Node.leaf) (s.right.map Node.leaf)) := by
  cases h <;> simp [Insertion.rebuild, Node.isPart]

end Settles

end Site

end LeafFringe
