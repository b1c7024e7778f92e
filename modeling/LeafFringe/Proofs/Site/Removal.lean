import LeafFringe.Proofs.Fringe.Shape
import LeafFringe.Site.Removal

/-!
# The branches of a removal

`Recovers` is for removals what `Settles` is for insertions: six cases that say when each
outcome is reached, how the elements are shared out and what is reported.
-/

namespace LeafFringe

variable {α : Type}

/-- How many elements a leaf of the given size gives away: half of what it can spare, rounded
up. -/
def Site.lent (size : Nat) : Nat := (size - minLeaf + 1) / 2

namespace Site

/-- The outcomes of a removal that has left `rest` of the run of the leaf. -/
inductive Recovers (s : Site α) (rest : List α) : Logged (Removal α) → Prop
  | shrunk (n : Leaf α) (spare : minLeaf < s.node.size) (hn : n.toList = rest) :
      Recovers s rest ⟨.shrunk n, []⟩
  | borrowedLeft (l a b : Leaf α) (least : s.node.size = minLeaf) (hl : s.left = some l)
      (spare : minLeaf < l.size) (ha : a.toList = l.toList.take (l.size - lent l.size))
      (hb : b.toList = l.toList.drop (l.size - lent l.size) ++ rest) :
      Recovers s rest ⟨.borrowedLeft a b, [.borrowedLeft (lent l.size)]⟩
  | borrowedRight (r a b : Leaf α) (least : s.node.size = minLeaf)
      (noLeft : ∀ l ∈ s.left, l.size = minLeaf) (hr : s.right = some r)
      (spare : minLeaf < r.size) (ha : a.toList = rest ++ r.toList.take (lent r.size))
      (hb : b.toList = r.toList.drop (lent r.size)) :
      Recovers s rest ⟨.borrowedRight a b, [.borrowedRight (lent r.size)]⟩
  | mergedLeft (l n : Leaf α) (least : s.node.size = minLeaf) (hl : s.left = some l)
      (leftLeast : l.size = minLeaf) (noRight : ∀ r ∈ s.right, r.size = minLeaf)
      (hn : n.toList = l.toList ++ rest) :
      Recovers s rest ⟨.mergedLeft n, [.mergedLeft]⟩
  | mergedRight (r n : Leaf α) (least : s.node.size = minLeaf) (hl : s.left = none)
      (hr : s.right = some r) (rightLeast : r.size = minLeaf)
      (hn : n.toList = rest ++ r.toList) :
      Recovers s rest ⟨.mergedRight n, [.mergedRight]⟩
  | underflow (p : PartialLeaf α) (least : s.node.size = minLeaf) (hl : s.left = none)
      (hr : s.right = none) (hp : p.toList = rest) :
      Recovers s rest ⟨.underflow p, [.underflow]⟩

/-- Among siblings of the least size there is none with elements to spare. -/
theorem filter_spare_of_least {side : Option (Leaf α)} (least : ∀ l ∈ side, l.size = minLeaf) :
    side.filter (fun l => minLeaf < l.size) = none := by
  rw [Option.filter_eq_none_iff]
  intro l hl
  simp [least l hl]

theorem borrowLeft?_of_least {left : Option (Leaf α)} {rest : List α}
    (h : rest.length + 1 = minLeaf) (least : ∀ l ∈ left, l.size = minLeaf) :
    borrowLeft? left rest h = none := by
  cases left with
  | none => rfl
  | some l =>
    have : ¬ minLeaf < l.size := by rw [least l rfl]; exact Nat.lt_irrefl _
    simp [borrowLeft?, this]

theorem borrowRight?_of_least {right : Option (Leaf α)} {rest : List α}
    (h : rest.length + 1 = minLeaf) (least : ∀ r ∈ right, r.size = minLeaf) :
    borrowRight? right rest h = none := by
  cases right with
  | none => rfl
  | some r =>
    have : ¬ minLeaf < r.size := by rw [least r rfl]; exact Nat.lt_irrefl _
    simp [borrowRight?, this]

theorem borrowLeft?_of_spare {l : Leaf α} {rest : List α} (h : rest.length + 1 = minLeaf)
    (spare : minLeaf < l.size) :
    ∃ a b : Leaf α,
      borrowLeft? (some l) rest h = some ⟨.borrowedLeft a b, [.borrowedLeft (lent l.size)]⟩ ∧
        a.toList = l.toList.take (l.size - lent l.size) ∧
        b.toList = l.toList.drop (l.size - lent l.size) ++ rest := by
  have hle : l.size - lent l.size ≤ l.toList.length := Nat.sub_le _ _
  simp only [borrowLeft?, Option.bind_some, dif_pos spare]
  exact ⟨_, _, rfl, List.take_append_of_le_length hle, List.drop_append_of_le_length hle⟩

theorem borrowRight?_of_spare {r : Leaf α} {rest : List α} (h : rest.length + 1 = minLeaf)
    (spare : minLeaf < r.size) :
    ∃ a b : Leaf α,
      borrowRight? (some r) rest h =
          some ⟨.borrowedRight a b, [.borrowedRight (lent r.size)]⟩ ∧
        a.toList = rest ++ r.toList.take (lent r.size) ∧
        b.toList = r.toList.drop (lent r.size) := by
  simp only [borrowRight?, Option.bind_some, dif_pos spare]
  exact ⟨_, _, rfl, List.take_length_add_append _, List.drop_length_add_append _⟩

theorem mergeLeft?_of_least {l : Leaf α} {rest : List α} (h : rest.length + 1 = minLeaf)
    (least : l.size = minLeaf) :
    ∃ n : Leaf α, mergeLeft? (some l) rest = some ⟨.mergedLeft n, [.mergedLeft]⟩ ∧
      n.toList = l.toList ++ rest := by
  have fits : l.size + rest.length ≤ maxLeaf := by
    have := minLeaf_eq
    have := maxLeaf_eq
    omega
  simp only [mergeLeft?, Option.bind_some, dif_pos fits]
  exact ⟨_, rfl, rfl⟩

theorem mergeRight?_of_least {r : Leaf α} {rest : List α} (h : rest.length + 1 = minLeaf)
    (least : r.size = minLeaf) :
    ∃ n : Leaf α, mergeRight? (some r) rest = some ⟨.mergedRight n, [.mergedRight]⟩ ∧
      n.toList = rest ++ r.toList := by
  have fits : rest.length + r.size ≤ maxLeaf := by
    have := minLeaf_eq
    have := maxLeaf_eq
    omega
  simp only [mergeRight?, Option.bind_some, dif_pos fits]
  exact ⟨_, rfl, rfl⟩

/-- A leaf of the least size beside no sibling with elements to spare merges or underflows. -/
theorem recovers_without_borrowing {s : Site α} {rest : List α}
    (least : s.node.size = minLeaf) (h : rest.length + 1 = minLeaf)
    (hleft : ∀ l ∈ s.left, l.size = minLeaf) (hright : ∀ r ∈ s.right, r.size = minLeaf) :
    Recovers s rest ((mergeLeft? s.left rest <|> mergeRight? s.right rest).getD
      ⟨.underflow ⟨rest, by omega⟩, [.underflow]⟩) := by
  cases hl : s.left with
  | some l =>
    have leftLeast := hleft l hl
    obtain ⟨n, hmerge, hn⟩ := mergeLeft?_of_least h leftLeast
    simpa [hmerge] using Recovers.mergedLeft l n least hl leftLeast hright hn
  | none =>
    cases hr : s.right with
    | some r =>
      have rightLeast := hright r hr
      obtain ⟨n, hmerge, hn⟩ := mergeRight?_of_least h rightLeast
      simpa [mergeLeft?, hmerge] using Recovers.mergedRight r n least hl hr rightLeast hn
    | none => exact .underflow _ least hl hr rfl

theorem recovers_makeGood (s : Site α) (rest : List α) (h : rest.length + 1 = s.node.size) :
    Recovers s rest (s.makeGood rest h) := by
  unfold makeGood
  split
  · rename_i spare
    exact .shrunk _ spare rfl
  · rename_i hspare
    have least : s.node.size = minLeaf :=
      Nat.le_antisymm (Nat.not_lt.mp hspare) s.node.minLeaf_le_size
    have hlen : rest.length + 1 = minLeaf := h.trans least
    by_cases hleft : ∀ l ∈ s.left, l.size = minLeaf
    · by_cases hright : ∀ r ∈ s.right, r.size = minLeaf
      · simpa [borrowLeft?_of_least hlen hleft, borrowRight?_of_least hlen hright]
          using recovers_without_borrowing least hlen hleft hright
      · push Not at hright
        obtain ⟨r, hr, hne⟩ := hright
        have spare := Nat.lt_of_le_of_ne r.minLeaf_le_size (Ne.symm hne)
        obtain ⟨a, b, hborrow, ha, hb⟩ := borrowRight?_of_spare hlen spare
        simpa [borrowLeft?_of_least hlen hleft, Option.mem_def.mp hr, hborrow]
          using Recovers.borrowedRight r a b least hleft hr spare ha hb
    · push Not at hleft
      obtain ⟨l, hl, hne⟩ := hleft
      have spare := Nat.lt_of_le_of_ne l.minLeaf_le_size (Ne.symm hne)
      obtain ⟨a, b, hborrow, ha, hb⟩ := borrowLeft?_of_spare hlen spare
      simpa [Option.mem_def.mp hl, hborrow]
        using Recovers.borrowedLeft l a b least hl spare ha hb

theorem remove_of_lt (s : Site α) {pos : Nat} (h : pos < s.node.size) :
    ∃ done, s.remove pos = .ok done ∧ Recovers s (s.node.toList.eraseIdx pos) done :=
  ⟨_, dif_pos h, recovers_makeGood s _ _⟩

theorem remove_of_le (s : Site α) {pos : Nat} (h : s.node.size ≤ pos) :
    s.remove pos = .error ⟨.outOfRange, s.forewarning⟩ :=
  dif_neg (Nat.not_lt.mpr h)

/-- A removal that was carried out was within the leaf. -/
theorem recovers_of_remove {s : Site α} {pos : Nat} {done : Logged (Removal α)}
    (h : s.remove pos = .ok done) :
    pos < s.node.size ∧ Recovers s (s.node.toList.eraseIdx pos) done := by
  rcases Nat.lt_or_ge pos s.node.size with hlt | hle
  · obtain ⟨_, hdone, hrecovers⟩ := s.remove_of_lt hlt
    cases h.symm.trans hdone
    exact ⟨hlt, hrecovers⟩
  · rw [s.remove_of_le hle] at h
    cases h

namespace Recovers

variable {s : Site α} {rest : List α} {done : Logged (Removal α)}

/-- A removal that is carried out does what it has reported. -/
theorem events_eq (h : Recovers s rest done) : done.events = s.forewarning := by
  cases h with
  | shrunk n spare hn => simp [forewarning, spare]
  | borrowedLeft l a b least hl spare ha hb =>
    simp [forewarning, least, hl, Option.filter_some, spare, lent]
  | borrowedRight r a b least noLeft hr spare ha hb =>
    simp [forewarning, least, filter_spare_of_least noLeft, hr, Option.filter_some, spare, lent]
  | mergedLeft l n least hl leftLeast noRight hn =>
    simp [forewarning, least, hl, Option.filter_some, leftLeast, filter_spare_of_least noRight]
  | mergedRight r n least hl hr rightLeast hn =>
    simp [forewarning, least, hl, hr, Option.filter_some, rightLeast]
  | underflow p least hl hr hp => simp [forewarning, least, hl, hr]

/-- The siblings keep their elements around what is left, whichever branch was taken. -/
theorem flatten_rebuild (h : Recovers s rest done) :
    flatten (done.value.rebuild (s.left.map Node.leaf) (s.right.map Node.leaf)) =
      flatten (s.left.map Node.leaf).toList ++ rest ++
        flatten (s.right.map Node.leaf).toList := by
  cases h with
  | shrunk n spare hn => simp [Removal.rebuild, hn]
  | borrowedLeft l a b least hl spare ha hb =>
    simp [Removal.rebuild, hl, ha, hb, ← List.append_assoc (l.toList.take _)]
  | borrowedRight r a b least noLeft hr spare ha hb => simp [Removal.rebuild, hr, ha, hb]
  | mergedLeft l n least hl leftLeast noRight hn => simp [Removal.rebuild, hl, hn]
  | mergedRight r n least hl hr rightLeast hn => simp [Removal.rebuild, hl, hr, hn]
  | underflow p least hl hr hp => simp [Removal.rebuild, hl, hr, hp]

/-- Beside a sibling there is always a way to keep leaves only. -/
theorem rebuild_shape (h : Recovers s rest done) :
    AllLeaves (done.value.rebuild (s.left.map Node.leaf) (s.right.map Node.leaf)) ∨
      s.left = none ∧ s.right = none ∧
        ∃ p, done.value.rebuild (s.left.map Node.leaf) (s.right.map Node.leaf) = [.part p] := by
  cases h with
  | underflow p least hl hr hp => exact .inr ⟨hl, hr, p, rfl⟩
  | _ => exact .inl (by simp [Removal.rebuild, Node.isPart])

end Recovers

/-- A removal reports the same, whether it is carried out or refused. -/
theorem events_remove (s : Site α) (pos : Nat) :
    (s.remove pos).logged.events = s.forewarning := by
  rcases Nat.lt_or_ge pos s.node.size with h | h
  · obtain ⟨done, hdone, hrecovers⟩ := s.remove_of_lt h
    rw [hdone, Outcome.logged_ok, Logged.events_map, hrecovers.events_eq]
  · rw [s.remove_of_le h, Outcome.logged_error, Logged.events_map]

/-- A leaf of the least size is about to borrow when it is found to have no ninth element. -/
example :
    let s : Site Nat := ⟨some ⟨List.range 10, by decide, by decide⟩,
      ⟨List.range 8, by decide, by decide⟩, none⟩
    s.remove 8 = .error ⟨.outOfRange, [.borrowedLeft 1]⟩ := by
  decide

end Site

end LeafFringe
