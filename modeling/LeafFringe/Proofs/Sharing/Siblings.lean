import LeafFringe.Proofs.Site.Insertion
import LeafFringe.Proofs.Site.Removal
import Mathlib.Data.List.Basic

/-!
# Siblings that an edit leaves alone

An edit replaces a leaf and the siblings that were named. A sibling takes part only if its size
changes, so the sizes tell whether it was handed back: at its end of the new nodes there stands
either the sibling itself, or a node that was built and has another run.
-/

namespace LeafFringe

variable {α κ : Type} [Carrier κ α]

/-- New nodes in the place of a leaf and its siblings. Where a sibling was named, it stands at
its end, or else what stands there is different. -/
inductive Rebuilt (left right : Option κ) : List κ → Prop
  | intro (front : List κ) (new : List (Node α)) (back : List κ) (hnew : new ≠ [])
      (hfront : front = left.toList ∨
        (front = [] ∧ ∀ l ∈ left, new.head? ≠ some (Carrier.node l)))
      (hback : back = right.toList ∨
        (back = [] ∧ ∀ r ∈ right, new.getLast? ≠ some (Carrier.node r))) :
      Rebuilt left right (front ++ new.map Carrier.built ++ back)

/-- The node in place `k` stands at the end of a sibling and is equal to it. -/
def Untouched (left right : Option κ) (nodes : List (Node α)) (k : Nat) (sibling : κ) : Prop :=
  ((left = some sibling ∧ k = 0) ∨ (right = some sibling ∧ k + 1 = nodes.length)) ∧
    nodes[k]? = some (Carrier.node sibling)

namespace Rebuilt

variable {left right : Option κ} {made : List κ}

/-- An end that is equal to the sibling there is that sibling. -/
theorem getElem?_of_untouched (h : Rebuilt left right made) {k : Nat} {sibling : κ}
    (hk : Untouched left right (made.map Carrier.node) k sibling) : made[k]? = some sibling := by
  obtain ⟨hend, hnode⟩ := hk
  cases h with
  | intro front new back hnew hfront hback =>
    rcases hend with ⟨hleft, rfl⟩ | ⟨hright, hlast⟩
    · rcases hfront with rfl | ⟨rfl, hother⟩
      · simp [hleft]
      · refine absurd ?_ (hother sibling hleft)
        cases new with
        | nil => exact absurd rfl hnew
        | cons n new => simpa using hnode
    · rw [List.length_map] at hlast
      have hk : k = (front ++ new.map Carrier.built ++ back).length - 1 := by omega
      rw [hk, ← List.getLast?_eq_getElem?]
      rw [hk, ← List.length_map (f := Carrier.node), ← List.getLast?_eq_getElem?] at hnode
      rcases hback with rfl | ⟨rfl, hother⟩
      · simp [hright]
      · refine absurd ?_ (hother sibling hright)
        rw [List.append_nil, List.map_append, List.getLast?_append_of_ne_nil _ (by simpa)] at hnode
        simpa [Function.comp_def] using hnode

/-- All else that an edit hands over was built. -/
theorem untouched_or_built (h : Rebuilt left right made) {k : Nat} {c : κ}
    (hk : made[k]? = some c) :
    Untouched left right (made.map Carrier.node) k c ∨ ∃ n, c = Carrier.built n := by
  have hnode : (made.map Carrier.node)[k]? = some (Carrier.node c) := by simp [hk]
  cases h with
  | intro front new back hnew hfront hback =>
    rcases Nat.lt_or_ge k front.length with hlt | hge
    · rw [List.append_assoc, List.getElem?_append_left hlt] at hk
      rcases hfront with rfl | ⟨rfl, -⟩
      · cases left with
        | none => simp at hlt
        | some l =>
          obtain rfl : k = 0 := by simpa using hlt
          exact .inl ⟨.inl ⟨by simpa using hk, rfl⟩, hnode⟩
      · simp at hlt
    · rcases Nat.lt_or_ge k (front ++ new.map (Carrier.built (β := κ))).length with hlt | hge
      · rw [List.getElem?_append_left hlt, List.getElem?_append_right hge] at hk
        obtain ⟨n, -, hn⟩ := List.mem_map.mp (List.mem_of_getElem? hk)
        exact .inr ⟨n, hn.symm⟩
      · have hlen := (List.getElem?_eq_some_iff.mp hk).1
        rw [List.getElem?_append_right hge] at hk
        rcases hback with rfl | ⟨rfl, -⟩
        · cases right with
          | none => simp at hk
          | some r =>
            have hlast : k = (front ++ new.map (Carrier.built (β := κ))).length := by
              simp only [List.length_append, Option.toList_some, List.length_singleton]
                at hlen hge ⊢
              omega
            refine .inl ⟨.inr ⟨?_, ?_⟩, hnode⟩
            · simpa [hlast] using hk
            · simp [hlast, Nat.add_assoc]
        · simp at hk

end Rebuilt

namespace Site

variable {s : Site α} {left right : Option κ}

/-- A leaf of another size than a sibling is not that sibling. -/
theorem ne_sibling {side : Option κ} {sibling : Option (Leaf α)} {l a : Leaf α}
    (h : side.map Carrier.node = sibling.map Node.leaf) (hl : sibling = some l)
    (hsize : a.size ≠ l.size) : ∀ c ∈ side, some (Node.leaf a) ≠ some (Carrier.node c) := by
  intro c hc heq
  rw [Option.mem_def.mp hc, hl, Option.map_some, Option.map_some] at h
  rw [h, Option.some.injEq, Node.leaf.injEq] at heq
  exact hsize (congrArg Leaf.size heq)

/-- An insertion changes the size of each sibling that it does not hand back. -/
theorem Settles.rebuilt {run : List α} {done : Logged (Insertion α)} (h : Settles s run done)
    (hrun : run.length = s.node.size + 1) (hleft : left.map Carrier.node = s.left.map Node.leaf)
    (hright : right.map Carrier.node = s.right.map Node.leaf) :
    Rebuilt left right (done.value.rebuild left right) := by
  cases h with
  | replaced n room hn =>
    simpa [Insertion.rebuild] using
      Rebuilt.intro left.toList [.leaf n] right.toList (by simp) (.inl rfl) (.inl rfl)
  | shiftedLeft l a b full hl room ha hb =>
    have hgrown : a.size ≠ l.size := by
      have hsize := congrArg List.length ha
      rw [List.length_append, List.length_take, Leaf.length_toList, Leaf.length_toList,
        handedOver] at hsize
      omega
    have hother := ne_sibling hleft hl hgrown
    simpa [Insertion.rebuild] using
      Rebuilt.intro [] [.leaf a, .leaf b] right.toList (by simp) (.inr ⟨rfl, hother⟩) (.inl rfl)
  | shiftedRight r a b full noLeft hr room ha hb =>
    have hgrown : b.size ≠ r.size := by
      have hsize := congrArg List.length hb
      rw [List.length_append, List.length_drop, Leaf.length_toList, Leaf.length_toList,
        handedOver] at hsize
      omega
    have hother := ne_sibling hright hr hgrown
    simpa [Insertion.rebuild] using
      Rebuilt.intro left.toList [.leaf a, .leaf b] [] (by simp) (.inl rfl) (.inr ⟨rfl, hother⟩)
  | split a b full noLeft noRight ha hb =>
    simpa [Insertion.rebuild] using
      Rebuilt.intro left.toList [.leaf a, .leaf b] right.toList (by simp) (.inl rfl) (.inl rfl)

theorem rebuilt_insert {pos : Nat} {val : α} {done : Logged (Insertion α)}
    (h : s.insert pos val = .ok done) (hleft : left.map Carrier.node = s.left.map Node.leaf)
    (hright : right.map Carrier.node = s.right.map Node.leaf) :
    Rebuilt left right (done.value.rebuild left right) := by
  obtain ⟨hle, hsettles⟩ := settles_of_insert h
  exact hsettles.rebuilt (List.length_insertIdx_of_le_length hle val) hleft hright

/-- A removal changes the size of each sibling that it does not hand back. -/
theorem Recovers.rebuilt {rest : List α} {done : Logged (Removal α)} (h : Recovers s rest done)
    (hrest : rest.length + 1 = s.node.size)
    (hleft : left.map Carrier.node = s.left.map Node.leaf)
    (hright : right.map Carrier.node = s.right.map Node.leaf) :
    Rebuilt left right (done.value.rebuild left right) := by
  have := minLeaf_eq
  cases h with
  | shrunk n spare hn =>
    simpa [Removal.rebuild] using
      Rebuilt.intro left.toList [.leaf n] right.toList (by simp) (.inl rfl) (.inl rfl)
  | borrowedLeft l a b least hl spare ha hb =>
    have hshorter : a.size ≠ l.size := by
      have hsize := congrArg List.length ha
      rw [List.length_take, Leaf.length_toList, Leaf.length_toList, lent] at hsize
      omega
    have hother := ne_sibling hleft hl hshorter
    simpa [Removal.rebuild] using
      Rebuilt.intro [] [.leaf a, .leaf b] right.toList (by simp) (.inr ⟨rfl, hother⟩) (.inl rfl)
  | borrowedRight r a b least noLeft hr spare ha hb =>
    have hshorter : b.size ≠ r.size := by
      have hsize := congrArg List.length hb
      rw [List.length_drop, Leaf.length_toList, Leaf.length_toList, lent] at hsize
      omega
    have hother := ne_sibling hright hr hshorter
    simpa [Removal.rebuild] using
      Rebuilt.intro left.toList [.leaf a, .leaf b] [] (by simp) (.inl rfl) (.inr ⟨rfl, hother⟩)
  | mergedLeft l n least hl leftLeast noRight hn =>
    have hlonger : n.size ≠ l.size := by
      have hsize := congrArg List.length hn
      rw [List.length_append, Leaf.length_toList, Leaf.length_toList] at hsize
      omega
    have hother := ne_sibling hleft hl hlonger
    simpa [Removal.rebuild] using
      Rebuilt.intro [] [.leaf n] right.toList (by simp) (.inr ⟨rfl, hother⟩) (.inl rfl)
  | mergedRight r n least hl hr rightLeast hn =>
    have hlonger : n.size ≠ r.size := by
      have hsize := congrArg List.length hn
      rw [List.length_append, Leaf.length_toList, Leaf.length_toList] at hsize
      omega
    have hother := ne_sibling hright hr hlonger
    simpa [Removal.rebuild] using
      Rebuilt.intro left.toList [.leaf n] [] (by simp) (.inl rfl) (.inr ⟨rfl, hother⟩)
  | underflow p least hl hr hp =>
    obtain rfl : left = none := by simpa [hl] using hleft
    obtain rfl : right = none := by simpa [hr] using hright
    exact .intro [] [.part p] [] (by simp) (.inl rfl) (.inl rfl)

theorem rebuilt_remove {pos : Nat} {done : Logged (Removal α)} (h : s.remove pos = .ok done)
    (hleft : left.map Carrier.node = s.left.map Node.leaf)
    (hright : right.map Carrier.node = s.right.map Node.leaf) :
    Rebuilt left right (done.value.rebuild left right) := by
  obtain ⟨hlt, hrecovers⟩ := recovers_of_remove h
  exact hrecovers.rebuilt (List.length_eraseIdx_add_one hlt) hleft hright

end Site

end LeafFringe
