import LeafFringe.Sharing.Pool
import Mathlib.Data.List.Basic

/-!
# Looking up nodes in a pool

A call first looks up the slots that it names. What it then works on is what these slots hold,
in the same order. `SameRun` is what a call that compares two leaves answers.
-/

namespace LeafFringe

theorem bind_eq_ok_iff {ε β γ : Type} {x : Except ε β} {f : β → Except ε γ} {c : γ} :
    x >>= f = .ok c ↔ ∃ b, x = .ok b ∧ f b = .ok c := by
  cases x with
  | error e => simp [bind, Except.bind]
  | ok b => simp [bind, Except.bind]

theorem map_eq_ok_iff {ε β γ : Type} {x : Except ε β} {f : β → γ} {c : γ} :
    f <$> x = .ok c ↔ ∃ b, x = .ok b ∧ f b = c := by
  cases x with
  | error e => simp [Functor.map, Except.map]
  | ok b => simp [Functor.map, Except.map]

namespace Pool

variable {α : Type} {pool : Pool α}

theorem ofArity_eq_ok_iff {β : Type} {x : Except ArityError β} {b : β} :
    ofArity x = .ok b ↔ x = .ok b := by
  cases x <;> simp [ofArity]

theorem ofFault_eq_ok_iff {β : Type} {x : Except Fault β} {b : β} :
    ofFault x = .ok b ↔ x = .ok b := by
  cases x <;> simp [ofFault]

theorem ofOutcome_eq_ok_iff {β : Type} {x : Outcome β} {done : Logged β} :
    ofOutcome x = .ok done ↔ x = .ok done := by
  cases x <;> simp [ofOutcome]

/-- What a slot holds. -/
def held? (pool : Pool α) (slot : Nat) : Option (Held α) := pool[slot]?.map Slot.held

/-- The node in a slot. -/
def node? (pool : Pool α) (slot : Nat) : Option (Node α) := pool[slot]?.map Slot.node

/-- The nodes in a list of slots. -/
def nodesAt (pool : Pool α) (slots : List Nat) : List (Node α) := slots.filterMap pool.node?

theorem map_node_held? (pool : Pool α) (slot : Nat) :
    (pool.held? slot).map Held.node = pool.node? slot := by
  simp [held?, node?, Function.comp_def, Slot.held]

theorem held_eq_ok_iff {slot : Nat} {h : Held α} :
    pool.held slot = .ok h ↔ pool.held? slot = some h := by
  unfold held held?
  cases pool[slot]? <;> simp

theorem heldLeaf_eq_ok_iff {slot : Nat} {h : Held α} {l : Leaf α} :
    pool.heldLeaf slot = .ok (h, l) ↔
      ∃ s, pool[slot]? = some s ∧ s.held = h ∧ s.node = .leaf l := by
  simp only [heldLeaf, bind_eq_ok_iff, held_eq_ok_iff, leafIn, held?, Option.map_eq_some_iff]
  constructor
  · rintro ⟨_, ⟨s, hs, rfl⟩, n, hleaf, heq⟩
    obtain ⟨rfl, rfl⟩ := Prod.mk.inj (Except.ok.inj heq)
    refine ⟨s, hs, rfl, ?_⟩
    split at hleaf
    · rename_i hnode
      rw [← Except.ok.inj hleaf]
      exact hnode
    · cases hleaf
  · rintro ⟨s, hs, rfl, hl⟩
    exact ⟨s.held, ⟨s, hs, rfl⟩, l, by rw [Slot.held, hl], rfl⟩

theorem node?_of_heldLeaf {slot : Nat} {h : Held α} {l : Leaf α}
    (hl : pool.heldLeaf slot = .ok (h, l)) : pool.node? slot = some (.leaf l) := by
  obtain ⟨s, hs, -, hleaf⟩ := heldLeaf_eq_ok_iff.mp hl
  simp [node?, hs, hleaf]

/-- A list of slots that could be looked up holds these nodes, in the same order. -/
theorem held?_of_mapM {slots : List Nat} {out : List (Held α)}
    (h : slots.mapM pool.held = .ok out) : slots.map pool.held? = out.map some := by
  induction slots generalizing out with
  | nil =>
    cases h
    rfl
  | cons slot slots ih =>
    simp only [List.mapM_cons, bind_eq_ok_iff, held_eq_ok_iff] at h
    obtain ⟨first, hfirst, rest, hrest, heq⟩ := h
    cases heq
    rw [List.map_cons, hfirst, ih hrest, List.map_cons]

theorem nodesAt_eq {slots : List Nat} {out : List (Held α)}
    (h : slots.map pool.held? = out.map some) : pool.nodesAt slots = out.map Held.node := by
  have hout : slots.filterMap pool.held? = out := by
    rw [← Function.id_comp pool.held?, ← List.filterMap_map, h, List.filterMap_map]
    simp
  rw [nodesAt, ← hout, List.map_filterMap]
  simp only [map_node_held?]

/-- A sibling of a site is held in the slot that was named for it, and is a leaf. -/
theorem held?_of_mapM_heldLeaf {slot : Option Nat} {sibling : Option (Held α × Leaf α)}
    (h : slot.mapM pool.heldLeaf = .ok sibling) :
    slot.map pool.held? = (sibling.map (·.1)).map some ∧
      (sibling.map (·.1)).map Held.node = (sibling.map (·.2)).map Node.leaf := by
  cases slot with
  | none =>
    cases h
    exact ⟨rfl, rfl⟩
  | some slot =>
    change some <$> pool.heldLeaf slot = .ok sibling at h
    cases hslot : pool.heldLeaf slot with
    | error e =>
      rw [hslot] at h
      cases h
    | ok found =>
      rw [hslot] at h
      cases h
      obtain ⟨s, hs, hheld, hnode⟩ := heldLeaf_eq_ok_iff.mp hslot
      exact ⟨by simp [held?, hs, hheld], by simp [← hheld, Slot.held, hnode]⟩

section Extend

variable {made : List (Held α)}

/-- The nodes in old slots stay there. -/
theorem getElem?_extend_of_lt {slot : Nat} (h : slot < pool.length) :
    (pool.extend made)[slot]? = pool[slot]? :=
  List.getElem?_append_left h

/-- A new node is marked with its own slot, unless it came with a mark. -/
theorem getElem?_extend_add (k : Nat) :
    (pool.extend made)[pool.length + k]? =
      made[k]?.map fun h => ⟨h.run.getD (pool.length + k), h.node⟩ := by
  rw [extend, List.getElem?_append_right (Nat.le_add_right _ _), Nat.add_sub_cancel_left, slotsFor,
    List.getElem?_map, List.getElem?_zipIdx]
  cases made[k]? <;> simp

end Extend

/-- The call that compares two leaves finds that they hold the same run. -/
def SameRun [BEq α] (pool : Pool α) (a b : Nat) : Prop :=
  pool.answer (.sameRun a b) = .ok (pure (found (.truth true)))

instance [BEq α] [DecidableEq α] (a b : Nat) : Decidable (pool.SameRun a b) :=
  inferInstanceAs (Decidable (_ = _))

/-- There is a leaf in this slot. -/
def HoldsLeaf (pool : Pool α) (slot : Nat) : Prop := ∃ l, pool.node? slot = some (.leaf l)

theorem holdsLeaf_iff {slot : Nat} :
    pool.HoldsLeaf slot ↔ ∃ s l, pool[slot]? = some s ∧ s.node = .leaf l := by
  simp only [HoldsLeaf, node?, Option.map_eq_some_iff]
  exact exists_comm

theorem sameRun_iff [BEq α] {a b : Nat} :
    pool.SameRun a b ↔ ∃ s t l m, pool[a]? = some s ∧ pool[b]? = some t ∧
      s.node = .leaf l ∧ t.node = .leaf m ∧ s.run = t.run := by
  simp only [SameRun, answer, bind_eq_ok_iff, Prod.exists, heldLeaf_eq_ok_iff]
  constructor
  · rintro ⟨_, l, ⟨s, hs, rfl, hl⟩, _, m, ⟨t, ht, rfl, hm⟩, heq⟩
    refine ⟨s, t, l, m, hs, ht, hl, hm, ?_⟩
    simpa [pure, Except.pure, found, Slot.held] using heq
  · rintro ⟨s, t, l, m, hs, ht, hl, hm, hrun⟩
    refine ⟨_, l, ⟨s, hs, rfl, hl⟩, _, m, ⟨t, ht, rfl, hm⟩, ?_⟩
    simp [pure, Except.pure, found, Slot.held, hrun]

end Pool

end LeafFringe
