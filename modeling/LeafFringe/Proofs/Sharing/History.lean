import LeafFringe.Proofs.Sharing.Calls
import LeafFringe.Proofs.Sharing.Elements

/-!
# Sharing over whole histories

In a sound pool the mark of a slot names a slot that holds the same, so that leaves with one run
are one leaf. Every call keeps a pool sound. From this and from what a call hands on it follows
who shares a run with whom after each step of a history.
-/

namespace LeafFringe

namespace Pool

variable {α : Type}

/-- The mark of a slot is the number of a slot with the same node and the same mark. -/
def Sound (pool : Pool α) : Prop :=
  ∀ ⦃i : Nat⦄ ⦃s : Slot α⦄, pool[i]? = some s → pool[s.run]? = some s

variable {pool : Pool α} {call : Call α} {made : List (Held α)}

theorem Sound.run_lt (h : pool.Sound) {i : Nat} {s : Slot α} (hs : pool[i]? = some s) :
    s.run < pool.length :=
  (List.getElem?_eq_some_iff.mp (h hs)).1

/-- In a sound pool leaves that hold one run are in slots with equal contents. -/
theorem Sound.sameRun_iff [BEq α] (h : pool.Sound) {a b : Nat} :
    pool.SameRun a b ↔ ∃ s l, pool[a]? = some s ∧ pool[b]? = some s ∧ s.node = .leaf l := by
  rw [Pool.sameRun_iff]
  constructor
  · rintro ⟨s, t, l, -, hs, ht, hl, -, hrun⟩
    obtain rfl : s = t := by
      have hfirst := h hs
      rw [hrun, h ht] at hfirst
      exact (Option.some.inj hfirst).symm
    exact ⟨s, l, hs, ht, hl⟩
  · rintro ⟨s, l, hs, ht, hl⟩
    exact ⟨s, s, l, l, hs, ht, hl, hl, rfl⟩

/-- What is handed on comes into its new slot with its mark. -/
theorem Traced.slot_of_handsOn (h : Traced pool call made) {slot k : Nat}
    (hk : pool.HandsOn (made.map Held.node) slot k call) :
    ∃ s, pool[slot]? = some s ∧ (pool.extend made)[pool.length + k]? = some s := by
  obtain ⟨c, hmade, hheld⟩ := h.handedOn hk
  obtain ⟨s, hs, rfl⟩ := Option.map_eq_some_iff.mp hheld
  refine ⟨s, hs, ?_⟩
  rw [getElem?_extend_add, hmade]
  rfl

/-- A new slot holds what was handed on, or is marked with its own number. -/
theorem Traced.handsOn_or_new (h : Traced pool call made) {k : Nat} {s : Slot α}
    (hs : (pool.extend made)[pool.length + k]? = some s) :
    (∃ slot, pool.HandsOn (made.map Held.node) slot k call ∧ pool[slot]? = some s) ∨
      s.run = pool.length + k := by
  have hnew := hs
  rw [getElem?_extend_add, Option.map_eq_some_iff] at hnew
  obtain ⟨c, hmade, rfl⟩ := hnew
  rcases h.built hmade with ⟨slot, hslot⟩ | hbuilt
  · obtain ⟨s, hold, hnew⟩ := h.slot_of_handsOn hslot
    rw [hnew] at hs
    exact .inl ⟨slot, hslot, hs ▸ hold⟩
  · exact .inr (by rw [hbuilt, Option.getD_none])

/-- What is marked with an old slot comes into a new one only by being handed on. -/
theorem Traced.slot_eq_iff (h : Traced pool call made) {k : Nat} {s : Slot α}
    (hs : s.run < pool.length) :
    (pool.extend made)[pool.length + k]? = some s ↔
      ∃ slot, pool.HandsOn (made.map Held.node) slot k call ∧ pool[slot]? = some s := by
  constructor
  · intro hk
    refine (h.handsOn_or_new hk).resolve_right ?_
    omega
  · rintro ⟨slot, hslot, hold⟩
    obtain ⟨t, ht, hnew⟩ := h.slot_of_handsOn hslot
    rw [hold] at ht
    exact ht ▸ hnew

theorem Sound.extend (h : pool.Sound) (ht : Traced pool call made) :
    (pool.extend made).Sound := by
  -- slots that were there keep their mark, which names a slot that was there
  have old {i : Nat} {s : Slot α} (hs : pool[i]? = some s) :
      (pool.extend made)[s.run]? = some s := by
    rw [getElem?_extend_of_lt (h.run_lt hs)]
    exact h hs
  intro i s hs
  rcases Nat.lt_or_ge i pool.length with hlt | hge
  · rw [getElem?_extend_of_lt hlt] at hs
    exact old hs
  · obtain ⟨k, rfl⟩ := Nat.exists_eq_add_of_le hge
    rcases ht.handsOn_or_new hs with ⟨slot, -, hslot⟩ | hrun
    · exact old hslot
    · rw [hrun]
      exact hs

/-- Who shares a run with whom after a call that makes `nodes`. -/
structure Shares [BEq α] (pool next : Pool α) (call : Call α) (nodes : List (Node α)) : Prop where
  /-- The nodes hold the elements that are due. -/
  elements : flatten nodes = pool.elemsOf call
  /-- They come into new slots. -/
  made : ∀ k, next.node? (pool.length + k) = nodes[k]?
  /-- The old slots hold the nodes that they held. -/
  kept : ∀ slot < pool.length, next.node? slot = pool.node? slot
  /-- What is handed on is an old node as it was. -/
  handedOn : ∀ slot k, pool.HandsOn nodes slot k call →
    ∃ n, pool.node? slot = some n ∧ nodes[k]? = some n
  /-- Old leaves share runs as before. -/
  old : ∀ a < pool.length, ∀ b < pool.length, next.SameRun a b ↔ pool.SameRun a b
  /-- A new leaf shares its run with the old leaf that it was, and with the sharers of that. -/
  new : ∀ k, ∀ b < pool.length, next.SameRun (pool.length + k) b ↔
    ∃ slot, pool.HandsOn nodes slot k call ∧ pool.SameRun slot b
  /-- Two new leaves share a run if the old leaves that they were did. -/
  between : ∀ k m, k ≠ m → (next.SameRun (pool.length + k) (pool.length + m) ↔
    ∃ a b, pool.HandsOn nodes a k call ∧ pool.HandsOn nodes b m call ∧ pool.SameRun a b)

theorem Sound.shares [BEq α] (h : pool.Sound) (ht : Traced pool call made)
    (helems : flatten (made.map Held.node) = pool.elemsOf call) :
    Shares pool (pool.extend made) call (made.map Held.node) where
  elements := helems
  made k := by
    rw [node?, getElem?_extend_add, List.getElem?_map, Option.map_map]
    rfl
  kept slot hslot := by rw [node?, getElem?_extend_of_lt hslot, node?]
  handedOn slot k hk := by
    obtain ⟨c, hmade, hheld⟩ := ht.handedOn hk
    refine ⟨c.node, ?_, ?_⟩
    · rw [← map_node_held?, hheld, Option.map_some]
    · rw [List.getElem?_map, hmade, Option.map_some]
  old a ha b hb := by
    rw [(h.extend ht).sameRun_iff, h.sameRun_iff, getElem?_extend_of_lt ha,
      getElem?_extend_of_lt hb]
  new k b hb := by
    rw [(h.extend ht).sameRun_iff, getElem?_extend_of_lt hb]
    constructor
    · rintro ⟨s, l, hk, hs, hl⟩
      obtain ⟨slot, hslot, hslot'⟩ := (ht.slot_eq_iff (h.run_lt hs)).mp hk
      exact ⟨slot, hslot, h.sameRun_iff.mpr ⟨s, l, hslot', hs, hl⟩⟩
    · rintro ⟨slot, hslot, hsame⟩
      obtain ⟨s, l, hslot', hs, hl⟩ := h.sameRun_iff.mp hsame
      exact ⟨s, l, (ht.slot_eq_iff (h.run_lt hs)).mpr ⟨slot, hslot, hslot'⟩, hs, hl⟩
  between k m hne := by
    rw [(h.extend ht).sameRun_iff]
    constructor
    · rintro ⟨s, l, hk, hm, hl⟩
      -- what is in two new slots is not marked with both of them
      have hold : s.run < pool.length := by
        rcases ht.handsOn_or_new hk with ⟨a, -, ha⟩ | hrun
        · exact h.run_lt ha
        · rcases ht.handsOn_or_new hm with ⟨b, -, hb⟩ | hrun'
          · exact h.run_lt hb
          · omega
      obtain ⟨a, ha, ha'⟩ := (ht.slot_eq_iff hold).mp hk
      obtain ⟨b, hb, hb'⟩ := (ht.slot_eq_iff hold).mp hm
      exact ⟨a, b, ha, hb, h.sameRun_iff.mpr ⟨s, l, ha', hb', hl⟩⟩
    · rintro ⟨a, b, ha, hb, hsame⟩
      obtain ⟨s, l, ha', hb', hl⟩ := h.sameRun_iff.mp hsame
      have hold := h.run_lt ha'
      exact ⟨s, l, (ht.slot_eq_iff hold).mpr ⟨a, ha, ha'⟩,
        (ht.slot_eq_iff hold).mpr ⟨b, hb, hb'⟩, hl⟩

/-- The pool after a history of calls, of which some may have been refused. -/
def after [BEq α] (calls : List (Call α)) : Pool α :=
  calls.foldl (fun pool call => (pool.run call).2) []

theorem after_snoc [BEq α] (calls : List (Call α)) (call : Call α) :
    after (calls ++ [call]) = ((after calls).run call).2 := by
  simp [after]

theorem Sound.run [BEq α] (h : pool.Sound) (call : Call α) : (pool.run call).2.Sound := by
  unfold Pool.run
  split
  · rename_i done hdone
    exact h.extend (makes_of_answer hdone).traced
  · exact h

theorem sound_after [BEq α] (calls : List (Call α)) : (after calls).Sound := by
  induction calls using List.reverseRecOn with
  | nil => intro i s hs; simp [after] at hs
  | append_singleton calls call ih =>
    rw [after_snoc]
    exact ih.run call

theorem Sound.equivalence [BEq α] (h : pool.Sound) :
    Equivalence fun a b : {slot // pool.HoldsLeaf slot} => pool.SameRun a b where
  refl a := by
    obtain ⟨s, l, hs, hl⟩ := holdsLeaf_iff.mp a.property
    exact h.sameRun_iff.mpr ⟨s, l, hs, hs, hl⟩
  symm hab := by
    obtain ⟨s, l, ha, hb, hl⟩ := h.sameRun_iff.mp hab
    exact h.sameRun_iff.mpr ⟨s, l, hb, ha, hl⟩
  trans hab hbc := by
    obtain ⟨s, l, ha, hb, hl⟩ := h.sameRun_iff.mp hab
    obtain ⟨t, m, hb', hc, -⟩ := h.sameRun_iff.mp hbc
    obtain rfl : s = t := Option.some.inj (hb.symm.trans hb')
    exact h.sameRun_iff.mpr ⟨s, l, ha, hc, hl⟩

/-- At every point of a history, leaves that hold the same run form classes of equal leaves. A
call that is answered changes no old leaf, and a leaf that it makes shares its run with an old
leaf exactly if the call handed that leaf, or a sharer of it, on. A refused call changes
nothing. -/
theorem sharing_is_exact [BEq α] (calls : List (Call α)) :
    (Equivalence fun a b : {slot // (after calls).HoldsLeaf slot} => (after calls).SameRun a b) ∧
    (∀ a b, (after calls).SameRun a b →
      ∃ l, (after calls).node? a = some (.leaf l) ∧ (after calls).node? b = some (.leaf l)) ∧
    (∀ call done, (after calls).answer call = .ok done →
      Shares (after calls) (after (calls ++ [call])) call (done.value.made.map Held.node)) ∧
    ∀ call e, (after calls).answer call = .error e → after (calls ++ [call]) = after calls := by
  have hsound := sound_after calls
  refine ⟨hsound.equivalence, ?_, ?_, ?_⟩
  · intro a b hab
    obtain ⟨s, l, ha, hb, hl⟩ := hsound.sameRun_iff.mp hab
    exact ⟨l, by simp [node?, ha, hl], by simp [node?, hb, hl]⟩
  · intro call done hdone
    rw [after_snoc, Pool.run, hdone]
    have hmade := makes_of_answer hdone
    exact hsound.shares hmade.traced hmade.flatten_eq
  · intro call e he
    rw [after_snoc, Pool.run, he]

/-- Slots 0 and 1 hold one leaf, slot 2 an equal one, and an insertion between siblings has
handed the first leaf back as slot 3. A concatenation hands it on once more, as slot 7, and
merges the leaf in slot 2 with what follows. -/
theorem sharing_is_exact_after_an_edit :
    let calls : List (Call Nat) := [.leaf (List.range 8), .clone 0, .leaf (List.range 8),
      .insert (some 0) 2 (some 1) 3 9, .part [7]]
    let call : Call Nat := .concat [3, 2] [6]
    ∃ done, (after calls).answer call = .ok done ∧
      Shares (after calls) (after (calls ++ [call])) call (done.value.made.map Held.node) ∧
      (after (calls ++ [call])).SameRun 7 1 ∧ ¬ (after (calls ++ [call])).SameRun 7 2 ∧
      ¬ (after (calls ++ [call])).SameRun 8 2 := by
  intro calls call
  obtain ⟨done, hdone⟩ : ∃ done, (after calls).answer call = .ok done := ⟨_, rfl⟩
  refine ⟨done, hdone, (sharing_is_exact calls).2.2.1 call done hdone, ?_, ?_, ?_⟩
  all_goals decide +kernel

end Pool

end LeafFringe
