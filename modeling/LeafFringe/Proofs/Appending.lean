import LeafFringe.Proofs.Sharing.Lookup
import LeafFringe.Proofs.Sharing.Origin

/-!
# One node more at the end of an output

The output may be any list of nodes, also one that is no fringe. Its last node is left alone,
merged with the new one, or merged and shared out; all others stay, as the very nodes they were.
What is merged with a partial leaf without elements comes back as it was.
-/

namespace LeafFringe

variable {α : Type}

/-- What it means that `next` was appended to `out` and `new` is the output now. -/
structure Appended (out : List (Node α)) (next : Node α) (new : List (Node α)) : Prop where
  elements : flatten new = flatten out ++ next.toList
  /-- All nodes but the last one are left as they were. -/
  kept : out.dropLast <+: new
  length : out.length ≤ new.length ∧ new.length ≤ out.length + 1
  longer : new.length = out.length + 1 ↔ out = [] ∨ ∃ last ∈ out.getLast?,
    (last.isPart = false ∧ next.isPart = false) ∨ maxLeaf < last.size + next.size
  /-- Only a partial leaf can have no elements, and it leaves no trace. -/
  unseen : next.size = 0 → out ≠ [] → new = out

namespace Joined

variable {last next : Node α} {new : List (Node α)}

theorem length_eq_two_iff (h : Joined last next new) :
    new.length = 2 ↔
      (last.isPart = false ∧ next.isPart = false) ∨ maxLeaf < last.size + next.size := by
  cases h with
  | apart hlast hnext => simp [hlast, hnext]
  | merged n seam run =>
    have hsize := (Joined.merged n seam run).totalSize_eq
    have hfits := n.size_le_maxLeaf
    rw [totalSize_cons, totalSize_nil] at hsize
    have hshort : ¬ maxLeaf < last.size + next.size := by omega
    have hseam : ¬ (last.isPart = false ∧ next.isPart = false) := by
      rintro ⟨hlast, hnext⟩
      simp [hlast, hnext] at seam
    simp [hshort, hseam]
  | halved a b seam long half run => simp [long]

/-- With no elements to add, the last node is packed again as it was. -/
theorem eq_single (h : Joined last next new) (hempty : next.size = 0) : new = [last] := by
  have hnil : next.toList = [] := List.length_eq_zero_iff.mp hempty
  cases h with
  | apart hlast hnext =>
    have := next.isPart_eq_false_iff.mp hnext
    have := minLeaf_eq
    omega
  | merged n seam run =>
    rw [hnil, List.append_nil] at run
    rw [Node.ext run]
  | halved a b seam long =>
    have := last.size_le_maxLeaf
    omega

theorem appended (h : Joined last next new) (settled : List (Node α)) :
    Appended (settled ++ [last]) next (settled ++ new) where
  elements := by simp [h.flatten_eq]
  kept := by simp
  length := by
    have hsize := h.length_bounds
    simp only [List.length_append, List.length_singleton]
    omega
  longer := by
    have htwo : settled.length + new.length = settled.length + 1 + 1 ↔ new.length = 2 := by omega
    simp [htwo, h.length_eq_two_iff]
  unseen hempty _ := by rw [h.eq_single hempty]

end Joined

theorem appended_nil (next : Node α) : Appended [] next [next] where
  elements := by simp
  kept := List.nil_prefix
  length := by simp
  longer := by simp
  unseen _ hne := absurd rfl hne

theorem appended_append (out : List (Node α)) (next : Node α) :
    Appended out next (append out next).value := by
  rcases List.eq_nil_or_concat' out with rfl | ⟨settled, last, rfl⟩
  · rw [append_nil, Logged.value_pure]
    exact appended_nil next
  · rw [value_append_snoc]
    exact (joined_join last next).appended settled

/-- What stands before the last node of an output stands there afterwards, whatever carries it. -/
theorem dropLast_prefix_append {κ : Type} [Carrier κ α] (out : List κ) (next : κ) :
    out.dropLast <+: (append out next).value := by
  rcases List.eq_nil_or_concat' out with rfl | ⟨settled, last, rfl⟩
  · exact List.nil_prefix
  · rw [List.dropLast_concat, append_snoc]
    exact List.prefix_append settled _

/-- One append onto any output, in checked buffers too, where it answers with the length of the
new output. So it does if it is asked of a pool, and all nodes before the last one of the old
output are held as before. -/
theorem append_onto_any_output :
    (∀ (out : List (Node α)) (next : Node α),
      Buffer.append out next = .ok ((fun new => (new, new.length)) <$> append out next) ∧
        Appended out next (append out next).value) ∧
    (∀ [BEq α] (pool : Pool α) (slots : List Nat) (slot : Nat) (out : List (Held α))
      (next : Held α), slots.mapM pool.held = .ok out → pool.held slot = .ok next →
        ∃ done, pool.answer (.append slots slot) = .ok done ∧
          done.value.made.map Held.node = (append (out.map Held.node) next.node).value ∧
          done.value.finding = some (.next done.value.made.length) ∧
          out.dropLast <+: done.value.made) := by
  constructor
  · intro out next
    exact ⟨Buffer.append_eq out next, appended_append out next⟩
  · intro _ pool slots slot out next hout hnext
    refine ⟨(fun made => ⟨made, some (.next made.length)⟩) <$> append out next, ?_,
      map_node_append out next, rfl, dropLast_prefix_append out next⟩
    simp [Pool.answer, hout, hnext]

/-- A partial leaf stands in front of a full leaf. A partial leaf without elements leaves both as
they were, and three elements more make another node. -/
theorem append_onto_any_output_that_is_no_fringe :
    let three : Node Nat := .part ⟨List.range 3, by decide⟩
    let full : Node Nat := .leaf ⟨List.range 15, by decide, by decide⟩
    let empty : Node Nat := .part ⟨[], by decide⟩
    let pool : Pool Nat := [⟨0, three⟩, ⟨1, full⟩]
    empty.size = 0 ∧ [three, full] ≠ [] ∧ (append [three, full] empty).value = [three, full] ∧
      [0, 1].mapM pool.held = .ok [⟨some 0, three⟩, ⟨some 1, full⟩] ∧
      pool.held 0 = .ok ⟨some 0, three⟩ ∧
      ∃ done, pool.answer (.append [0, 1] 0) = .ok done ∧
        done.value.finding = some (.next 3) ∧ [⟨some 0, three⟩] <+: done.value.made := by
  intro three full empty pool
  obtain ⟨hall, hpool⟩ := @append_onto_any_output Nat
  have hempty : empty.size = 0 := rfl
  have hne : [three, full] ≠ [] := List.cons_ne_nil _ _
  have hout : [0, 1].mapM pool.held = .ok [⟨some 0, three⟩, ⟨some 1, full⟩] := rfl
  have hnext : pool.held 0 = .ok ⟨some 0, three⟩ := rfl
  obtain ⟨done, hdone, hmade, hfound, hkept⟩ := hpool pool [0, 1] 0 _ _ hout hnext
  have hlen : done.value.made.length = 3 := by
    have hnodes : (append [three, full] three).value.length = 3 := by decide
    rw [← hnodes, ← List.length_map, hmade]
    rfl
  rw [hlen] at hfound
  exact ⟨hempty, hne, (hall [three, full] empty).2.unseen hempty hne, hout, hnext, done, hdone,
    hfound, hkept⟩

end LeafFringe
