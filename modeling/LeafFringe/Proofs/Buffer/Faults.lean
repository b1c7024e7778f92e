import LeafFringe.Proofs.Buffer.Fringe
import LeafFringe.Proofs.Buffer.Site
import LeafFringe.Proofs.Windows

/-!
# The faults that occur

The programs on checked buffers can fail at every read and at every buffer. Since they agree
with the library, what is left of all these checks is one comparison for each operation.
-/

namespace LeafFringe

variable {α : Type}

theorem refusedIff_insert (s : Site α) (pos : Nat) (val : α) :
    RefusedIff (s.insert pos val).logged.value (s.node.size < pos) := by
  rcases Nat.lt_or_ge s.node.size pos with h | h
  · exact .of_pos h (by rw [s.insert_of_lt val h]; rfl)
  · obtain ⟨done, hdone, -⟩ := s.insert_of_le val h
    exact .of_not (Nat.not_lt.mpr h) done.value (by rw [hdone]; rfl)

theorem refusedIff_remove (s : Site α) (pos : Nat) :
    RefusedIff (s.remove pos).logged.value (s.node.size ≤ pos) := by
  rcases Nat.lt_or_ge pos s.node.size with h | h
  · obtain ⟨done, hdone, -⟩ := s.remove_of_lt h
    exact .of_not (Nat.not_le.mpr h) done.value (by rw [hdone]; rfl)
  · exact .of_pos h (by rw [s.remove_of_le h]; rfl)

theorem refusedIff_set (l : Leaf α) (pos : Nat) (val : α) :
    RefusedIff (l.set pos val) (l.size ≤ pos) := by
  by_cases h : pos < l.size
  · exact .of_not (Nat.not_le.mpr h) _ (if_pos h)
  · exact .of_pos (Nat.not_lt.mp h) (if_neg h)

theorem refusedIff_get (l : Leaf α) (pos : Nat) : RefusedIff (l.get pos) (l.size ≤ pos) := by
  by_cases h : pos < l.size
  · exact .of_not (Nat.not_le.mpr h) _ (dif_pos h)
  · exact .of_pos (Nat.not_lt.mp h) (dif_neg h)

theorem refusedIff_slice (l : Leaf α) (offset size : Nat) :
    RefusedIff (l.slice offset size) (l.size < offset + size) := by
  by_cases h : offset + size ≤ l.size
  · exact .of_not (Nat.not_lt.mpr h) _ (dif_pos h)
  · exact .of_pos (Nat.not_le.mp h) (dif_neg h)

theorem get?_eq_none_iff (l : Leaf α) (pos : Nat) : l.get? pos = none ↔ l.size ≤ pos :=
  List.getElem?_eq_none_iff

namespace Buffer

/-- What becomes of a slice in checked buffers: but for the check that has failed it is the slice
of the library, and each of the checks fails only for elements that the leaf does not have. -/
structure SliceChecked (refuseOverflow : Bool) (granted : Nat → Bool) (l : Leaf α)
    (offset size : UInt64) : Prop where
  agrees : (slice refuseOverflow granted l offset size).mapError Stop.cause =
    l.slice offset.toNat size.toNat
  noRoom : slice refuseOverflow granted l offset size = .error .noRoom → l.size < size.toNat
  overflow : slice refuseOverflow granted l offset size = .error .overflow →
    UInt64.size ≤ offset.toNat + size.toNat
  refused (why : Stop) : slice refuseOverflow granted l offset size = .error why →
    l.size < offset.toNat + size.toNat ∧ why.cause = .outOfRange

theorem sliceChecked (refuseOverflow : Bool) (granted : Nat → Bool) (l : Leaf α)
    (offset size : UInt64) : SliceChecked refuseOverflow granted l offset size := by
  rcases Nat.lt_or_ge l.size (offset.toNat + size.toNat) with h | h
  · have hlib : l.slice offset.toNat size.toNat = .error .outOfRange :=
      dif_neg (Nat.not_le.mpr h)
    have hbeyond : bufferCapacity < size.toNat → l.size < size.toNat := by
      have := l.size_le_maxLeaf
      have := maxLeaf_eq
      have := bufferCapacity_eq
      omega
    rcases slice_of_lt refuseOverflow granted h with ⟨hslice, hroom⟩ | ⟨hslice, hlong⟩ | hslice
    · constructor <;> simp [hslice, hlib, h, hbeyond hroom, Except.mapError, Stop.cause]
    · constructor <;> simp [hslice, hlib, h, hlong, Except.mapError, Stop.cause]
    · constructor <;> simp [hslice, hlib, h, Except.mapError, Stop.cause]
  · obtain ⟨n, hlib, -⟩ := l.slice_of_le h
    have hslice : slice refuseOverflow granted l offset size = .ok n := by
      rw [slice_of_le refuseOverflow granted h, hlib]
      rfl
    constructor <;> simp [hslice, hlib, Except.mapError]

end Buffer

/-- Each operation is refused on account of its position or its range alone, whatever the
siblings are, and no buffer is ever of the wrong size. A slice is refused for want of room, for a
sum that is no word or for its range, and for each of them only if the leaf ends before it. -/
theorem refused_only_out_of_range :
    (∀ (s : Site α) (pos : UInt64) (val : α),
      Buffer.insert s pos val = s.insert pos.toNat val ∧
        RefusedIff (s.insert pos.toNat val).logged.value (s.node.size < pos.toNat)) ∧
    (∀ (s : Site α) (pos : UInt64),
      Buffer.remove s pos = s.remove pos.toNat ∧
        RefusedIff (s.remove pos.toNat).logged.value (s.node.size ≤ pos.toNat)) ∧
    (∀ (l : Leaf α) (pos : UInt64) (val : α),
      Buffer.set l pos val = l.set pos.toNat val ∧
        RefusedIff (l.set pos.toNat val) (l.size ≤ pos.toNat)) ∧
    (∀ (l : Leaf α) (pos : UInt64),
      RefusedIff (l.get pos.toNat) (l.size ≤ pos.toNat) ∧
        (l.get? pos.toNat = none ↔ l.size ≤ pos.toNat)) ∧
    (∀ (refuseOverflow : Bool) (granted : Nat → Bool) (l : Leaf α) (offset size : UInt64),
      Buffer.SliceChecked refuseOverflow granted l offset size ∧
        RefusedIff (l.slice offset.toNat size.toNat) (l.size < offset.toNat + size.toNat)) ∧
    (∀ l : Leaf α, Buffer.reverse l = .ok l.reverse) ∧
    (∀ (out : List (Node α)) (next : Node α),
      Buffer.append out next = .ok ((fun new => (new, new.length)) <$> append out next)) ∧
    (∀ left right : List (Node α), Buffer.concat left right = .ok (concat left right)) ∧
    (∀ run : List α, Buffer.ofElems run = .ok (ofElems run)) ∧
    (∀ n : Node α, n.remeasure = .ok n.size) := by
  refine ⟨?_, ?_, ?_, ?_, ?_, Buffer.reverse_eq, Buffer.append_eq, Buffer.concat_eq,
    Buffer.ofElems_eq, Node.remeasure_eq⟩
  · intro s pos val
    exact ⟨Buffer.insert_eq s pos val, refusedIff_insert s pos.toNat val⟩
  · intro s pos
    exact ⟨Buffer.remove_eq s pos, refusedIff_remove s pos.toNat⟩
  · intro l pos val
    exact ⟨Buffer.set_eq l pos val, refusedIff_set l pos.toNat val⟩
  · intro l pos
    exact ⟨refusedIff_get l pos.toNat, get?_eq_none_iff l pos.toNat⟩
  · intro refuseOverflow granted l offset size
    exact ⟨Buffer.sliceChecked refuseOverflow granted l offset size,
      refusedIff_slice l offset.toNat size.toNat⟩

end LeafFringe
