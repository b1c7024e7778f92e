import LeafFringe.Node
import LeafFringe.Proofs.Refusal

/-!
# Checked buffers

The operations of the library carry the proofs that their runs fit. Here the same runs are
assembled in plain buffers: every range that is read is checked where it is read, every buffer
is measured when it is wrapped as a node, and positions are words of 64 bits whose sums may
wrap. Nothing is known beforehand, so each check can fail.
-/

namespace LeafFringe

variable {α : Type}

theorem Leaf.ofBuffer_of_le {run : List α} (least : minLeaf ≤ run.length)
    (fits : run.length ≤ maxLeaf) : Leaf.ofBuffer run = .ok ⟨run, least, fits⟩ :=
  dif_pos ⟨least, fits⟩

theorem PartialLeaf.ofBuffer_of_lt {run : List α} (short : run.length < minLeaf) :
    PartialLeaf.ofBuffer run = .ok ⟨run, short⟩ :=
  dif_pos short

theorem Leaf.ofBuffer_eq_ok {run : List α} {l : Leaf α} (h : l.toList = run) :
    Leaf.ofBuffer run = .ok l := by
  subst h
  exact ofBuffer_of_le l.minLeaf_le l.le_maxLeaf

theorem PartialLeaf.ofBuffer_eq_ok {run : List α} {p : PartialLeaf α} (h : p.toList = run) :
    PartialLeaf.ofBuffer run = .ok p := by
  subst h
  exact ofBuffer_of_lt p.lt_minLeaf

theorem Node.ofRun_of_lt {run : List α} (h : run.length ≤ maxLeaf)
    (short : run.length < minLeaf) : ofRun run h = part ⟨run, short⟩ :=
  dif_pos short

theorem Node.ofRun_of_le {run : List α} (h : run.length ≤ maxLeaf)
    (enough : minLeaf ≤ run.length) : ofRun run h = leaf ⟨run, enough, h⟩ :=
  dif_neg (Nat.not_lt.mpr enough)

/-- Measures the run of a node once more, and answers with its size. -/
def Node.remeasure : Node α → Except Fault Nat
  | leaf l => Leaf.size <$> Leaf.ofBuffer l.toList
  | part p => PartialLeaf.size <$> PartialLeaf.ofBuffer p.toList

theorem Node.remeasure_eq (n : Node α) : n.remeasure = .ok n.size := by
  cases n with
  | leaf l =>
    rw [remeasure, Leaf.ofBuffer_eq_ok rfl]
    rfl
  | part p =>
    rw [remeasure, PartialLeaf.ofBuffer_eq_ok rfl]
    rfl

namespace Buffer

/-- The elements before `stop`. -/
def upTo (run : List α) (stop : Nat) : Except Fault (List α) :=
  if stop ≤ run.length then .ok (run.take stop) else .error .outOfRange

/-- The elements from `start` on. -/
def onward (run : List α) (start : Nat) : Except Fault (List α) :=
  if start ≤ run.length then .ok (run.drop start) else .error .outOfRange

/-- The elements in `[start, stop)`. -/
def within (run : List α) (start stop : Nat) : Except Fault (List α) :=
  if start ≤ stop ∧ stop ≤ run.length then .ok ((run.drop start).take (stop - start))
  else .error .outOfRange

theorem upTo_of_le {run : List α} {stop : Nat} (h : stop ≤ run.length) :
    upTo run stop = .ok (run.take stop) :=
  if_pos h

theorem onward_of_le {run : List α} {start : Nat} (h : start ≤ run.length) :
    onward run start = .ok (run.drop start) :=
  if_pos h

/-- Two leaves of a run that is cut after `front` elements. -/
def halves (run : List α) (front : Nat) : Except Fault (Leaf α × Leaf α) := do
  let a ← Leaf.ofBuffer (← upTo run front)
  let b ← Leaf.ofBuffer (← onward run front)
  return (a, b)

theorem halves_eq_ok {run : List α} {front : Nat} {a b : Leaf α} (h : front ≤ run.length)
    (ha : a.toList = run.take front) (hb : b.toList = run.drop front) :
    halves run front = .ok (a, b) := by
  simp [halves, upTo_of_le h, onward_of_le h, Leaf.ofBuffer_eq_ok ha, Leaf.ofBuffer_eq_ok hb]

theorem halves_eq_cut {run : List α} {front : Nat} (h₁ : minLeaf ≤ front)
    (h₂ : front ≤ maxLeaf) (h₃ : minLeaf + front ≤ run.length)
    (h₄ : run.length ≤ maxLeaf + front) :
    halves run front = .ok (Leaf.cut run front h₁ h₂ h₃ h₄) :=
  halves_eq_ok (by omega) rfl rfl

def set (l : Leaf α) (pos : UInt64) (val : α) : Except Fault (Leaf α) :=
  if pos.toNat < l.toList.length then Leaf.ofBuffer (l.toList.set pos.toNat val)
  else .error .outOfRange

theorem set_eq (l : Leaf α) (pos : UInt64) (val : α) : set l pos val = l.set pos.toNat val := by
  unfold set Leaf.set
  rw [Leaf.length_toList]
  split
  · exact Leaf.ofBuffer_eq_ok rfl
  · rfl

def reverse (l : Leaf α) : Except Fault (Leaf α) := Leaf.ofBuffer l.toList.reverse

theorem reverse_eq (l : Leaf α) : reverse l = .ok l.reverse :=
  Leaf.ofBuffer_eq_ok l.toList_reverse

/-- What ends a slice: no room is made for it, its end is no word, or a check fails. -/
inductive Stop where
  | noRoom
  | overflow
  | fault (why : Fault)
deriving DecidableEq, Repr

/-- The fault that the library has for it. -/
def Stop.cause : Stop → Fault
  | noRoom | overflow => .outOfRange
  | fault why => why

/-- Makes room for a run. Room for more than any run of the library has to be granted. -/
def reserve (granted : Nat → Bool) (size : Nat) : Except Stop Unit :=
  if size ≤ bufferCapacity ∨ granted size then .ok () else .error .noRoom

/-- The sum of two words is a word. Whether a sum that does not fit is refused or wraps depends
on how the program was built. -/
def sum (refuseOverflow : Bool) (offset size : UInt64) : Except Stop UInt64 :=
  if refuseOverflow ∧ UInt64.size ≤ offset.toNat + size.toNat then .error .overflow
  else .ok (offset + size)

/-- Wraps the elements in `[start, stop)` as a node of the kind that fits `size` elements. -/
def node (run : List α) (start stop size : Nat) : Except Fault (Node α) := do
  let run ← within run start stop
  if size < minLeaf then return .part (← PartialLeaf.ofBuffer run)
  else return .leaf (← Leaf.ofBuffer run)

/-- The elements in `[offset, offset + size)`, for which room is made before they are read. -/
def slice (refuseOverflow : Bool) (granted : Nat → Bool) (l : Leaf α) (offset size : UInt64) :
    Except Stop (Node α) := do
  reserve granted size.toNat
  let stop ← sum refuseOverflow offset size
  (node l.toList offset.toNat stop.toNat size.toNat).mapError .fault

/-- A sum that wraps is less than its first term, so no range can have it as its end. -/
theorem within_wrapping (run : List α) {offset size : UInt64}
    (h : run.length < offset.toNat + size.toNat) :
    within run offset.toNat (offset + size).toNat = .error .outOfRange := by
  apply if_neg
  rintro ⟨hle, hlen⟩
  rw [UInt64.toNat_add] at hle hlen
  have := offset.toNat_lt
  have := size.toNat_lt
  omega

theorem within_fitting {run : List α} {offset size : UInt64} (hrun : run.length < UInt64.size)
    (h : offset.toNat + size.toNat ≤ run.length) :
    within run offset.toNat (offset + size).toNat =
      .ok ((run.drop offset.toNat).take size.toNat) := by
  have hsum : (offset + size).toNat = offset.toNat + size.toNat := by
    rw [UInt64.toNat_add]
    exact Nat.mod_eq_of_lt (Nat.lt_of_le_of_lt h hrun)
  rw [within, if_pos (by omega), hsum, Nat.add_sub_cancel_left]

section Slice

variable (refuseOverflow : Bool) (granted : Nat → Bool) {l : Leaf α} {offset size : UInt64}

/-- Within the leaf none of the checks fails. -/
theorem slice_of_le (h : offset.toNat + size.toNat ≤ l.size) :
    slice refuseOverflow granted l offset size =
      (l.slice offset.toNat size.toNat).mapError .fault := by
  have hword : l.toList.length < UInt64.size :=
    Nat.lt_of_le_of_lt l.le_maxLeaf (by decide)
  have hsum : sum refuseOverflow offset size = .ok (offset + size) := by
    rw [Leaf.length_toList] at hword
    exact if_neg (by omega)
  have hlen : ((l.toList.drop offset.toNat).take size.toNat).length = size.toNat := by
    rw [List.length_take, List.length_drop, Leaf.length_toList]
    omega
  have hroom : reserve granted size.toNat = .ok () := by
    have := l.size_le_maxLeaf
    have := maxLeaf_eq
    have := bufferCapacity_eq
    exact if_pos (.inl (by omega))
  rw [slice, hroom, ok_bind, hsum, ok_bind, node, within_fitting hword h, ok_bind, Leaf.slice,
    dif_pos h]
  by_cases short : size.toNat < minLeaf
  · rw [if_pos short, Node.ofRun_of_lt _ (by omega), PartialLeaf.ofBuffer_of_lt (by omega)]
    rfl
  · rw [if_neg short, Node.ofRun_of_le _ (by omega),
      Leaf.ofBuffer_of_le (by omega) (by have := l.size_le_maxLeaf; omega)]
    rfl

/-- Beyond the leaf one of the three checks fails, the later ones only where the earlier ones
have not failed. -/
theorem slice_of_lt (h : l.size < offset.toNat + size.toNat) :
    (slice refuseOverflow granted l offset size = .error .noRoom ∧
      bufferCapacity < size.toNat) ∨
    (slice refuseOverflow granted l offset size = .error .overflow ∧
      UInt64.size ≤ offset.toNat + size.toNat) ∨
    slice refuseOverflow granted l offset size = .error (.fault .outOfRange) := by
  by_cases hroom : size.toNat ≤ bufferCapacity ∨ granted size.toNat
  · have hreserve : reserve granted size.toNat = .ok () := if_pos hroom
    by_cases hsum : refuseOverflow ∧ UInt64.size ≤ offset.toNat + size.toNat
    · have hstop : sum refuseOverflow offset size = .error .overflow := if_pos hsum
      exact .inr (.inl ⟨by rw [slice, hreserve, ok_bind, hstop, error_bind], hsum.2⟩)
    · have hstop : sum refuseOverflow offset size = .ok (offset + size) := if_neg hsum
      refine .inr (.inr ?_)
      rw [slice, hreserve, ok_bind, hstop, ok_bind, node, within_wrapping l.toList h, error_bind]
      rfl
  · have hreserve : reserve granted size.toNat = .error .noRoom := if_neg hroom
    refine .inl ⟨by rw [slice, hreserve, error_bind], ?_⟩
    omega

end Slice

end Buffer

end LeafFringe
