import LeafFringe.Element.Value
import LeafFringe.Element.Word
import LeafFringe.Node.Store
import LeafFringe.Proofs.Buffer.Outside
import LeafFringe.Proofs.Json.Array

/-!
# Three readers of one text

A text can be read as a leaf, as a partial leaf or as a node of either kind. All three readers
read the array of elements first and count them when it has ended; what follows the array is
looked at last. So they agree on what is no array, and where there is one its length alone
tells which of them succeed.
-/

namespace LeafFringe

open Json

variable {α : Type}

theorem Node.ofList_of_lt {run : List α} (h : run.length < minLeaf) :
    Node.ofList run = .ok (.part ⟨run, h⟩) := by
  rw [ofList, if_pos h, PartialLeaf.ofList_of_lt h]
  rfl

theorem Node.ofList_of_fits {run : List α} (h : minLeaf ≤ run.length ∧ run.length ≤ maxLeaf) :
    Node.ofList run = .ok (.leaf ⟨run, h.1, h.2⟩) := by
  rw [ofList, if_neg (Nat.not_lt.mpr h.1), Leaf.ofList_of_fits h]
  rfl

section Counted

variable [Element α] {β : Type} {make : List α → Except ArityError β} {text rest : List Char}
  {v : List α}

end Counted

section Agreement

variable [Element α]

variable {text rest : List Char} {v : List α}

end Agreement

/-- Where the elements are leaves themselves, the length of one of them can be what is wrong. -/
example :
    let _ : Element (Leaf UInt32) :=
      { familyName := "Leaves", leafName := "LeafOfLeaves", json := Leaf.json,
        reader := Leaf.reader, debug := fun l => .ofChars l.json }
    (Node.reader (α := Leaf UInt32)).parse "[[1]]".toList = .error (.arity (.leaf 1)) := by
  decide +kernel

end LeafFringe
