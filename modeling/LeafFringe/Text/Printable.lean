import LeafFringe.Text.DefaultIgnorable
import LeafFringe.Text.ExtendingMark
import LeafFringe.Text.NonGraphic

/-!
# Characters that can be printed as they are

A character is printable if it has a shape of its own, is meant to be seen and does not merge
with the character before it.
-/

namespace LeafFringe.Text

def isPrintable (c : Char) : Bool :=
  !nonGraphic.contains c.toNat && !defaultIgnorable.contains c.toNat &&
    !extendingMarks.contains c.toNat

/-- The search in the tables misses nothing: the printable characters are those outside of all
ranges of each table. -/
theorem isPrintable_iff (c : Char) :
    isPrintable c = true ↔ ∀ r ∈ nonGraphic ++ defaultIgnorable ++ extendingMarks,
      ¬ (r.1 ≤ c.toNat ∧ c.toNat ≤ r.2) := by
  simp only [isPrintable, Bool.and_eq_true, Bool.not_eq_true', Bool.eq_false_iff, ne_eq,
    CodeRanges.contains_iff nonGraphic_ascends, CodeRanges.contains_iff defaultIgnorable_ascends,
    CodeRanges.contains_iff extendingMarks_ascend, not_exists, not_and, List.forall_mem_append]

end LeafFringe.Text
