/-!
# Tables of code points

A set of code points is kept as a table of closed ranges, ascending and apart from each other.
Since they ascend, a search ends at the first range that starts too late.
-/

namespace LeafFringe.Text

/-- Closed ranges of code points. -/
abbrev CodeRanges := List (Nat × Nat)

namespace CodeRanges

def contains : CodeRanges → Nat → Bool
  | [], _ => false
  | (first, last) :: rest, n => first ≤ n && (n ≤ last || contains rest n)

/-- Whether the ranges ascend with gaps between them, the first of them not below `low`. -/
def ascendFrom : Nat → CodeRanges → Bool
  | _, [] => true
  | low, (first, last) :: rest => low ≤ first && first ≤ last && ascendFrom (last + 2) rest

theorem le_of_ascendFrom {low : Nat} {t : CodeRanges} (h : ascendFrom low t = true)
    {r : Nat × Nat} (hr : r ∈ t) : low ≤ r.1 := by
  induction t generalizing low with
  | nil => cases hr
  | cons s rest ih =>
    simp only [ascendFrom, Bool.and_eq_true, decide_eq_true_eq] at h
    rcases List.mem_cons.1 hr with rfl | hr
    · exact h.1.1
    · have := ih h.2 hr
      omega

theorem contains_iff {low : Nat} {t : CodeRanges} (h : ascendFrom low t = true) (n : Nat) :
    contains t n = true ↔ ∃ r ∈ t, r.1 ≤ n ∧ n ≤ r.2 := by
  induction t generalizing low with
  | nil => simp [contains]
  | cons s rest ih =>
    simp only [ascendFrom, Bool.and_eq_true, decide_eq_true_eq] at h
    simp only [contains, Bool.and_eq_true, Bool.or_eq_true, decide_eq_true_eq, ih h.2]
    constructor
    · rintro ⟨hs, hn | ⟨r, hr, hn⟩⟩
      · exact ⟨s, List.mem_cons_self, hs, hn⟩
      · exact ⟨r, List.mem_cons_of_mem s hr, hn⟩
    · rintro ⟨r, hr, hn⟩
      rcases List.mem_cons.1 hr with rfl | hr
      · exact ⟨hn.1, Or.inl hn.2⟩
      · have := le_of_ascendFrom h.2 hr
        exact ⟨by omega, Or.inr ⟨r, hr, hn⟩⟩

end CodeRanges

end LeafFringe.Text
