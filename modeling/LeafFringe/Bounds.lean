/-!
# Sizing constants

All bounds follow from the least number of elements in a leaf. A full leaf and the longest
run that falls short of a leaf together fill the scratch buffer of one merge.
-/

namespace LeafFringe

/-- Least number of elements in a leaf. -/
def minLeaf : Nat := 8

/-- Greatest number of elements in a leaf. -/
def maxLeaf : Nat := 2 * minLeaf - 1

/-- Least number of elements in a digit of the tree above the leaves. -/
def minDigit : Nat := minLeaf / 2

/-- Greatest number of elements in a digit of the tree above the leaves. -/
def maxDigit : Nat := maxLeaf + minDigit

/-- Greatest size of a sequence that is kept without a tree. -/
def maxSmall : Nat := 2 * minDigit - 1

/-- The longest run that is ever assembled in one go. -/
def bufferCapacity : Nat := maxLeaf + minLeaf - 1

theorem minLeaf_eq : minLeaf = 8 := rfl

theorem maxLeaf_eq : maxLeaf = 15 := rfl

theorem bufferCapacity_eq : bufferCapacity = 22 := rfl

end LeafFringe
